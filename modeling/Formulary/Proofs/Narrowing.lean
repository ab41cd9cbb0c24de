/-
Integers that are taken over into integral types.

A conversion looks at the kind of an integer and not at its magnitude. A long integer is refused
by every type but `long`; any other conversion succeeds and cuts the integer down to the type. So
an integer that the type has room for keeps its value, and one that it has no room for loses it.

* `Primitive.Covers` — the integers that a type has room for.
* `Primitive.cast_integer` — what a cast leaves of an integer.
* `Primitive.convert_integer` — which conversions succeed, and which of them keep the value.
-/

import Formulary.Proofs.Operands

namespace Formulary

namespace Primitive

/-- The number of bits of an integral type. -/
def width : Primitive → Nat
  | .byte => 8
  | .short | .char => 16
  | .int => 32
  | _ => 64

/-- The integers that an integral type has room for. Characters have no sign. -/
def Covers : Primitive → Int → Prop
  | .char, i => 0 ≤ i ∧ i < 2 ^ 16
  | type, i => InBits type.width i

/-- An integer that a type is left with of another one: one that agrees with it in all bits of the
type. Where the type has room for the other integer it is that one. -/
structure LeftOf (type : Primitive) (i r : Int) : Prop where
  covers : type.Covers r
  agrees : r ≡ i [ZMOD (2 ^ type.width : Nat)]
  kept : r = i ↔ type.Covers i

variable {type : Primitive}

theorem leftOf_wrap (signed : type ≠ .char) (i : Int) : type.LeftOf i (wrap i type.width) := by
  have positive : 0 < type.width := by cases type <;> decide
  have covers (i : Int) : type.Covers i ↔ InBits type.width i := by
    cases type <;> first | exact Iff.rfl | exact absurd rfl signed
  refine ⟨(covers _).mpr (wrap_inBits i positive), wrap_modEq i _, ?_⟩
  rw [covers]
  constructor
  · intro same
    rw [← same]
    exact wrap_inBits i positive
  · exact wrap_same positive

theorem leftOf_code (i : Int) : char.LeftOf i (i % 0x10000) := by
  refine ⟨⟨by omega, by simp only [Int.reducePow]; omega⟩, Int.mod_modEq i _, ?_⟩
  simp only [Covers, Int.reducePow]
  omega

/-- **What a cast leaves of an integer.** -/
theorem cast_integer (whole : type.isWhole = true) (isLong : Bool) (i : Int) :
    ∃ value r, type.cast (integerOf isLong i) = .ok value ∧ type.Holds value ∧
      Number.ofValue value = .ok (.integer r (decide (type = .long))) ∧ type.LeftOf i r := by
  have cast : type.cast (integerOf isLong i) = type.castNumber (.integer i isLong) := by
    cases type <;> cases isLong <;> rfl
  cases type with
  | byte | short | int | long =>
    exact ⟨_, _, cast, wrap_inBits i (by decide), rfl, leftOf_wrap (by decide) i⟩
  | char =>
    have code : (((i % 0x10000).toNat : Nat) : Int) = i % 0x10000 :=
      Int.toNat_of_nonneg (Int.emod_nonneg i (by decide))
    refine ⟨_, i % 0x10000, cast, rfl, ?_, leftOf_code i⟩
    rw [← code]
    rfl
  | double | float | boolean => cases whole

theorem convert_int (whole : type.isWhole = true) (i : Int) :
    type.convert (.int i) = type.cast (.int i) := by
  unfold convert
  rw [if_pos whole]

theorem convert_long (whole : type.isWhole = true) (i : Int) :
    type.convert (.long i) = if type = .long then type.cast (.long i)
      else .error (.evaluation (.lossy "long" type.name)) := by
  unfold convert
  rw [if_pos whole]

/-- **A conversion refuses long integers, unless it is to `long`, and no other ones.** All others
it cuts down to the type, so that the value is kept exactly where the type has room for it. -/
theorem convert_integer (whole : type.isWhole = true) (isLong : Bool) (i : Int) :
    (isLong = true ∧ type ≠ .long →
      type.convert (integerOf isLong i) = .error (.evaluation (.lossy "long" type.name))) ∧
    (¬(isLong = true ∧ type ≠ .long) → ∃ value r,
      type.convert (integerOf isLong i) = .ok value ∧ type.Holds value ∧
      Number.ofValue value = .ok (.integer r (decide (type = .long))) ∧ type.LeftOf i r) := by
  constructor
  · rintro ⟨rfl, narrower⟩
    rw [integerOf, if_pos rfl, convert_long whole, if_neg narrower]
  · intro taken
    have converts : type.convert (integerOf isLong i) = type.cast (integerOf isLong i) := by
      cases isLong with
      | false => exact convert_int whole i
      | true =>
        have isLongType : type = .long := not_not.mp fun narrower => taken ⟨rfl, narrower⟩
        rw [integerOf, if_pos rfl, convert_long whole, if_pos isLongType]
    rw [converts]
    exact cast_integer whole isLong i

/-- A character that there is room for, and a long integer that is refused although there would be
room for it. -/
theorem letter_converted :
    char.isWhole = true ∧ ¬(false = true ∧ char ≠ .long) ∧
      (∃ value r, char.convert (.int 97) = .ok value ∧ char.Holds value ∧
        Number.ofValue value = .ok (.integer r false) ∧ char.LeftOf 97 r) ∧
      (true = true ∧ char ≠ .long) ∧
      char.convert (.long 97) = .error (.evaluation (.lossy "long" "char")) := by
  have taken : ¬(false = true ∧ char ≠ .long) := fun both => nomatch both.1
  have refused : true = true ∧ char ≠ .long := ⟨rfl, nofun⟩
  exact ⟨rfl, taken, (convert_integer rfl false 97).2 taken, refused,
    (convert_integer rfl true 97).1 refused⟩

/-- An integer that is too large for an `int` is taken over as another one. -/
theorem tooLarge_converted :
    int.isWhole = true ∧ int.convert (.int 4294967297) = .ok (.int 1) ∧
      Number.ofValue (.int 1) = .ok (.integer 1 false) ∧ (1 : Int) ≠ 4294967297 :=
  ⟨rfl, by decide, rfl, by decide⟩

end Primitive

end Formulary
