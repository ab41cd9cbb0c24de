/-
Numbers that are cut off to integral types.

A cast to `byte`, `short` or `char` comes to the same as a cast to `int` and one from there: an
integer keeps its lowest bits either way, and a floating number becomes an `int` before it is cut
down. A cast of a floating number to `int` or `long` takes its whole part, or the nearest integer
that the type has room for.

* `Double.CutOff` — the integer of a width that is left of a floating number.
* `Arithmetic.toIntegral_cutOff`, `Arithmetic.toIntegral_narrow` — how floating numbers are cut off.
* `Primitive.cast_throughInt` — narrow casts go through `int`.
-/

import Formulary.Proofs.Narrowing

namespace Formulary

/-! ### Whole parts -/

/-- The whole part of a rational: the integer behind it toward zero. -/
structure IsWholePart (q : Rat) (n : Int) : Prop where
  notLarger : |(n : Rat)| ≤ |q|
  nearest : |q| < |(n : Rat)| + 1
  sameSign : 0 ≤ (n : Rat) * q

theorem floor_isWholePart {q : Rat} (nonneg : 0 ≤ q) : IsWholePart q q.floor := by
  have whole : (0 : Rat) ≤ q.floor := by exact_mod_cast Rat.le_floor_iff.mpr nonneg
  refine ⟨?_, ?_, mul_nonneg whole nonneg⟩
  · rw [abs_of_nonneg whole, abs_of_nonneg nonneg]
    exact Rat.floor_le q
  · rw [abs_of_nonneg whole, abs_of_nonneg nonneg]
    exact Int.lt_floor_add_one q

theorem truncate_isWholePart (q : Rat) : IsWholePart q (Double.truncate q) := by
  rw [Double.truncate]
  split
  · next negative =>
    obtain ⟨notLarger, nearest, sameSign⟩ := floor_isWholePart (neg_pos.mpr negative).le
    rw [abs_neg] at notLarger nearest
    refine ⟨?_, ?_, ?_⟩
    · rwa [Int.cast_neg, abs_neg]
    · rwa [Int.cast_neg, abs_neg]
    · rwa [Int.cast_neg, neg_mul_comm]
  · next nonneg => exact floor_isWholePart (not_lt.mp nonneg)

/-! ### Floating numbers -/

namespace Double

/-- The integer of a width that is left of a floating number: none of what is no number, else the
whole part, or the nearest integer of the width where there is no room for it. -/
inductive CutOff (bits : Nat) : Double → Int → Prop
  | nan (mark : Nat) : CutOff bits (.nan mark) 0
  | finite {x : Double} {q : Rat} {n : Int} (value : x.toRat? = some q) (whole : IsWholePart q n) :
    CutOff bits x (max (-2 ^ (bits - 1)) (min (2 ^ (bits - 1) - 1) n))
  | above : CutOff bits (infinity false) (2 ^ (bits - 1) - 1)
  | below : CutOff bits (infinity true) (-2 ^ (bits - 1))

/-- What has no value is infinite or no number. -/
theorem infinite_of_toRat? {negative : Bool} {index : Fin 0x7FF0000000000001}
    (absent : (Double.signed negative index).toRat? = none) :
    Double.signed negative index = infinity negative := by
  rw [toRat?] at absent
  split at absent
  · next top =>
    obtain rfl : index = ⟨0x7FF0000000000000, by decide⟩ := Fin.ext top
    rfl
  · cases absent

end Double

namespace Arithmetic

/-- **What is left of a floating number in an `int` or a `long`.** -/
theorem toIntegral_cutOff (x : Double) {bits : Nat} (width : bits = 32 ∨ bits = 64) :
    x.CutOff bits (toIntegral x bits) := by
  have target : (if bits = 64 then 64 else 32) = bits := by
    obtain rfl | rfl := width <;> rfl
  have notNarrow : ¬bits < 32 := by omega
  cases x with
  | nan mark => exact .nan mark
  | signed negative index =>
    unfold toIntegral
    simp only [target, notNarrow, if_false, Double.isNaN, Bool.false_eq_true]
    split
    · next q value =>
      rw [clamp, shift_cast]
      exact .finite value (truncate_isWholePart q)
    · next absent =>
      rw [Double.infinite_of_toRat? absent, shift_cast]
      cases negative with
      | false => exact .above
      | true => exact .below

/-- A floating number becomes an `int` before it is cut down further. -/
theorem toIntegral_narrow (x : Double) {bits : Nat} (narrow : bits < 32) :
    toIntegral x bits = wrap (toIntegral x 32) bits := by
  have target : (if bits = 64 then 64 else 32) = 32 := if_neg (by omega)
  unfold toIntegral
  simp only [target, narrow, if_true, Nat.reduceEqDiff, if_false, Nat.lt_irrefl]
  split
  · rw [wrap_eq_bmod, Int.zero_bmod]
  · rfl

end Arithmetic

/-! ### Casts -/

/-- An integer that has been cut off to a width is cut off to a narrower one as it was. -/
theorem wrap_narrow (i : Int) {bits wide : Nat} (narrower : bits ≤ wide) :
    wrap (wrap i wide) bits = wrap i bits :=
  wrap_congr ((wrap_modEq i wide).of_dvd (by exact_mod_cast pow_dvd_pow 2 narrower))

/-- Integers of any magnitude, floating numbers, and characters of 16 bits. -/
inductive PlainNumber : Value → Prop
  | int (i : Int) : PlainNumber (.int i)
  | long (i : Int) : PlainNumber (.long i)
  | double (x : Double) : PlainNumber (.double x)
  | single (x : Double) : PlainNumber (.single x)
  | char {code : Nat} (short : code ≤ 0xFFFF) : PlainNumber (.char [code])

namespace Primitive

/-- The types that are narrower than `int`. -/
def narrow : List Primitive := [.byte, .short, .char]

/-- A number that is cut down to a narrow type may be made an `int` before. -/
theorem castNumber_throughInt {type : Primitive} (isNarrow : type ∈ narrow) (number : Number) :
    ∃ i, int.castNumber number = .ok (.int i) ∧
      type.castNumber (.integer i false) = type.castNumber number := by
  simp only [narrow, List.mem_cons, List.not_mem_nil, or_false] at isNarrow
  cases number with
  | integer i isLong =>
    refine ⟨wrap i 32, rfl, ?_⟩
    obtain rfl | rfl | rfl := isNarrow
    · exact congrArg (Except.ok ∘ Value.int) (wrap_narrow i (by decide))
    · exact congrArg (Except.ok ∘ Value.int) (wrap_narrow i (by decide))
    · have same : wrap i 32 % 0x10000 = i % 0x10000 :=
        (wrap_modEq i 32).of_dvd (by decide)
      exact congrArg (fun code => Except.ok (Value.char [code.toNat])) same
  | floating x isSingle =>
    refine ⟨Arithmetic.toIntegral x 32, rfl, ?_⟩
    obtain rfl | rfl | rfl := isNarrow
    · exact congrArg (Except.ok ∘ Value.int) (Arithmetic.toIntegral_narrow x (by decide)).symm
    · exact congrArg (Except.ok ∘ Value.int) (Arithmetic.toIntegral_narrow x (by decide)).symm
    · rfl

/-- A cast cuts the number down that a value counts as. Only a cast to `char` looks at the text of
a character instead. -/
theorem cast_counted {type : Primitive} {value : Value} {number : Number}
    (numeric : type ≠ .boolean) (noText : type = .char → value.text? = none)
    (counted : Number.ofValue value = .ok number) : type.cast value = type.castNumber number := by
  have counts : (do type.castNumber (← Number.ofValue value)) = type.castNumber number := by
    rw [counted]
    rfl
  cases type with
  | boolean => exact absurd rfl numeric
  | char => rw [← counts, cast, noText rfl]
  | _ => exact counts

/-- A number is cut down to a narrow type by way of `int`. -/
theorem cast_narrow {type : Primitive} {value : Value} {number : Number}
    (isNarrow : type ∈ narrow) (noText : type = .char → value.text? = none)
    (counted : Number.ofValue value = .ok number) :
    ∃ i, int.cast value = .ok (.int i) ∧ type.cast (.int i) = type.cast value := by
  have numeric : type ≠ .boolean := by
    rintro rfl
    simp [narrow] at isNarrow
  obtain ⟨i, isInt, same⟩ := castNumber_throughInt isNarrow number
  have cast : int.cast value = int.castNumber number := cast_counted nofun nofun counted
  refine ⟨i, cast.trans isInt, ?_⟩
  rw [cast_counted numeric noText counted, ← same]
  exact cast_counted numeric (fun _ => rfl) rfl

/-- A character of 16 bits is the character of its code. -/
theorem cast_char {code : Nat} (short : code ≤ 0xFFFF) :
    int.cast (.char [code]) = .ok (.int code) ∧ char.cast (.int code) = .ok (.char [code]) := by
  have fits : wrap (code : Int) 32 = code := wrap_same (by decide) ⟨by omega, by omega⟩
  have kept : ((code : Int) % 0x10000).toNat = code := by omega
  exact ⟨congrArg (Except.ok ∘ Value.int) fits,
    congrArg (fun code => Except.ok (Value.char [code])) kept⟩

/-- **Narrow casts go through `int`**, and a floating number is cut off to an `int` or a `long`
toward zero, or to the nearest one. -/
theorem cast_throughInt {value : Value} (number : PlainNumber value) :
    (∀ type ∈ narrow, ∃ whole cut, int.cast value = .ok whole ∧ type.cast whole = .ok cut ∧
      type.cast value = .ok cut) ∧
    ∀ x, value = .double x ∨ value = .single x → ∀ type ∈ [int, long], ∃ n,
      type.cast value = .ok (integerOf (decide (type = .long)) n) ∧ x.CutOff type.width n := by
  constructor
  · intro type isNarrow
    have through : ∃ i, int.cast value = .ok (.int i) ∧ type.cast (.int i) = type.cast value := by
      cases number with
      | int | long | double | single => exact cast_narrow isNarrow (fun _ => rfl) rfl
      | char short =>
        by_cases isChar : type = .char
        · subst isChar
          exact ⟨_, cast_char short⟩
        · exact cast_narrow isNarrow (fun same => absurd same isChar) rfl
    have whole : type.isWhole = true := by
      simp only [narrow, List.mem_cons, List.not_mem_nil, or_false] at isNarrow
      obtain rfl | rfl | rfl := isNarrow <;> rfl
    obtain ⟨i, isInt, same⟩ := through
    obtain ⟨cut, -, cast, -⟩ := cast_integer whole false i
    exact ⟨.int i, cut, isInt, cast, same.symm.trans cast⟩
  · intro x floating type wide
    simp only [List.mem_cons, List.not_mem_nil, or_false] at wide
    obtain rfl | rfl := wide
    · refine ⟨_, ?_, Arithmetic.toIntegral_cutOff x (.inl rfl)⟩
      obtain rfl | rfl := floating <;> rfl
    · refine ⟨_, ?_, Arithmetic.toIntegral_cutOff x (.inr rfl)⟩
      obtain rfl | rfl := floating <;> rfl

/-- A double that no `int` has room for: as a `byte` it is what the greatest `int` is. -/
theorem largeDouble_throughInt :
    let value : Value := .double (.ofRat false (3000000000 + 1 / 2))
    PlainNumber value ∧ byte ∈ narrow ∧ long ∈ [int, long] ∧
      (∃ whole cut, int.cast value = .ok whole ∧ byte.cast whole = .ok cut ∧
        byte.cast value = .ok cut) ∧
      byte.cast value = .ok (.int (-1)) ∧
      (∃ n, long.cast value = .ok (integerOf true n) ∧
        (Double.ofRat false (3000000000 + 1 / 2)).CutOff 64 n) ∧
      long.cast value = .ok (.long 3000000000) := by
  intro value
  have number : PlainNumber value := .double _
  have isNarrow : byte ∈ narrow := by decide
  have isWide : long ∈ [int, long] := by decide
  obtain ⟨throughInt, cutOff⟩ := cast_throughInt number
  exact ⟨number, isNarrow, isWide, throughInt byte isNarrow, by decide +kernel,
    cutOff _ (.inl rfl) long isWide, by decide +kernel⟩

end Primitive

end Formulary
