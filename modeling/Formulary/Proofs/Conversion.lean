/-
What casts and conversions give.

* `Primitive.Holds` — the values of a primitive type. The integral types below `long` share
  their values, each with a range of its own.
* `Primitive.cast_holds`, `Primitive.convert_holds` — whatever value is given, a cast and a
  conversion to a primitive type end with a value of the type or do not end with a value.
* `Kind.Takes.admits` — so does everything that a variable takes, as no member can stand in
  the place of an operation of a primitive type or of a boxed one.
* `Kind.cast_boxed` — a cast to a boxed type is that of an instance to the primitive.
-/

import Formulary.Proofs.Checking
import Formulary.Proofs.Rounding
import Formulary.Proofs.Variables

namespace Formulary

open Check (bind_ok)

/-! ### The values of a type -/

/-- The integers of a number of bits. -/
def InBits (bits : Nat) (i : Int) : Prop :=
  -2 ^ (bits - 1) ≤ i ∧ i < 2 ^ (bits - 1)

/-- The values of a primitive type. -/
def Primitive.Holds : Primitive → Value → Prop
  | .boolean, .bool _ => True
  | .byte, .int i => InBits 8 i
  | .short, .int i => InBits 16 i
  | .int, .int i => InBits 32 i
  | .long, .long i => InBits 64 i
  | .float, .single x => x.IsSingle
  | .double, .double _ => True
  | .char, .char codes => codes.length = 1
  | _, _ => False

/-- What a variable of a kind may hold. Those of other kinds than primitive and boxed types
may hold anything. -/
def Kind.Admits : Kind → Value → Prop
  | .core (.primitive type), value => type.Holds value
  | .core (.boxed type), value => value = .null ∨ type.Holds value
  | _, _ => True

/-- Whether a kind is a primitive or a boxed type. -/
def Kind.IsNumeric : Kind → Prop
  | .core (.primitive _) | .core (.boxed _) => True
  | _ => False

theorem Kind.admits_other {kind : Kind} (other : ¬kind.IsNumeric) (value : Value) :
    kind.Admits value := by
  match kind, other with
  | .core (.primitive _), other => exact (other trivial).elim
  | .core (.boxed _), other => exact (other trivial).elim
  | .core .object, _ => trivial
  | .core .string, _ => trivial
  | .number, _ => trivial
  | .host .., _ => trivial

/-! ### Integers -/

theorem shift_cast (bits : Nat) : ((1 <<< bits : Nat) : Int) = 2 ^ bits := by
  rw [Nat.one_shiftLeft]
  push_cast
  rfl

theorem wrap_inBits (i : Int) {bits : Nat} (positive : 0 < bits) : InBits bits (wrap i bits) := by
  obtain ⟨k, rfl⟩ := Nat.exists_eq_add_of_lt positive
  have modulus : 0 < 2 ^ (0 + k + 1) := Nat.two_pow_pos _
  have lower := Int.le_bmod (x := i) modulus
  have upper := Int.bmod_lt (x := i) modulus
  have half : ((2 ^ (0 + k + 1) : Nat) : Int) = 2 * 2 ^ k := by
    push_cast
    ring
  rw [half] at lower upper
  simp only [InBits, wrap, Nat.one_shiftLeft, Nat.zero_add, Nat.add_sub_cancel] at lower upper ⊢
  omega

theorem clamp_inBits (i : Int) (bits : Nat) : InBits bits (clamp i bits) := by
  have positive : (0 : Int) < 2 ^ (bits - 1) := by positivity
  rw [clamp, InBits, shift_cast]
  omega

/-- A double is cut off to an integer of the width that is asked for. -/
theorem Arithmetic.toIntegral_inBits (x : Double) {bits : Nat} (positive : 0 < bits)
    (width : bits < 32 ∨ bits = 32 ∨ bits = 64) : InBits bits (toIntegral x bits) := by
  unfold toIntegral
  extract_lets target bound result
  have target_in : InBits target result := by
    have power : (0 : Int) < 2 ^ (target - 1) := by positivity
    have same : (bound : Int) = 2 ^ (target - 1) := shift_cast (target - 1)
    simp only [result]
    split
    · exact clamp_inBits _ _
    · rw [InBits]
      split
      · omega
      · split <;> omega
  split
  · have power : (0 : Int) < 2 ^ (bits - 1) := by positivity
    rw [InBits]
    omega
  · split
    · exact wrap_inBits _ positive
    · have same : target = bits := by
        simp only [target]
        split <;> omega
      rwa [same] at target_in

/-! ### Primitive types -/

namespace Primitive

theorem castNumber_holds {type : Primitive} {number : Number} {value : Value}
    (h : type.castNumber number = .ok value) : type.Holds value := by
  unfold castNumber at h
  extract_lets asIntegral at h
  have integral : ∀ bits, 0 < bits → (bits < 32 ∨ bits = 32 ∨ bits = 64) →
      InBits bits (asIntegral bits) := by
    intro bits positive width
    simp only [asIntegral]
    split
    · exact wrap_inBits _ positive
    · exact Arithmetic.toIntegral_inBits _ positive width
  cases type with
  | boolean => cases h
  | double =>
    obtain ⟨x, _, h⟩ := bind_ok.mp h
    cases h
    trivial
  | float =>
    obtain ⟨x, _, h⟩ := bind_ok.mp h
    cases h
    exact x.toSingle_isSingle
  | long =>
    cases h
    exact integral 64 (by omega) (by omega)
  | int =>
    cases h
    exact integral 32 (by omega) (by omega)
  | short =>
    cases h
    exact integral 16 (by omega) (by omega)
  | byte =>
    cases h
    exact integral 8 (by omega) (by omega)
  | char =>
    cases h
    rfl

/-- **A cast to a primitive type gives a value of the type.** -/
theorem cast_holds {type : Primitive} {input value : Value}
    (h : type.cast input = .ok value) : type.Holds value := by
  unfold cast at h
  split at h
  · obtain ⟨truth, _, h⟩ := bind_ok.mp h
    cases h
    trivial
  · split at h
    · cases h
      rfl
    · obtain ⟨number, _, h⟩ := bind_ok.mp h
      exact castNumber_holds h
  · obtain ⟨number, _, h⟩ := bind_ok.mp h
    exact castNumber_holds h

/-- A conversion to a primitive type does what the cast does, or refuses. -/
theorem convert_ok {type : Primitive} {input value : Value}
    (h : type.convert input = .ok value) : type.cast input = .ok value := by
  unfold convert at h
  split at h
  · split at h
    · cases h
    · cases h
    · split at h
      · exact h
      · cases h
    · exact h
  · exact h

/-- **A conversion to a primitive type gives a value of the type.** -/
theorem convert_holds {type : Primitive} {input value : Value}
    (h : type.convert input = .ok value) : type.Holds value :=
  cast_holds (convert_ok h)

end Primitive

/-! ### Marks -/

/-- A value as it is, or one that is no number with another mark. -/
inductive Value.Settles : Value → Value → Prop
  | same (value : Value) : Settles value value
  | double (mark other : Nat) : Settles (.double (.nan mark)) (.double (.nan other))
  | single (mark other : Nat) : Settles (.single (.nan mark)) (.single (.nan other))

theorem Primitive.Holds.settles {type : Primitive} {value settled : Value}
    (holds : type.Holds value) (same : value.Settles settled) : type.Holds settled := by
  cases same with
  | same => exact holds
  | double mark other => cases type <;> exact holds
  | single mark other =>
    cases type with
    | float => exact fun finite => nomatch finite
    | _ => exact holds

theorem Kind.Admits.settles {kind : Kind} {value settled : Value} (admits : kind.Admits value)
    (same : value.Settles settled) : kind.Admits settled := by
  by_cases numeric : kind.IsNumeric
  · match kind, numeric, admits with
    | .core (.primitive _), _, holds => exact Primitive.Holds.settles holds same
    | .core (.boxed _), _, .inl null =>
      subst null
      cases same
      exact .inl rfl
    | .core (.boxed _), _, .inr holds => exact .inr (holds.settles same)
  · exact admits_other numeric settled

namespace Action

/-- A value that gets a mark of its own is the same value otherwise. -/
theorem settle_ok {value settled : Value} {before behind : Store}
    (h : (settle value).outcome before = (.ok settled, behind)) : value.Settles settled := by
  unfold settle at h
  split at h
  · split at h
    · cases h
      exact .double ..
    · cases h
      exact .same _
  · split at h
    · cases h
      exact .single ..
    · cases h
      exact .same _
  · cases h
    exact .same _

/-- A result that does not depend on the store, up to the mark that it gets. -/
theorem ofResult_ok {result : Except Fault Value} {settled : Value} {before behind : Store}
    (h : (ofResult result).outcome before = (.ok settled, behind)) :
    ∃ value, result = .ok value ∧ value.Settles settled := by
  cases result with
  | error fault => cases h
  | ok value => exact ⟨value, rfl, settle_ok h⟩

end Action

/-! ### Kinds without members -/

namespace Kind

/-- No member stands in the place of an operation of a primitive or a boxed type. -/
theorem IsNumeric.override?_eq {kind : Kind} (numeric : kind.IsNumeric) (store : Store)
    (operation : KindOperation) : kind.override? store operation = none := by
  match kind, numeric with
  | .core (.primitive _), _ => rfl
  | .core (.boxed _), _ => rfl

/-- Only on an open kind can members be set. -/
theorem override?_closed {kind : Kind} (closed : kind.isOpen = false) (store : Store)
    (operation : KindOperation) : kind.override? store operation = none := by
  simp [override?, closed]

/-! ### Casts and conversions to kinds -/

/-- A cast of references gives the value itself, which is `null` or an instance. -/
theorem castReference_ok {kind : Kind} {input value : Value} :
    kind.castReference input = .ok value ↔
      value = input ∧ (input = .null ∨ kind.isInstance input = .ok true) := by
  unfold castReference
  split
  · next null =>
    subst null
    constructor
    · intro h
      cases h
      exact ⟨rfl, .inl rfl⟩
    · rintro ⟨rfl, _⟩
      rfl
  · next given =>
    rw [bind_ok]
    constructor
    · rintro ⟨is, same, h⟩
      cases is with
      | true =>
        cases h
        exact ⟨rfl, .inr same⟩
      | false => cases h
    · rintro ⟨rfl, null | is⟩
      · exact (given null).elim
      · exact ⟨true, is, rfl⟩

/-- A cast to a boxed type gives `null`, or it is the cast of an instance to the primitive. -/
theorem cast_boxed {type : Primitive} {input value : Value}
    (cast : (Kind.core (.boxed type)).cast input = .ok value) :
    input = .null ∧ value = .null ∨ type.boxes input = true ∧ type.cast input = .ok value := by
  obtain ⟨reference, isReference, ends⟩ := bind_ok.mp cast
  obtain ⟨rfl, null | isInstance⟩ := castReference_ok.mp isReference
  · rw [if_pos null] at ends
    cases ends
    exact .inl ⟨null, rfl⟩
  · have boxed : type.boxes reference = true := Except.ok.inj isInstance
    have given : reference ≠ .null := by
      rintro rfl
      cases type <;> cases boxed
    rw [if_neg given] at ends
    exact .inr ⟨boxed, ends⟩

theorem cast_admits {kind : Kind} (numeric : kind.IsNumeric) {input value : Value}
    (h : kind.cast input = .ok value) : kind.Admits value := by
  match kind, numeric with
  | .core (.primitive type), _ => exact Primitive.cast_holds h
  | .core (.boxed type), _ =>
    obtain ⟨-, null⟩ | ⟨-, h⟩ := cast_boxed h
    · exact .inl null
    · exact .inr (Primitive.cast_holds h)

theorem convert_admits {kind : Kind} (numeric : kind.IsNumeric) {input value : Value}
    (h : kind.convert input = .ok value) : kind.Admits value := by
  match kind, numeric with
  | .core (.primitive type), _ => exact Primitive.convert_holds h
  | .core (.boxed type), _ =>
    rw [convert] at h
    split at h
    · cases h
      exact .inl rfl
    · exact .inr (Primitive.convert_holds h)

end Kind

namespace Dispatch

/-- A cast looks up whether a member stands in the place of the test of instances. -/
theorem outcome_cast (kind : Kind) (value : Value) (store : Store) :
    (cast none kind value).outcome store =
      Action.outcome (match kind.override? store .isInstance with
        | none => Action.ofResult (kind.cast value)
        | some member =>
          if value = .null then return value
          else do
            let answer ← Host.call member [value]
            if (← get).isTruthy answer then return value
            else Action.fail (.classCast value.typeName kind.name)) store := rfl

/-- A cast in whose place no member stands. -/
theorem cast_own {kind : Kind} {store : Store} (value : Value)
    (own : kind.override? store .isInstance = none) :
    (cast none kind value).outcome store = (Action.ofResult (kind.cast value)).outcome store := by
  rw [outcome_cast, own]

/-- A member that stands in the place of a cast. -/
theorem cast_member (member : Value) (kind : Kind) (value : Value) (store : Store) :
    (cast (some member) kind value).outcome store = (Host.call member [value]).outcome store :=
  rfl

/-- A cast with a member in the place of the test of instances lets through what is `null`
and what the member answers with something true. -/
theorem cast_tested {kind : Kind} {input value member : Value} {before behind : Store}
    (found : kind.override? before .isInstance = some member) :
    (cast none kind input).outcome before = (.ok value, behind) ↔
      value = input ∧ (input = .null ∧ behind = before ∨ input ≠ .null ∧ ∃ answer,
        (Host.call member [input]).outcome before = (.ok answer, behind) ∧
        behind.isTruthy answer = true) := by
  rw [outcome_cast, found]
  simp only
  split
  · next null =>
    constructor
    · intro h
      cases h
      exact ⟨rfl, .inl ⟨null, rfl⟩⟩
    · rintro ⟨rfl, ⟨_, rfl⟩ | ⟨given, _⟩⟩
      · rfl
      · exact (given null).elim
  · next given =>
    rw [Action.outcome_bind]
    rcases called : (Host.call member [input]).outcome before with ⟨fault | answer, last⟩
    · constructor
      · intro h
        cases h
      · rintro ⟨_, ⟨null, _⟩ | ⟨_, _, h, _⟩⟩
        · exact (given null).elim
        · cases h
    · have unfolded : Action.outcome (do
          if (← get).isTruthy answer then return input
          else Action.fail (.classCast input.typeName kind.name)) last =
          Action.outcome (if last.isTruthy answer then pure input
            else Action.fail (.classCast input.typeName kind.name)) last := rfl
      simp only [unfolded]
      split
      · next holds =>
        constructor
        · intro h
          cases h
          exact ⟨rfl, .inr ⟨given, answer, rfl, holds⟩⟩
        · rintro ⟨rfl, ⟨null, _⟩ | ⟨_, _, same, _⟩⟩
          · exact (given null).elim
          · cases same
            rfl
      · next fails =>
        constructor
        · intro h
          cases h
        · rintro ⟨_, ⟨null, _⟩ | ⟨_, _, same, holds⟩⟩
          · exact (given null).elim
          · cases same
            exact (fails holds).elim

end Dispatch

/-- **What a variable takes is of its kind.** -/
theorem Kind.Takes.admits {kind : Kind} {value : Value} (takes : kind.Takes value) :
    kind.Admits value := by
  by_cases numeric : kind.IsNumeric
  · cases takes with
    | cast looked before behind input given =>
      rw [numeric.override?_eq, Dispatch.cast_own _ (numeric.override?_eq ..)] at given
      obtain ⟨raw, result, settles⟩ := Action.ofResult_ok given
      exact (cast_admits numeric result).settles settles
    | convert looked before behind input given =>
      rw [numeric.override?_eq] at given
      obtain ⟨raw, result, settles⟩ := Action.ofResult_ok given
      exact (convert_admits numeric result).settles settles
  · exact admits_other numeric value

end Formulary
