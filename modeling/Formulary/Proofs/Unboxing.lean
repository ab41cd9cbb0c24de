/-
Unboxing an argument is casting it.

An argument of a boxed type is cast twice on its way: by the cast to the boxed type, and by the
method that unboxes it. The second cast changes nothing: a number that has been rounded to
single precision is not rounded again, and one that has been cut down to a width keeps it. Only
a result that is no number may get another mark.

* `Double.toSingle_toSingle`, `wrap_same` — what is in the range already stays as it is.
* `Primitive.cast_again` — casting twice is casting once.
* `Primitive.cast_instance` — an instance of a boxed type can be cast to the primitive.
* `Method.invoke_unboxing` — the method that unboxes what has been cast.
-/

import Formulary.Method
import Formulary.Proofs.Conversion

namespace Formulary

/-! ### Single precision -/

namespace Format

variable {format : Format}

/-- The nearest magnitude to a finite magnitude is that magnitude. -/
theorem Proper.nearest_magnitude (proper : format.Proper) {index : Nat}
    (finite : index < format.infinity) :
    format.nearest (format.magnitude index) < format.infinity ∧
      format.magnitude (format.nearest (format.magnitude index)) = format.magnitude index := by
  obtain ⟨short, deep, high⟩ := proper.decode_range finite
  rw [magnitude]
  generalize format.decode index = decoded at short deep high
  obtain ⟨m, e⟩ := decoded
  refine proper.magnitude_nearest short deep ?_
  calc (m : Rat) * 2 ^ e < 2 ^ format.precision * 2 ^ e := by
        have short : (m : Rat) < 2 ^ format.precision := by exact_mod_cast short
        exact mul_lt_mul_of_pos_right short (by positivity)
    _ = 2 ^ ((format.precision : Int) + e) := by rw [zpow_add₀ two_ne_zero]; rfl
    _ ≤ 2 ^ (format.minExponent + format.runs - 2 + format.precision) :=
        zpow_le_zpow_right₀ one_lt_two.le (by simp only at high; omega)

/-- A magnitude of single precision is one of double precision. -/
theorem binary64_keeps {index : Nat} (finite : index < binary32.infinity) :
    binary64.nearest (binary32.magnitude index) < binary64.infinity ∧
      binary64.magnitude (binary64.nearest (binary32.magnitude index)) =
        binary32.magnitude index := by
  obtain ⟨short, deep, high⟩ := binary32_proper.decode_range finite
  rw [magnitude]
  generalize binary32.decode index = decoded at short deep high
  obtain ⟨m, e⟩ := decoded
  simp only [binary32] at short deep high
  refine binary64_proper.magnitude_nearest (short.trans (by decide))
    (show (-1074 : Int) ≤ e by omega) ?_
  calc (m : Rat) * 2 ^ e < 2 ^ 24 * 2 ^ e := by
        have short : (m : Rat) < 2 ^ 24 := by exact_mod_cast short
        exact mul_lt_mul_of_pos_right short (by positivity)
    _ = 2 ^ (24 + e) := by rw [zpow_add₀ two_ne_zero]; rfl
    _ ≤ 2 ^ (1024 : Int) := zpow_le_zpow_right₀ one_lt_two.le (by omega)

end Format

namespace Double

/-- The number with a magnitude of single precision and a sign. -/
def ofSingle (negative : Bool) (index : Nat) : Double :=
  ofRat negative (if negative then -Format.binary32.magnitude index
    else Format.binary32.magnitude index)

theorem toRat?_ofSingle (negative : Bool) {index : Nat}
    (finite : index < Format.binary32.infinity) :
    (ofSingle negative index).toRat? = some (if negative then
      -Format.binary32.magnitude index else Format.binary32.magnitude index) := by
  have magnitude : |(if negative then -Format.binary32.magnitude index
      else Format.binary32.magnitude index : Rat)| = Format.binary32.magnitude index := by
    cases negative
    · exact abs_of_nonneg (Format.magnitude_nonneg _ _)
    · exact (abs_neg _).trans (abs_of_nonneg (Format.magnitude_nonneg _ _))
  obtain ⟨below, kept⟩ := Format.binary64_keeps finite
  exact toRat?_ofRat negative (by rwa [magnitude]) (by rw [magnitude, kept])

theorem isNegative_ofRat (zeroSign : Bool) (q : Rat) :
    (ofRat zeroSign q).isNegative = if q = 0 then zeroSign else decide (q < 0) := by
  rw [ofRat]
  split
  · rfl
  · split
    · next negative => simp [ofIndex, isNegative, negative]
    · next positive => simp [ofIndex, isNegative, positive]

theorem isNegative_ofSingle (negative : Bool) (index : Nat) :
    (ofSingle negative index).isNegative = negative := by
  have nonneg := Format.magnitude_nonneg Format.binary32 index
  rw [ofSingle, isNegative_ofRat]
  cases negative with
  | false => simp [nonneg]
  | true =>
    simp only [if_true, neg_eq_zero, Left.neg_neg_iff]
    split
    · rfl
    · next given => exact decide_eq_true (lt_of_le_of_ne nonneg (Ne.symm given))

/-- A finite number of single precision is not rounded. -/
theorem toSingle_ofSingle (negative : Bool) {index : Nat}
    (finite : index < Format.binary32.infinity) :
    (ofSingle negative index).toSingle = ofSingle negative index := by
  obtain ⟨below, kept⟩ := Format.binary32_proper.nearest_magnitude finite
  have magnitude : (if negative then -Format.binary32.magnitude index
      else Format.binary32.magnitude index : Rat).abs = Format.binary32.magnitude index := by
    cases negative
    · exact Rat.abs_of_nonneg (Format.magnitude_nonneg _ _)
    · exact (Rat.abs_neg).trans (Rat.abs_of_nonneg (Format.magnitude_nonneg _ _))
  rw [toSingle, toRat?_ofSingle negative finite]
  simp only [magnitude, isNegative_ofSingle]
  rw [if_neg below.ne, kept]
  rfl

/-- **Rounding to single precision twice is rounding once.** -/
theorem toSingle_toSingle (a : Double) : a.toSingle.toSingle = a.toSingle := by
  cases value : a.toRat? with
  | none =>
    by_cases isNaN : a.isNaN = true
    · have fresh : a.toSingle = freshNaN := by rw [toSingle, value]; simp [isNaN]
      rw [fresh]
      rfl
    · have same : a.toSingle = a := by rw [toSingle, value]; simp [isNaN]
      rw [same, same]
  | some x =>
    by_cases large : Format.binary32.nearest x.abs = Format.binary32.infinity
    · have infinite : a.toSingle = infinity a.isNegative := by
        rw [toSingle, value]
        simp [large]
      rw [infinite]
      cases a.isNegative <;> rfl
    · have finite : Format.binary32.nearest x.abs < Format.binary32.infinity :=
        lt_of_le_of_ne (Format.nearest_le _) large
      have single : a.toSingle = ofSingle a.isNegative (Format.binary32.nearest x.abs) := by
        rw [toSingle, value]
        simp only [if_neg large]
        rfl
      rw [single, toSingle_ofSingle _ finite]

end Double

/-! ### Integers -/

/-- An integer of at most 64 bits is below a power of ten. -/
theorem InBits.natAbs_lt {i : Int} {bits : Nat} (h : InBits bits i) (few : bits ≤ 64) :
    i.natAbs < 10 ^ 20 := by
  have wide : (2 : Int) ^ (bits - 1) ≤ 2 ^ 63 := pow_le_pow_right₀ (by decide) (by omega)
  obtain ⟨lower, upper⟩ := h
  omega

/-- An integer that has the width already. -/
theorem wrap_same {i : Int} {bits : Nat} (positive : 0 < bits) (h : InBits bits i) :
    wrap i bits = i := by
  obtain ⟨k, rfl⟩ := Nat.exists_eq_add_of_lt positive
  obtain ⟨lower, upper⟩ := h
  have half : ((2 ^ (0 + k + 1) : Nat) : Int) = 2 * 2 ^ k := by
    push_cast
    ring
  simp only [Nat.zero_add, Nat.add_sub_cancel] at lower upper half
  rw [wrap, Nat.one_shiftLeft, Nat.zero_add]
  exact Int.bmod_eq_of_le_mul_two (by omega) (by omega)

/-! ### Marks -/

theorem Value.Settles.trans {first second third : Value} (h : first.Settles second)
    (h' : second.Settles third) : first.Settles third := by
  cases h with
  | same => exact h'
  | double mark other => cases h' <;> exact .double ..
  | single mark other => cases h' <;> exact .single ..

/-- A value that is no result waiting for a mark of its own. -/
def Value.IsSettled (value : Value) : Prop :=
  value ≠ .double .freshNaN ∧ value ≠ .single .freshNaN

/-- A number of a magnitude that a double can hold. -/
def Value.FitsDouble : Value → Prop
  | .int i | .long i => (Double.ofRat false (i : Rat)).isFinite = true
  | .fraction q => (Double.ofRat false q).isFinite = true
  | _ => True

/-! ### Casts -/

namespace Primitive

open Check (bind_ok)

/-- A value that a cast to a primitive type leaves as it is, up to its mark. -/
def Keeps (type : Primitive) (value : Value) : Prop :=
  ∃ again, type.cast value = .ok again ∧ value.Settles again

theorem keeps_same {type : Primitive} {value : Value} (h : type.cast value = .ok value) :
    type.Keeps value :=
  ⟨value, h, .same value⟩

/-- A value of single precision is rounded to itself. -/
theorem keeps_single {x : Double} (rounded : x.toSingle = x ∨ x.isNaN = true) :
    Primitive.float.Keeps (.single x) := by
  cases x with
  | nan mark => exact ⟨.single .freshNaN, rfl, .single ..⟩
  | signed negative index =>
    refine keeps_same ?_
    have same := rounded.resolve_right Bool.false_ne_true
    change Except.ok (Value.single (Double.signed negative index).toSingle) = _
    rw [same]

/-- **Casting twice is casting once**, whatever mark the first result has got. -/
theorem cast_again {type : Primitive} {input value settled : Value}
    (h : type.cast input = .ok value) (same : value.Settles settled) :
    type.Keeps settled := by
  have holds := (cast_holds h).settles same
  cases type with
  | boolean =>
    cases settled <;> first | exact holds.elim | exact keeps_same rfl
  | char =>
    cases settled with
    | char codes =>
      obtain ⟨code, rfl⟩ := List.length_eq_one_iff.mp holds
      exact keeps_same rfl
    | _ => exact holds.elim
  | double =>
    cases settled <;> first | exact holds.elim | exact keeps_same rfl
  | float =>
    cases settled with
    | single x =>
      refine keeps_single ?_
      cases same with
      | same =>
        obtain ⟨number, _, h⟩ := bind_ok.mp h
        obtain ⟨y, _, h⟩ := bind_ok.mp h
        cases h
        exact .inl y.toSingle_toSingle
      | single mark other => exact .inr rfl
    | _ => exact holds.elim
  | long =>
    cases settled with
    | long i => exact keeps_same (congrArg (Except.ok ∘ Value.long) (wrap_same (by decide) holds))
    | _ => exact holds.elim
  | int | short | byte =>
    cases settled with
    | int i => exact keeps_same (congrArg (Except.ok ∘ Value.int) (wrap_same (by decide) holds))
    | _ => exact holds.elim

/-- An instance of a boxed type can be cast to the primitive. Only a floating type asks for a
magnitude that a double can hold. -/
theorem cast_instance {type : Primitive} {value : Value} (isInstance : type.boxes value = true)
    (fits : type.isFloating = true → value.FitsDouble) : ∃ cast, type.cast value = .ok cast := by
  have toDouble {i : Int} (h : (Value.int i).FitsDouble) : Double.ofInt? i ≠ none := by
    simp only [Value.FitsDouble] at h
    simp [Double.ofInt?, h]
  cases type with
  | double | float =>
    cases value with
    | int i =>
      obtain ⟨x, isDouble⟩ := Option.ne_none_iff_exists'.mp (toDouble (fits rfl))
      simp only [cast, castNumber, Number.ofValue, Number.toDouble, isDouble, bind, Except.bind]
      exact ⟨_, rfl⟩
    | fraction q =>
      have finite : (Double.ofRat false q).isFinite = true := fits rfl
      simp only [cast, castNumber, Number.ofValue, Number.toDouble, finite, bind, Except.bind]
      exact ⟨_, rfl⟩
    | double x | single x => exact ⟨_, rfl⟩
    | _ => cases isInstance
  | long | int | short | byte =>
    cases value with
    | int i | long i => exact ⟨_, rfl⟩
    | _ => cases isInstance
  | boolean =>
    cases value with
    | bool b => exact ⟨_, rfl⟩
    | _ => cases isInstance
  | char =>
    cases value with
    | char codes | str codes =>
      obtain ⟨code, rfl⟩ := List.length_eq_one_iff.mp (of_decide_eq_true isInstance)
      exact ⟨_, rfl⟩
    | _ => cases isInstance

end Primitive

namespace Kind

variable {type : Primitive} {value : Value}

theorem cast_instance (isInstance : type.boxes value = true) :
    (Kind.core (.boxed type)).cast value = type.cast value := by
  have given : value ≠ .null := by
    rintro rfl
    cases type <;> cases isInstance
  simp [cast, castReference, Kind.isInstance, given, isInstance, bind, Except.bind, pure,
    Except.pure]

theorem cast_other (given : value ≠ .null) (other : type.boxes value = false) :
    (Kind.core (.boxed type)).cast value =
      .error (.evaluation (.classCast value.typeName type.boxedName)) := by
  simp [cast, castReference, Kind.isInstance, given, other, bind, Except.bind, throw,
    throwThe, MonadExceptOf.throw, Kind.name, CoreType.name]

end Kind

/-! ### Results -/

namespace Action

/-- A result gets at most a mark, and no member is set. -/
theorem settle_ends (value : Value) (store : Store) :
    ∃ settled behind, (settle value).outcome store = (.ok settled, behind) ∧
      value.Settles settled ∧ behind.settings = store.settings := by
  unfold settle
  split
  · split
    · exact ⟨_, _, rfl, .double .., rfl⟩
    · exact ⟨_, _, rfl, .same _, rfl⟩
  · split
    · exact ⟨_, _, rfl, .single .., rfl⟩
    · exact ⟨_, _, rfl, .same _, rfl⟩
  · exact ⟨_, _, rfl, .same _, rfl⟩

/-- A value that has its mark is left as it is. -/
theorem settle_settled {value : Value} (settled : value.IsSettled) (store : Store) :
    (settle value).outcome store = (.ok value, store) := by
  unfold settle
  split
  · next mark =>
    have given : mark ≠ Double.freshMark := fun fresh => settled.1 (fresh ▸ rfl)
    rw [if_neg given]
    rfl
  · next mark =>
    have given : mark ≠ Double.freshMark := fun fresh => settled.2 (fresh ▸ rfl)
    rw [if_neg given]
    rfl
  · rfl

end Action

namespace Method

/-- The name of the method that unboxes a primitive. -/
def unboxingName (type : Primitive) : String :=
  type.name ++ "Value"

theorem invoke_null (name : String) (args : List Value) (store : Store) :
    (invoke .null name args).outcome store =
      (.error (.evaluation (.nullReceiver name)), store) := rfl

/-- No value of a primitive type has a member with the name of a method that unboxes. -/
theorem member?_unboxing {type : Primitive} {value : Value} (holds : type.Holds value)
    (store : Store) : store.member? value (unboxingName type) = none := by
  cases type <;> cases value <;> first | exact holds.elim | rfl

/-- The method that unboxes a value of a primitive type gives the value back. -/
theorem invoke_unboxing {type : Primitive} {value : Value} (holds : type.Holds value)
    (keeps : type.Keeps value) (store : Store) :
    ∃ settled behind,
      (invoke value (unboxingName type) []).outcome store = (.ok settled, behind) ∧
        value.Settles settled ∧ behind.settings = store.settings := by
  have given : value ≠ .null := by
    rintro rfl
    cases type <;> exact holds.elim
  have found : builtin? value (unboxingName type) [] = some (unboxed type value) := by
    cases type <;> rfl
  have called : (invoke value (unboxingName type) []).outcome store =
      (unboxed type value).outcome store := by
    rw [invoke, if_neg given, Action.outcome_get, member?_unboxing holds, found]
    rfl
  obtain ⟨again, cast, settles⟩ := keeps
  rw [called]
  by_cases boolean : type = .boolean
  · subst boolean
    cases value with
    | bool b => exact ⟨_, _, rfl, .same _, rfl⟩
    | _ => exact holds.elim
  · have numeric : value.isNumeric = true := by
      cases type <;> cases value <;> first | exact holds.elim | exact absurd rfl boolean | rfl
    rw [unboxed, if_neg boolean, if_pos numeric, cast]
    obtain ⟨settled, behind, ended, same, settings⟩ := Action.settle_ends again store
    exact ⟨settled, behind, ended, settles.trans same, settings⟩

end Method

end Formulary
