/-
Operands of different kinds.

An arithmetic operator promotes its operands to the widest of their kinds. Doubles and integers
come to the same as operands that have been cast to that kind before. Beside a float an integer
is taken as a double, and only the result is rounded to single precision: an integer that single
precision has room for comes to the same here too, another one may not.

* `Double.ofInt?_inBits` — integers of 64 bits are doubles.
* `Double.toSingle_whole` — integers that single precision has room for are not rounded.
* `NumericOperand.outcome_floating` — an operator beside a floating operand works on doubles.
* `NumericOperand.promoted_alike` — operands that are cast to the promoted kind before.
-/

import Formulary.Proofs.Operands
import Formulary.Proofs.Overflow

namespace Formulary

/-! ### Integers as doubles -/

/-- An integer that single precision has room for: one of few bits, times a power of two. -/
def HasSingle (i : Int) : Prop :=
  ∃ m : Int, ∃ e : Nat, m.natAbs < 2 ^ 24 ∧ i = m * 2 ^ e

theorem hasSingle_small {i : Int} (small : i.natAbs < 2 ^ 24) : HasSingle i :=
  ⟨i, 0, small, by rw [pow_zero, mul_one]⟩

namespace Double

/-- An integer of 64 bits is a double. -/
theorem ofInt?_inBits {i : Int} (inRange : InBits 64 i) : ofInt? i = some (ofRat false i) := by
  have small : |(i : Rat)| < overflow := calc
    |(i : Rat)| ≤ 2 ^ 63 := by exact_mod_cast abs_le.mpr ⟨inRange.1, inRange.2.le⟩
    _ < 2 ^ 970 := pow_lt_pow_right₀ one_lt_two (by decide)
    _ ≤ overflow := by
      rw [overflow, le_sub_iff_add_le, ← two_mul, ← pow_succ']
      exact pow_le_pow_right₀ one_le_two (by decide)
  rw [ofInt?, if_pos ((isFinite_ofRat_iff false i).mpr small)]

/-- The magnitude of a rational with its sign is the rational. -/
theorem ofRat_signed (q : Rat) :
    ofRat (ofRat false q).isNegative (if (ofRat false q).isNegative then -|q| else |q|) =
      ofRat false q := by
  rw [isNegative_ofRat]
  obtain negative | rfl | positive := lt_trichotomy q 0
  · simp only [negative.ne, negative, abs_of_neg negative, if_false, decide_true, if_true, neg_neg,
      ofRat]
  · simp [ofRat]
  · simp only [positive.ne', positive.le.not_gt, abs_of_pos positive, if_false, decide_false,
      Bool.false_eq_true]

/-- The absolute value that the rounding to single precision takes. -/
theorem ratAbs_eq (q : Rat) : q.abs = |q| := by
  obtain nonneg | nonpos := le_total 0 q
  · rw [Rat.abs_of_nonneg nonneg, abs_of_nonneg nonneg]
  · rw [Rat.abs_of_nonpos nonpos, abs_of_nonpos nonpos]

/-- A number of single precision is not rounded. -/
theorem toSingle_ofRat {m e : Int} (short : m.natAbs < 2 ^ 24) (deep : -149 ≤ e) (high : e ≤ 104) :
    (ofRat false ((m : Rat) * 2 ^ e)).toSingle = ofRat false ((m : Rat) * 2 ^ e) := by
  have value := toRat?_ofRat_single false short deep high
  have finite : (m.natAbs : Rat) * 2 ^ e < 2 ^ (128 : Int) := calc
    (m.natAbs : Rat) * 2 ^ e < 2 ^ 24 * 2 ^ e := by
      have : (m.natAbs : Rat) < 2 ^ 24 := by exact_mod_cast short
      exact mul_lt_mul_of_pos_right this (by positivity)
    _ = 2 ^ (24 + e) := by rw [zpow_add₀ two_ne_zero]; rfl
    _ ≤ 2 ^ (128 : Int) := zpow_le_zpow_right₀ one_lt_two.le (by omega)
  have kept := Format.binary32_proper.magnitude_nearest (m := m.natAbs) (e := e) short deep finite
  have magnitude : (m.natAbs : Rat) * 2 ^ e = |(m : Rat) * 2 ^ e| := by
    rw [abs_mul, abs_of_pos (by positivity : (0 : Rat) < 2 ^ e), Nat.cast_natAbs, Int.cast_abs]
  rw [magnitude] at kept
  generalize (m : Rat) * 2 ^ e = q at value kept ⊢
  rw [toSingle, value]
  simp only [ratAbs_eq, kept.1.ne, if_false, kept.2]
  exact ofRat_signed q

/-- An integer of 64 bits that single precision has room for is not rounded. -/
theorem toSingle_whole {i : Int} (inRange : InBits 64 i) (single : HasSingle i) :
    (ofRat false (i : Rat)).toSingle = ofRat false i := by
  obtain ⟨m, e, short, rfl⟩ := single
  by_cases zero : m = 0
  · subst zero
    rw [zero_mul, Int.cast_zero]
    decide +kernel
  · have low : e ≤ 104 := by
      by_contra high
      have large : (2 : Int) ^ 105 ≤ |m * 2 ^ e| := calc
        (2 : Int) ^ 105 ≤ 2 ^ e := pow_le_pow_right₀ one_le_two (by omega)
        _ = 1 * 2 ^ e := (one_mul _).symm
        _ ≤ |m| * 2 ^ e := mul_le_mul_of_nonneg_right (Int.one_le_abs zero) (by positivity)
        _ = |m * 2 ^ e| := by rw [abs_mul, abs_of_pos (by positivity : (0 : Int) < 2 ^ e)]
      obtain ⟨lower, upper⟩ := inRange
      have small := abs_le.mpr ⟨lower, upper.le⟩
      exact absurd (large.trans small) (by decide)
    have exact := toSingle_ofRat (m := m) (e := e) short (by omega) (by omega)
    push_cast
    exact_mod_cast exact

end Double

/-! ### Operands -/

/-- A number as an operand, and the primitive type that it is promoted from: an integer and a
floating number in the range of their kinds, and a character, which counts as an `int`. -/
inductive NumericOperand : Value → Primitive → Prop
  | int {i : Int} (inRange : InBits 32 i) : NumericOperand (.int i) .int
  | char {code : Nat} (isCode : code < 0x110000) : NumericOperand (.char [code]) .int
  | long {i : Int} (inRange : InBits 64 i) : NumericOperand (.long i) .long
  | float {x : Double} (rounded : x.toSingle = x ∨ x.isNaN = true) :
    NumericOperand (.single x) .float
  | double (x : Double) : NumericOperand (.double x) .double

/-- The type that two operands are promoted to. -/
def promotedType (left right : Primitive) : Primitive :=
  if left = .double ∨ right = .double then .double
  else if left = .float ∨ right = .float then .float
  else if left = .long ∨ right = .long then .long
  else .int

/-- Whether single precision has room for an operand, if it is an integer. -/
def FitsSingle : Value → Prop
  | .int i | .long i => HasSingle i
  | _ => True

theorem doubles_ok {op : BinaryOp} (isArithmetic : op ∈ arithmetic) (x y : Double) :
    ∃ z, Arithmetic.doubles op x y = .ok z := by
  simp only [arithmetic, List.mem_cons, List.not_mem_nil, or_false] at isArithmetic
  obtain rfl | rfl | rfl | rfl | rfl := isArithmetic <;> exact ⟨_, rfl⟩

namespace NumericOperand

variable {value left right : Value} {type typeLeft typeRight : Primitive} {op : BinaryOp}

theorem numeric (h : NumericOperand value type) : value.isNumeric = true := by
  cases h <;> rfl

/-- The number and the double that an operand counts as. -/
structure CountsAs (value : Value) (type : Primitive) (number : Number) (x : Double) : Prop where
  counted : Number.ofValue value = .ok number
  asDouble : number.toDouble = .ok x
  floating : number.isFloating = type.isFloating
  double : number.isDouble = decide (type = .double)

theorem long_of_int {i : Int} (inRange : InBits 32 i) : InBits 64 i :=
  @inBits_wider false true i inRange nofun

theorem counts (h : NumericOperand value type) : ∃ number x, CountsAs value type number x := by
  have whole {i : Int} {isLong : Bool} (inRange : InBits 64 i) :
      (Number.integer i isLong).toDouble = .ok (.ofRat false i) := by
    rw [Number.toDouble, Double.ofInt?_inBits inRange]
  cases h with
  | int inRange => exact ⟨_, _, rfl, whole (long_of_int inRange), rfl, rfl⟩
  | @char code isCode => exact ⟨_, _, rfl, whole ⟨by omega, by omega⟩, rfl, rfl⟩
  | long inRange => exact ⟨_, _, rfl, whole inRange, rfl, rfl⟩
  | float => exact ⟨_, _, rfl, rfl, rfl, rfl⟩
  | double => exact ⟨_, _, rfl, rfl, rfl, rfl⟩

namespace CountsAs

variable {number : Number} {x : Double}

theorem ofDouble (x : Double) : CountsAs (.double x) .double (.floating x false) x :=
  ⟨rfl, rfl, rfl, rfl⟩

/-- A number of single precision counts as itself. -/
theorem ofSingle {x : Double} (rounded : x.toSingle = x) :
    CountsAs (.single x) .float (.floating x true) x := by
  refine ⟨rfl, ?_, rfl, rfl⟩
  cases x with
  | nan mark => exact congrArg Except.ok rounded
  | signed negative index => rfl

theorem cast_double (counts : CountsAs value type number x) :
    Primitive.double.cast value = .ok (.double x) := by
  simp only [Primitive.cast, counts.counted, Primitive.castNumber, bind, Except.bind,
    counts.asDouble]
  rfl

theorem cast_float (counts : CountsAs value type number x) :
    Primitive.float.cast value = .ok (.single x.toSingle) := by
  simp only [Primitive.cast, counts.counted, Primitive.castNumber, bind, Except.bind,
    counts.asDouble]
  rfl

/-- An operand that single precision has room for is not rounded to it. -/
theorem toSingle_eq (counts : CountsAs value type number x) (h : NumericOperand value type)
    (fits : FitsSingle value) (notDouble : type ≠ .double) : x.toSingle = x := by
  obtain ⟨counted, asDouble, -, -⟩ := counts
  have whole {i : Int} {isLong : Bool} (inRange : InBits 64 i) (single : HasSingle i)
      (isWhole : Number.integer i isLong = number) : x.toSingle = x := by
    rw [← isWhole, Number.toDouble, Double.ofInt?_inBits inRange] at asDouble
    obtain rfl := Except.ok.inj asDouble
    exact Double.toSingle_whole inRange single
  cases h with
  | int inRange => exact whole (long_of_int inRange) fits (Except.ok.inj counted)
  | @char code isCode =>
    exact whole ⟨by omega, by omega⟩ (hasSingle_small (by omega)) (Except.ok.inj counted)
  | long inRange => exact whole inRange fits (Except.ok.inj counted)
  | @float y rounded =>
    obtain rfl := Except.ok.inj counted
    obtain rfl := Except.ok.inj asDouble
    cases y with
    | nan mark => rfl
    | signed negative index => exact rounded.resolve_right Bool.false_ne_true
  | double => exact absurd rfl notDouble

end CountsAs

/-! ### Operators -/

/-- **An operator beside a floating operand works on doubles.** Only its result is rounded, to
single precision unless one of the operands is a double. -/
theorem outcome_floating {a b : Number} {x y z : Double} (leftNumeric : left.isNumeric = true)
    (rightNumeric : right.isNumeric = true) (leftCounts : CountsAs left typeLeft a x)
    (rightCounts : CountsAs right typeRight b y)
    (floating : typeLeft.isFloating = true ∨ typeRight.isFloating = true)
    (isArithmetic : op ∈ arithmetic) (result : Arithmetic.doubles op x y = .ok z) (store : Store) :
    (Operation.binary op left right).outcome store = (Action.ofResult (.ok (floatingValue z
      (decide (typeLeft ≠ .double ∧ typeRight ≠ .double))))).outcome store := by
  have single : (!(a.isDouble || b.isDouble)) =
      decide (typeLeft ≠ .double ∧ typeRight ≠ .double) := by
    rw [leftCounts.double, rightCounts.double]
    simp
  have promotes : Arithmetic.numbers op a b = Arithmetic.promoted op a b := by
    simp only [arithmetic, List.mem_cons, List.not_mem_nil, or_false] at isArithmetic
    obtain rfl | rfl | rfl | rfl | rfl := isArithmetic <;> rfl
  have promoted : Arithmetic.promoted op a b =
      .ok (floatingValue z (decide (typeLeft ≠ .double ∧ typeRight ≠ .double))) := by
    rw [← single]
    rw [← leftCounts.floating, ← rightCounts.floating] at floating
    unfold Arithmetic.promoted
    split
    · simp [Number.isFloating] at floating
    · simp only [leftCounts.asDouble, rightCounts.asDouble, bind, Except.bind, result]
      rfl
  rw [Operation.outcome_numbers (not_equality isArithmetic) leftNumeric rightNumeric
    leftCounts.counted rightCounts.counted, promotes, promoted]

/-- An integral operand is a whole operand that has the width of its kind. -/
theorem whole (h : NumericOperand value type) (integral : type.isFloating = false) :
    ∃ i, WholeOperand value (decide (type = .long)) i ∧
      InBits (widthOf (decide (type = .long))) i := by
  cases h with
  | int inRange => exact ⟨_, @WholeOperand.ofInteger false _ inRange, inRange⟩
  | char isCode =>
    exact ⟨_, .char isCode, show InBits 32 _ from ⟨by omega, by omega⟩⟩
  | long inRange => exact ⟨_, .long _, inRange⟩
  | float => cases integral
  | double => cases integral

end NumericOperand

/-- A whole operand that is cast to a width which it has room in. -/
theorem WholeOperand.cast {value : Value} {narrow wide : Bool} {i : Int}
    (h : WholeOperand value narrow i) (inRange : InBits (widthOf wide) i) :
    (if wide then Primitive.long else Primitive.int).cast value = .ok (integerOf wide i) := by
  have same := wrap_same (widthOf_pos wide) inRange
  have cast : (if wide then Primitive.long else Primitive.int).cast value =
      .ok (integerOf wide (wrap i (widthOf wide))) := by
    cases h <;> cases wide <;> rfl
  rw [cast, same]

/-- Whole operands that are cast to the wider of their kinds before. -/
theorem WholeOperand.outcome_cast_integers {left right : Value} {wideLeft wideRight : Bool}
    {a b : Int} (hl : WholeOperand left wideLeft a) (hr : WholeOperand right wideRight b)
    (leftRange : InBits (widthOf wideLeft) a) (rightRange : InBits (widthOf wideRight) b)
    {op : BinaryOp} (isArithmetic : op ∈ arithmetic) (store : Store) :
    ∃ x y, (if wideLeft || wideRight then Primitive.long else Primitive.int).cast left = .ok x ∧
      (if wideLeft || wideRight then Primitive.long else Primitive.int).cast right = .ok y ∧
      (Operation.binary op left right).outcome store = (Operation.binary op x y).outcome store := by
  have leftRange := inBits_left leftRange wideRight
  have rightRange := inBits_right rightRange wideLeft
  refine ⟨_, _, hl.cast leftRange, hr.cast rightRange, ?_⟩
  rw [hl.outcome_integers hr isArithmetic,
    (ofInteger leftRange).outcome_integers (ofInteger rightRange) isArithmetic, Bool.or_self]

namespace NumericOperand

variable {left right : Value} {typeLeft typeRight : Primitive} {op : BinaryOp}

/-- The promoted type of integral operands. -/
theorem promotedType_integral (leftIntegral : typeLeft.isFloating = false)
    (rightIntegral : typeRight.isFloating = false) :
    promotedType typeLeft typeRight =
      if decide (typeLeft = .long) || decide (typeRight = .long) then .long else .int := by
  have others {type : Primitive} (integral : type.isFloating = false) :
      type ≠ .double ∧ type ≠ .float := by
    constructor <;> rintro rfl <;> cases integral
  obtain ⟨leftDouble, leftFloat⟩ := others leftIntegral
  obtain ⟨rightDouble, rightFloat⟩ := others rightIntegral
  simp only [promotedType, leftDouble, rightDouble, leftFloat, rightFloat, or_self, if_false,
    Bool.or_eq_true, decide_eq_true_eq]

/-- The promoted type beside a floating operand. -/
theorem promotedType_floating
    (floating : typeLeft.isFloating = true ∨ typeRight.isFloating = true) :
    promotedType typeLeft typeRight =
      if typeLeft = .double ∨ typeRight = .double then .double else .float := by
  have single {type : Primitive} (floating : type.isFloating = true) :
      type = .double ∨ type = .float := by
    cases type with
    | double => exact .inl rfl
    | float => exact .inr rfl
    | _ => cases floating
  rw [promotedType]
  split
  · rfl
  · next noDouble =>
    rw [not_or] at noDouble
    rw [if_pos (floating.imp (fun left => (single left).resolve_left noDouble.1)
      fun right => (single right).resolve_left noDouble.2)]

/-- **Mixed operands behave as if they had been cast to the promoted type before,** unless this
type is `float` and single precision has no room for an integer among them. Beside a float the
operands are taken as doubles, and the result is the one on doubles, rounded to single
precision. -/
theorem promoted_alike (hl : NumericOperand left typeLeft) (hr : NumericOperand right typeRight)
    (isArithmetic : op ∈ arithmetic) (store : Store) :
    ((promotedType typeLeft typeRight = .float → FitsSingle left ∧ FitsSingle right) →
      ∃ a b, (promotedType typeLeft typeRight).cast left = .ok a ∧
        (promotedType typeLeft typeRight).cast right = .ok b ∧
        (Operation.binary op left right).outcome store =
          (Operation.binary op a b).outcome store) ∧
    (promotedType typeLeft typeRight = .float → ∃ x y z,
      Primitive.double.cast left = .ok (.double x) ∧
      Primitive.double.cast right = .ok (.double y) ∧
      (Operation.binary op (.double x) (.double y)).outcome store =
        (Action.ofResult (.ok (.double z))).outcome store ∧
      (Operation.binary op left right).outcome store =
        (Action.ofResult (.ok (.single z.toSingle))).outcome store) := by
  by_cases floating : typeLeft.isFloating = true ∨ typeRight.isFloating = true
  · obtain ⟨number, x, leftCounts⟩ := hl.counts
    obtain ⟨number', y, rightCounts⟩ := hr.counts
    obtain ⟨z, result⟩ := doubles_ok isArithmetic x y
    have outcome := outcome_floating hl.numeric hr.numeric leftCounts rightCounts floating
      isArithmetic result store
    have onDoubles := outcome_floating rfl rfl (.ofDouble x) (.ofDouble y) (.inl rfl)
      isArithmetic result store
    rw [promotedType_floating floating]
    split
    · next double =>
      have same : decide (typeLeft ≠ .double ∧ typeRight ≠ .double) = false := by
        rw [decide_eq_false_iff_not, not_and_or, not_not, not_not]
        exact double
      rw [same] at outcome
      exact ⟨fun _ => ⟨_, _, leftCounts.cast_double, rightCounts.cast_double,
        outcome.trans onDoubles.symm⟩, nofun⟩
    · next noDouble =>
      have single := not_or.mp noDouble
      rw [decide_eq_true single] at outcome
      refine ⟨fun fits => ?_, fun _ => ⟨x, y, z, leftCounts.cast_double, rightCounts.cast_double,
        onDoubles, outcome⟩⟩
      obtain ⟨leftFits, rightFits⟩ := fits rfl
      have leftSame := leftCounts.toSingle_eq hl leftFits single.1
      have rightSame := rightCounts.toSingle_eq hr rightFits single.2
      have onSingles := outcome_floating rfl rfl (.ofSingle leftSame) (.ofSingle rightSame)
        (.inl rfl) isArithmetic result store
      refine ⟨_, _, leftCounts.cast_float, rightCounts.cast_float, ?_⟩
      rw [leftSame, rightSame]
      exact outcome.trans onSingles.symm
  · rw [not_or, Bool.not_eq_true, Bool.not_eq_true] at floating
    obtain ⟨a, leftWhole, leftRange⟩ := hl.whole floating.1
    obtain ⟨b, rightWhole, rightRange⟩ := hr.whole floating.2
    rw [promotedType_integral floating.1 floating.2]
    refine ⟨fun _ => leftWhole.outcome_cast_integers rightWhole leftRange rightRange isArithmetic
      store, fun isFloat => ?_⟩
    split at isFloat <;> cases isFloat

/-- A long integer of 41 bits that single precision has room for, beside a float. -/
theorem roundLong_alike :
    NumericOperand (.long (3 * 2 ^ 40)) .long ∧
      NumericOperand (.single (.ofRat false (1 / 2))) .float ∧ .div ∈ arithmetic ∧
      (promotedType .long .float = .float →
        FitsSingle (.long (3 * 2 ^ 40)) ∧ FitsSingle (.single (.ofRat false (1 / 2)))) ∧
      ∃ a b, Primitive.float.cast (.long (3 * 2 ^ 40)) = .ok a ∧
        Primitive.float.cast (.single (.ofRat false (1 / 2))) = .ok b ∧
        (Operation.binary .div (.long (3 * 2 ^ 40)) (.single (.ofRat false (1 / 2)))).outcome
          Store.initial = (Operation.binary .div a b).outcome Store.initial := by
  have left : NumericOperand (.long (3 * 2 ^ 40)) .long := .long (by simp [InBits])
  have right : NumericOperand (.single (.ofRat false (1 / 2))) .float :=
    .float (.inl (by decide +kernel))
  have fits : FitsSingle (.long (3 * 2 ^ 40)) ∧ FitsSingle (.single (.ofRat false (1 / 2))) :=
    ⟨⟨3, 40, by decide, rfl⟩, trivial⟩
  have divides : BinaryOp.div ∈ arithmetic := by decide
  exact ⟨left, right, divides, fun _ => fits,
    (promoted_alike left right divides Store.initial).1 fun _ => fits⟩

/-- Single precision has no room for this integer: it is added as a double, and the sum is another
one than that of the integer rounded before. -/
theorem unfitInteger_differs :
    NumericOperand (.int 16777217) .int ∧ NumericOperand (.single (.ofRat false 1)) .float ∧
      promotedType .int .float = .float ∧
      Primitive.float.cast (.int 16777217) = .ok (.single (.ofRat false 16777216)) ∧
      Primitive.float.cast (.single (.ofRat false 1)) = .ok (.single (.ofRat false 1)) ∧
      (Operation.binary .add (.int 16777217) (.single (.ofRat false 1))).outcome Store.initial =
        (.ok (.single (.ofRat false 16777218)), Store.initial) ∧
      (Operation.binary .add (.single (.ofRat false 16777216)) (.single (.ofRat false 1))).outcome
        Store.initial = (.ok (.single (.ofRat false 16777216)), Store.initial) ∧
      Double.ofRat false 16777218 ≠ Double.ofRat false 16777216 := by
  have left : NumericOperand (.int 16777217) .int := .int (by simp [InBits])
  have right : NumericOperand (.single (.ofRat false 1)) .float :=
    .float (.inl (by decide +kernel))
  have unrounded : Operation.onValues .add (.int 16777217) (.single (.ofRat false 1)) =
      .ok (.single (.ofRat false 16777218)) := by decide +kernel
  have rounded : Operation.onValues .add (.single (.ofRat false 16777216))
      (.single (.ofRat false 1)) = .ok (.single (.ofRat false 16777216)) := by decide +kernel
  refine ⟨left, right, rfl, by decide +kernel, by decide +kernel, ?_, ?_, by decide +kernel⟩
  · change (Action.ofResult (Operation.onValues .add (.int 16777217)
      (.single (.ofRat false 1)))).outcome Store.initial = _
    rw [unrounded]
    rfl
  · change (Action.ofResult (Operation.onValues .add (.single (.ofRat false 16777216))
      (.single (.ofRat false 1)))).outcome Store.initial = _
    rw [rounded]
    rfl

end NumericOperand

end Formulary
