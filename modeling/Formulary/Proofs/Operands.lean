/-
Operands that count as whole numbers.

An operator looks at an operand only through the number that it counts as: a character is its
code, and an integer that does not fit into 32 bits is long whether it is tagged so or not.

* `WholeOperand` — the integer that a value counts as, and whether it takes 64 bits.
* `Operation.outcome_numbers` — an operator on numeric values is the one on their numbers.
* `WholeOperand.outcome_integers` — an arithmetic operator on two of them is the one on
  integers, long as soon as one of the operands is.
-/

import Formulary.Proofs.Wrapping

namespace Formulary

/-- A value that counts as a whole number: whether it takes 64 bits, and which one it is. -/
inductive WholeOperand : Value → Bool → Int → Prop
  | int (i : Int) : WholeOperand (.int i) (!fitsInt i) i
  | long (i : Int) : WholeOperand (.long i) true i
  | char {code : Nat} (isCode : code < 0x110000) : WholeOperand (.char [code]) false code

/-- The arithmetic operators. -/
def arithmetic : List BinaryOp := [.add, .sub, .mul, .div, .rem]

/-- An arithmetic operator does not compare. -/
theorem not_equality {op : BinaryOp} (isArithmetic : op ∈ arithmetic) : op ≠ .eq ∧ op ≠ .ne := by
  constructor <;> rintro rfl <;> simp [arithmetic] at isArithmetic

/-- What a numeric value is not. -/
theorem Value.numeric_not {value : Value} (numeric : value.isNumeric = true) :
    value ≠ .null ∧ value.isString = false ∧ ∀ b, value ≠ .bool b := by
  cases value with
  | int | long | double | single | fraction | char => simp [isString]
  | _ => cases numeric

/-- Numeric operands are the numbers that they count as. -/
theorem Arithmetic.operands_numeric (symbol : String) {left right : Value}
    (leftNumeric : left.isNumeric = true) (rightNumeric : right.isNumeric = true) :
    operands symbol left right = (do
      let a ← Number.ofValue left
      let b ← Number.ofValue right
      return (a, b)) := by
  obtain ⟨leftGiven, -, -⟩ := Value.numeric_not leftNumeric
  obtain ⟨rightGiven, -, -⟩ := Value.numeric_not rightNumeric
  simp only [operands, leftGiven, rightGiven, leftNumeric, rightNumeric]
  rfl

namespace Operation

/-- Only a string keeps an operator from the values of its operands. -/
theorem binary_numeric (op : BinaryOp) {left right : Value} (leftNumeric : left.isNumeric = true)
    (rightNumeric : right.isNumeric = true) :
    binary op left right = Action.ofResult (onValues op left right) := by
  obtain ⟨-, leftNoText, -⟩ := Value.numeric_not leftNumeric
  obtain ⟨-, rightNoText, -⟩ := Value.numeric_not rightNumeric
  rw [binary, leftNoText, rightNoText, Bool.or_self, Bool.and_false, if_neg Bool.false_ne_true]

/-- Only truth values and equality keep an operator from its numbers. -/
theorem onValues_numeric {op : BinaryOp} (compares : op ≠ .eq ∧ op ≠ .ne) {left right : Value}
    (numeric : left.isNumeric = true) : onValues op left right = onNumbers op left right := by
  obtain ⟨-, -, noTruth⟩ := Value.numeric_not numeric
  unfold onValues
  split
  · exact absurd rfl compares.1
  · exact absurd rfl compares.2
  · split
    · exact absurd rfl (noTruth _)
    · rfl

/-- The result of an operator on numeric values is that on the numbers they count as. -/
theorem outcome_numbers {op : BinaryOp} (compares : op ≠ .eq ∧ op ≠ .ne) {left right : Value}
    {a b : Number} (leftNumeric : left.isNumeric = true) (rightNumeric : right.isNumeric = true)
    (leftCounts : Number.ofValue left = .ok a) (rightCounts : Number.ofValue right = .ok b)
    (store : Store) :
    (binary op left right).outcome store =
      (Action.ofResult (Arithmetic.numbers op a b)).outcome store := by
  rw [binary_numeric op leftNumeric rightNumeric, onValues_numeric compares leftNumeric, onNumbers,
    Arithmetic.operands_numeric op.symbol leftNumeric rightNumeric, leftCounts, rightCounts]
  rfl

end Operation

/-- What fits into a width fits into a greater one. -/
theorem inBits_wider {narrow wide : Bool} {i : Int} (inRange : InBits (widthOf narrow) i)
    (wider : narrow = true → wide = true) : InBits (widthOf wide) i := by
  obtain ⟨lower, upper⟩ := inRange
  have half : (2 : Int) ^ (widthOf narrow - 1) ≤ 2 ^ (widthOf wide - 1) := by
    cases narrow with
    | false => cases wide <;> decide
    | true => rw [wider rfl]
  exact ⟨by omega, by omega⟩

/-- What fits into the width of one of two operands fits into that of both. -/
theorem inBits_left {wide : Bool} {i : Int} (inRange : InBits (widthOf wide) i) (other : Bool) :
    InBits (widthOf (wide || other)) i :=
  inBits_wider inRange fun isWide => by rw [isWide, Bool.true_or]

theorem inBits_right {wide : Bool} {i : Int} (inRange : InBits (widthOf wide) i) (other : Bool) :
    InBits (widthOf (other || wide)) i :=
  inBits_wider inRange fun isWide => by rw [isWide, Bool.or_true]

/-- An integer is a result that gets no mark. -/
theorem outcome_integerOf (wide : Bool) (i : Int) (store : Store) :
    (Action.ofResult (.ok (integerOf wide i))).outcome store = (.ok (integerOf wide i), store) := by
  cases wide <;> rfl

namespace WholeOperand

variable {value left right : Value} {wide wideLeft wideRight : Bool} {i a b : Int}

theorem numeric (h : WholeOperand value wide i) : value.isNumeric = true := by
  cases h <;> rfl

/-- The number that a whole operand counts as. -/
theorem counts (h : WholeOperand value wide i) :
    ∃ isLong, Number.ofValue value = .ok (.integer i isLong) ∧
      (Number.integer i isLong).isWide = wide := by
  cases h with
  | int => exact ⟨false, rfl, rfl⟩
  | long => exact ⟨true, rfl, rfl⟩
  | @char code isCode =>
    have fits : fitsInt (code : Int) = true := by
      simp only [fitsInt, Bool.and_eq_true, decide_eq_true_eq]
      omega
    exact ⟨false, rfl, by rw [Number.isWide, fits]; rfl⟩

/-- An integer of 32 or 64 bits is a whole operand of its width. -/
theorem ofInteger (h : InBits (widthOf wide) i) : WholeOperand (integerOf wide i) wide i := by
  cases wide with
  | false =>
    have short := WholeOperand.int i
    rw [fitsInt_of_inBits h] at short
    exact short
  | true => exact .long i

/-- **An arithmetic operator on whole operands is the one on integers.** The result is long as
soon as one of the operands is. -/
theorem outcome_integers (hl : WholeOperand left wideLeft a) (hr : WholeOperand right wideRight b)
    {op : BinaryOp} (isArithmetic : op ∈ arithmetic) (store : Store) :
    (Operation.binary op left right).outcome store =
      (Action.ofResult (Arithmetic.integers op a b (wideLeft || wideRight))).outcome store := by
  obtain ⟨isLong, leftCounts, leftWide⟩ := hl.counts
  obtain ⟨isLong', rightCounts, rightWide⟩ := hr.counts
  have promoted : Arithmetic.numbers op (.integer a isLong) (.integer b isLong') =
      Arithmetic.integers op a b (wideLeft || wideRight) := by
    rw [← leftWide, ← rightWide]
    simp only [arithmetic, List.mem_cons, List.not_mem_nil, or_false] at isArithmetic
    obtain rfl | rfl | rfl | rfl | rfl := isArithmetic <;> rfl
  rw [Operation.outcome_numbers (not_equality isArithmetic) hl.numeric hr.numeric leftCounts
    rightCounts, promoted]

/-- The sum, cut off to the width of the operands. -/
theorem outcome_add (hl : WholeOperand left wideLeft a) (hr : WholeOperand right wideRight b)
    (store : Store) : (Operation.binary .add left right).outcome store =
      (.ok (integerOf (wideLeft || wideRight) (wrap (a + b) (widthOf (wideLeft || wideRight)))),
        store) := by
  rw [hl.outcome_integers hr (by decide), Arithmetic.integers, integral_eq, outcome_integerOf]

/-- The product, cut off to the width of the operands. -/
theorem outcome_mul (hl : WholeOperand left wideLeft a) (hr : WholeOperand right wideRight b)
    (store : Store) : (Operation.binary .mul left right).outcome store =
      (.ok (integerOf (wideLeft || wideRight) (wrap (a * b) (widthOf (wideLeft || wideRight)))),
        store) := by
  rw [hl.outcome_integers hr (by decide), Arithmetic.integers, integral_eq, outcome_integerOf]

end WholeOperand

end Formulary
