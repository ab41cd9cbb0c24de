/-
Operands that the host refuses.

An operator on numbers ends with a value or with an error of the language, with two exceptions.
An operand may count as no number: a character that is not one code point, or a fraction that no
double can hold. And beside a floating operand an integer has to be made a double, which fails
where it is too large.

* `Value.Uncounted`, `Unfit` — the operands that are refused, and what they are refused with.
* `Operation.onValues_refuses`, `Arithmetic.unary_refuses` — exactly those are refused.
* `Operation.numeric_answers` — all other operands get an answer.
-/

import Formulary.Proofs.Operands
import Formulary.Proofs.Overflow
import Formulary.Proofs.Unboxing

namespace Formulary

open Check (bind_error)

/-! ### Counting -/

/-- The numeric values that count as no number, and what counting them fails with: characters that
are not one code point, and fractions that no double can hold. -/
inductive Value.Uncounted : Value → HostFault → Prop
  | char {codes : Codes} (notOne : codes.length ≠ 1) : Uncounted (.char codes) .wrongType
  | fraction {q : Rat} (large : Double.overflow ≤ |q|) : Uncounted (.fraction q) .overflow

namespace Number

/-- A numeric value fails to be a number exactly where it counts as none. -/
theorem ofValue_refuses {value : Value} (numeric : value.isNumeric = true) (fault : HostFault) :
    ofValue value = .error (.host fault) ↔ value.Uncounted fault := by
  cases value with
  | int | long | double | single => constructor <;> intro h <;> cases h
  | char codes =>
    by_cases one : codes.length = 1
    · obtain ⟨code, rfl⟩ := List.length_eq_one_iff.mp one
      constructor
      · intro h
        cases h
      · intro uncounted
        cases uncounted with
        | char notOne => exact absurd rfl notOne
    · have refused : ofValue (.char codes) = .error (.host .wrongType) := by
        rcases codes with _ | ⟨code, _ | ⟨other, rest⟩⟩
        · rfl
        · exact absurd rfl one
        · rfl
      rw [refused]
      constructor
      · intro h
        cases h
        exact .char one
      · rintro ⟨⟩
        rfl
  | fraction q =>
    by_cases small : |q| < Double.overflow
    · have finite : (Double.ofRat false q).isFinite = true :=
        (Double.isFinite_ofRat_iff false q).mpr small
      constructor
      · simp [ofValue, finite]
      · intro uncounted
        cases uncounted with
        | fraction large => exact absurd small large.not_gt
    · have infinite : ¬(Double.ofRat false q).isFinite = true :=
        mt (Double.isFinite_ofRat_iff false q).mp small
      simp only [ofValue, if_neg infinite]
      constructor
      · intro h
        cases h
        exact .fraction (not_lt.mp small)
      · rintro ⟨⟩
        rfl
  | _ => cases numeric

/-- An integer that no double can hold. -/
def BeyondDoubles : Number → Prop
  | .integer i _ => Double.overflow ≤ |(i : Rat)|
  | .floating .. => False

theorem toDouble_refuses (number : Number) (fault : HostFault) :
    number.toDouble = .error (.host fault) ↔ fault = .overflow ∧ number.BeyondDoubles := by
  cases number with
  | integer i isLong =>
    have finite := Double.isFinite_ofRat_iff false (i : Rat)
    by_cases small : |(i : Rat)| < Double.overflow
    · rw [toDouble, Double.ofInt?, if_pos (finite.mpr small)]
      refine iff_of_false ?_ fun h => h.2.not_gt small
      intro h
      cases h
    · rw [toDouble, Double.ofInt?, if_neg (mt finite.mp small)]
      constructor
      · intro h
        cases h
        exact ⟨rfl, not_lt.mp small⟩
      · rintro ⟨rfl, -⟩
        rfl
  | floating x isSingle =>
    refine iff_of_false ?_ And.right
    cases isSingle <;> intro h <;> cases h

end Number

/-! ### Operators on numbers -/

/-- Two numbers of which one is floating and the other one is an integer that no double can
hold. -/
def Unpromotable (a b : Number) : Prop :=
  a.BeyondDoubles ∧ b.isFloating = true ∨ a.isFloating = true ∧ b.BeyondDoubles

namespace Arithmetic

theorem doubles_notHost (op : BinaryOp) (x y : Double) (fault : HostFault) :
    doubles op x y ≠ .error (.host fault) := by
  cases op <;> intro h <;> cases h

theorem integers_notHost (op : BinaryOp) (i j : Int) (wide : Bool) (fault : HostFault) :
    integers op i j wide ≠ .error (.host fault) := by
  intro h
  cases op with
  | div | rem =>
    rw [integers] at h
    split at h <;> cases h
  | _ => cases h

/-- Doubles are combined without a failure of the host, once the second operand is one. -/
theorem combined_refuses (op : BinaryOp) (x : Double) (b : Number) (single : Bool)
    (fault : HostFault) :
    (do let y ← b.toDouble; return floatingValue (← doubles op x y) single) =
      .error (.host fault) ↔ fault = .overflow ∧ b.BeyondDoubles := by
  rw [bind_error, Number.toDouble_refuses]
  refine or_iff_left ?_
  rintro ⟨y, -, refused⟩
  rw [bind_error] at refused
  obtain refused | ⟨_, _, refused⟩ := refused
  · exact doubles_notHost op x y fault refused
  · cases refused

/-- Beside a floating operand an integer has to be a double. -/
theorem promoted_refuses (op : BinaryOp) (a b : Number) (fault : HostFault) :
    promoted op a b = .error (.host fault) ↔ fault = .overflow ∧ Unpromotable a b := by
  -- Two integers need no double. Else the left number is made one first, and only one of the two
  -- can be an integer that is too large.
  cases a with
  | integer i isLong =>
    cases b with
    | integer j isLong' =>
      refine iff_of_false (integers_notHost op i j _ fault) ?_
      rintro ⟨-, ⟨-, floating⟩ | ⟨floating, -⟩⟩ <;> cases floating
    | floating y isSingle =>
      have onlyLeft : Unpromotable (.integer i isLong) (.floating y isSingle) ↔
          (Number.integer i isLong).BeyondDoubles := by
        constructor
        · rintro (⟨large, -⟩ | ⟨floating, -⟩)
          · exact large
          · cases floating
        · exact fun large => .inl ⟨large, rfl⟩
      rw [promoted, bind_error, Number.toDouble_refuses, onlyLeft]
      · refine or_iff_left ?_
        rintro ⟨x, -, refused⟩
        exact ((combined_refuses ..).mp refused).2
      · intro i' isLong' j' isLong'' _ isInteger
        cases isInteger
  | floating x isSingle =>
    have onlyRight : Unpromotable (.floating x isSingle) b ↔ b.BeyondDoubles := by
      constructor
      · rintro (⟨impossible, -⟩ | ⟨-, large⟩)
        · exact impossible.elim
        · exact large
      · exact fun large => .inr ⟨rfl, large⟩
    rw [promoted, bind_error, Number.toDouble_refuses, onlyRight]
    · constructor
      · rintro (⟨-, impossible⟩ | ⟨y, -, refused⟩)
        · exact impossible.elim
        · exact (combined_refuses ..).mp refused
      · intro large
        cases isSingle <;> exact .inr ⟨_, rfl, (combined_refuses ..).mpr large⟩
    · intro i isLong j isLong' isInteger
      cases isInteger

/-- The operators that do not ask for equality. -/
theorem numbers_refuses {op : BinaryOp} (compares : op ≠ .eq ∧ op ≠ .ne) (a b : Number)
    (fault : HostFault) :
    numbers op a b = .error (.host fault) ↔
      op ∈ arithmetic ∧ fault = .overflow ∧ Unpromotable a b := by
  cases op with
  | add | sub | mul | div | rem =>
    rw [and_iff_right (by decide), ← promoted_refuses]
    rfl
  | bitAnd | bitOr | bitXor | shiftLeft | shiftRight | shiftRightUnsigned =>
    refine iff_of_false ?_ fun h => absurd h.1 (by decide)
    cases a <;> cases b <;> intro h <;> cases h
  | lt | gt | le | ge =>
    refine iff_of_false ?_ fun h => absurd h.1 (by decide)
    intro h
    cases h
  | eq => exact absurd rfl compares.1
  | ne => exact absurd rfl compares.2

end Arithmetic

/-! ### Operators on values -/

/-- The operands of numeric kinds that an operator is refused on, and what it fails with: the left
one counts as no number, or else the right one does, or the two cannot be promoted. -/
inductive Unfit (op : BinaryOp) (left right : Value) : HostFault → Prop
  | left {fault : HostFault} (uncounted : left.Uncounted fault) : Unfit op left right fault
  | right {a : Number} {fault : HostFault} (counted : Number.ofValue left = .ok a)
      (uncounted : right.Uncounted fault) : Unfit op left right fault
  | promotion {a b : Number} (isArithmetic : op ∈ arithmetic)
      (leftCounts : Number.ofValue left = .ok a) (rightCounts : Number.ofValue right = .ok b)
      (unpromotable : Unpromotable a b) : Unfit op left right .overflow

namespace Operation

variable {op : BinaryOp} {left right : Value}

/-- What an operator does with the numbers that its operands count as. -/
def onCounted (op : BinaryOp) (a b : Number) : Except Fault Value :=
  match op with
  | .eq => .ok (.bool (a.compare? b == some .eq))
  | .ne => .ok (.bool !(a.compare? b == some .eq))
  | op => Arithmetic.numbers op a b

theorem onCounted_numbers (compares : op ≠ .eq ∧ op ≠ .ne) :
    onCounted op = Arithmetic.numbers op := by
  cases op with
  | eq => exact absurd rfl compares.1
  | ne => exact absurd rfl compares.2
  | _ => rfl

theorem equality_of (equality : ¬(op ≠ .eq ∧ op ≠ .ne)) : op = .eq ∨ op = .ne := by
  rwa [not_and_or, not_not, not_not] at equality

theorem onCounted_refuses (op : BinaryOp) (a b : Number) (fault : HostFault) :
    onCounted op a b = .error (.host fault) ↔
      op ∈ arithmetic ∧ fault = .overflow ∧ Unpromotable a b := by
  by_cases compares : op ≠ .eq ∧ op ≠ .ne
  · rw [onCounted_numbers compares, Arithmetic.numbers_refuses compares]
  · refine iff_of_false ?_ fun h => compares (not_equality h.1)
    obtain rfl | rfl := equality_of compares <;> intro h <;> cases h

/-- The equality of numeric values is that of the numbers they count as. -/
theorem sameValue_numeric (leftNumeric : left.isNumeric = true)
    (rightNumeric : right.isNumeric = true) :
    Store.sameValue left right = (do
      let a ← Number.ofValue left
      let b ← Number.ofValue right
      return a.compare? b == some .eq) := by
  unfold Store.sameValue
  split
  · cases leftNumeric
  · cases rightNumeric
  · cases leftNumeric
  · cases leftNumeric
  · cases rightNumeric
  · rw [leftNumeric, rightNumeric]
    rfl

/-- An operator on numeric values counts both of them, and goes on with the numbers. -/
theorem onValues_counts (op : BinaryOp) (leftNumeric : left.isNumeric = true)
    (rightNumeric : right.isNumeric = true) :
    onValues op left right = (do
      let a ← Number.ofValue left
      let b ← Number.ofValue right
      onCounted op a b) := by
  by_cases compares : op ≠ .eq ∧ op ≠ .ne
  · rw [onValues_numeric compares leftNumeric, onNumbers,
      Arithmetic.operands_numeric op.symbol leftNumeric rightNumeric, onCounted_numbers compares]
    simp only [bind_assoc, pure_bind]
  · obtain rfl | rfl := equality_of compares
    · simp only [onValues, sameValue_numeric leftNumeric rightNumeric, bind_assoc, pure_bind]
      rfl
    · simp only [onValues, sameValue_numeric leftNumeric rightNumeric, bind_assoc, pure_bind]
      rfl

/-- **The operands that an operator is refused on.** -/
theorem onValues_refuses (op : BinaryOp) (leftNumeric : left.isNumeric = true)
    (rightNumeric : right.isNumeric = true) (fault : HostFault) :
    onValues op left right = .error (.host fault) ↔ Unfit op left right fault := by
  simp only [onValues_counts op leftNumeric rightNumeric, bind_error,
    Number.ofValue_refuses leftNumeric, Number.ofValue_refuses rightNumeric, onCounted_refuses]
  constructor
  · rintro (uncounted | ⟨a, leftCounts, uncounted | ⟨b, rightCounts, isArithmetic, rfl, large⟩⟩)
    · exact .left uncounted
    · exact .right leftCounts uncounted
    · exact .promotion isArithmetic leftCounts rightCounts large
  · rintro (uncounted | ⟨leftCounts, uncounted⟩ | ⟨isArithmetic, leftCounts, rightCounts, large⟩)
    · exact .inl uncounted
    · exact .inr ⟨_, leftCounts, .inl uncounted⟩
    · exact .inr ⟨_, leftCounts, .inr ⟨_, rightCounts, isArithmetic, rfl, large⟩⟩

end Operation

/-- **The operands that an operator on one value is refused on.** -/
theorem Arithmetic.unary_refuses (op : UnaryOp) {value : Value} (numeric : value.isNumeric = true)
    (fault : HostFault) :
    unary op value = .error (.host fault) ↔ op ≠ .not ∧ value.Uncounted fault := by
  rw [← Number.ofValue_refuses numeric]
  cases op with
  | not =>
    refine iff_of_false ?_ fun h => h.1 rfl
    cases value <;> intro h <;> cases h
  | minus | plus | complement =>
    rw [and_iff_right (by decide), unary, bind_error]
    refine or_iff_left ?_
    rintro ⟨number, -, refused⟩
    cases number <;> cases refused

/-! ### Answers -/

/-- A result that the language knows: a value, or one of its own errors. -/
def Answers (result : Except Fault Value) : Prop :=
  (∃ value, result = .ok value) ∨ ∃ error, result = .error (.evaluation error)

theorem answers_iff {result : Except Fault Value} :
    Answers result ↔ ∀ fault, result ≠ .error (.host fault) := by
  rcases result with (error | fault) | value
  · exact iff_of_true (.inr ⟨error, rfl⟩) fun _ => nofun
  · refine iff_of_false ?_ fun none => none fault rfl
    rintro (⟨_, ⟨⟩⟩ | ⟨_, ⟨⟩⟩)
  · exact iff_of_true (.inl ⟨value, rfl⟩) fun _ => nofun

/-- How an operator ends that is refused for some faults: with an answer, or else with one of those
faults in the store that it has started in. -/
structure AnswersUnless (refused : HostFault → Prop) (store : Store)
    (ended : Except Fault Value × Store) : Prop where
  answers : Answers ended.1 ↔ ∀ fault, ¬refused fault
  refuses : ∀ fault, refused fault → ended = (.error (.host fault), store)

theorem AnswersUnless.ofResult {result : Except Fault Value} {refused : HostFault → Prop}
    (refuses : ∀ fault, result = .error (.host fault) ↔ refused fault) (store : Store) :
    AnswersUnless refused store ((Action.ofResult result).outcome store) := by
  constructor
  · have answers : Answers result ↔ ∀ fault, ¬refused fault := by
      rw [answers_iff]
      exact forall_congr' fun fault => not_congr (refuses fault)
    rw [← answers]
    cases result with
    | error fault => rfl
    | ok value =>
      obtain ⟨settled, behind, ended, -⟩ := Action.settle_ends value store
      have same : (Action.ofResult (.ok value)).outcome store = (.ok settled, behind) := ended
      rw [same]
      exact iff_of_true (.inl ⟨settled, rfl⟩) (.inl ⟨value, rfl⟩)
  · intro fault isRefused
    rw [(refuses fault).mpr isRefused]
    rfl

namespace Operation

variable {left right : Value}

/-- **Operators on numbers end with an answer,** a value or an error of the language, whatever the
numbers are, unless an operand counts as no number or an integer beside a floating one is too large
for a double. Those operands are refused by the host. -/
theorem numeric_answers (leftNumeric : left.isNumeric = true) (rightNumeric : right.isNumeric = true)
    (store : Store) :
    (∀ op, AnswersUnless (Unfit op left right) store ((binary op left right).outcome store)) ∧
    ∀ op, AnswersUnless (fun fault => op ≠ .not ∧ left.Uncounted fault) store
      ((unary op left).outcome store) := by
  constructor
  · intro op
    rw [binary_numeric op leftNumeric rightNumeric]
    exact .ofResult (onValues_refuses op leftNumeric rightNumeric) store
  · intro op
    exact .ofResult (Arithmetic.unary_refuses op leftNumeric) store

/-- An integer that no double can hold and a letter: every operator has an answer. -/
theorem hugeInteger_answers :
    (Value.int (10 ^ 309)).isNumeric = true ∧ (Value.char [65]).isNumeric = true ∧
      (∀ op, Answers ((binary op (.int (10 ^ 309)) (.char [65])).outcome Store.initial).1) ∧
      ∀ op, Answers ((unary op (.int (10 ^ 309))).outcome Store.initial).1 := by
  have leftNumeric : (Value.int (10 ^ 309)).isNumeric = true := rfl
  have rightNumeric : (Value.char [65]).isNumeric = true := rfl
  obtain ⟨binaries, unaries⟩ := numeric_answers leftNumeric rightNumeric Store.initial
  refine ⟨leftNumeric, rightNumeric, fun op => (binaries op).answers.mpr ?_,
    fun op => (unaries op).answers.mpr fun _ => nofun⟩
  intro fault unfit
  cases unfit with
  | left uncounted => cases uncounted
  | right _ uncounted =>
    cases uncounted with
    | char notOne => exact notOne rfl
  | promotion _ leftCounts rightCounts large =>
    cases leftCounts
    cases rightCounts
    obtain ⟨-, floating⟩ | ⟨floating, -⟩ := large <;> cases floating

/-- Beside a double the same integer is refused, and so is a character of two code points. -/
theorem hugeInteger_refused :
    (Value.int (10 ^ 309)).isNumeric = true ∧
      (Value.double (.ofRat false 1)).isNumeric = true ∧ (Value.char [39, 55]).isNumeric = true ∧
      (binary .add (.int (10 ^ 309)) (.double (.ofRat false 1))).outcome Store.initial =
        (.error (.host .overflow), Store.initial) ∧
      (unary .minus (.char [39, 55])).outcome Store.initial =
        (.error (.host .wrongType), Store.initial) := by
  have refused : onValues .add (.int (10 ^ 309)) (.double (.ofRat false 1)) =
      .error (.host .overflow) := by decide +kernel
  refine ⟨rfl, rfl, rfl, ?_, rfl⟩
  change (Action.ofResult (onValues .add (.int (10 ^ 309)) (.double (.ofRat false 1)))).outcome
    Store.initial = _
  rw [refused]
  rfl

end Operation

end Formulary
