/-
Integers cut off at every step.

The lowest bits of a sum, a difference, a product and of what is combined bit by bit depend on
the lowest bits of the operands only. So an expression over such operators comes to the same
whether every intermediate result is cut off to the width of its operands or only the exact
result is.

* `lowOrder_residue` — the lowest bits of what is combined bit by bit.
* `LowOrderOp.wrap_wrapped`, `wrap_neg`, `wrap_lnot` — operands that have been cut off before.
* `LowOrderOp.outcome_binary`, `outcome_minus`, `outcome_complement` — one step.
* `LowOrderExpr.evaluate_wrapped` — expressions of any size.
-/

import Formulary.Operation
import Formulary.Proofs.Unboxing

namespace Formulary

/-! ### The lowest bits -/

/-- The lowest bits of an integer in two's complement. -/
def residue (bits : Nat) (i : Int) : Nat :=
  (i % (2 ^ bits : Nat)).toNat

theorem residue_cast (bits : Nat) (i : Int) : (residue bits i : Int) = i % (2 ^ bits : Nat) :=
  Int.toNat_of_nonneg (Int.emod_nonneg _ (by positivity))

theorem testBit_residue (bits : Nat) (i : Int) (k : Nat) :
    (residue bits i).testBit k = (decide (k < bits) && i.testBit k) := by
  cases i with
  | ofNat n =>
    have same : residue bits (.ofNat n) = n % 2 ^ bits := by
      rw [residue, Int.ofNat_eq_natCast, ← Int.natCast_emod, Int.toNat_natCast]
    rw [same, Nat.testBit_mod_two_pow]
    rfl
  | negSucc n =>
    have small : n % 2 ^ bits < 2 ^ bits := Nat.mod_lt _ (Nat.two_pow_pos bits)
    have same : residue bits (.negSucc n) = 2 ^ bits - (n % 2 ^ bits + 1) := by
      rw [residue, Int.negSucc_emod _ (by exact_mod_cast Nat.two_pow_pos bits),
        ← Int.natCast_emod]
      omega
    rw [same, Nat.testBit_two_pow_sub_succ small, Nat.testBit_mod_two_pow]
    cases below : decide (k < bits) with
    | false => rfl
    | true => rfl

/-- The lowest bits of what two integers are combined to bit by bit. -/
theorem lowOrder_residue {ofBits : Bool → Bool → Bool} {ofNats : Nat → Nat → Nat}
    {ofInts : Int → Int → Int} (zero : ofBits false false = false)
    (nats : ∀ m n k, (ofNats m n).testBit k = ofBits (m.testBit k) (n.testBit k))
    (ints : ∀ a b k, (ofInts a b).testBit k = ofBits (a.testBit k) (b.testBit k))
    (bits : Nat) (a b : Int) :
    residue bits (ofInts a b) = ofNats (residue bits a) (residue bits b) := by
  refine Nat.eq_of_testBit_eq fun k => ?_
  rw [nats, testBit_residue, testBit_residue, testBit_residue, ints]
  cases below : decide (k < bits) with
  | false => simp [zero]
  | true => simp

theorem land_residue (bits : Nat) (a b : Int) :
    residue bits (a.land b) = residue bits a &&& residue bits b :=
  lowOrder_residue rfl Nat.testBit_and Int.testBit_land bits a b

theorem lor_residue (bits : Nat) (a b : Int) :
    residue bits (a.lor b) = residue bits a ||| residue bits b :=
  lowOrder_residue rfl Nat.testBit_or Int.testBit_lor bits a b

theorem xor_residue (bits : Nat) (a b : Int) :
    residue bits (a.xor b) = residue bits a ^^^ residue bits b :=
  lowOrder_residue rfl Nat.testBit_xor Int.testBit_lxor bits a b

/-! ### Operators -/

/-- An operator on two integers that keeps its lowest bits whatever the higher ones of its
operands are. -/
inductive LowOrderOp where
  | add
  | sub
  | mul
  | bitAnd
  | bitOr
  | bitXor
deriving DecidableEq, Repr

namespace LowOrderOp

/-- The operator of the body language. -/
def toBinary : LowOrderOp → BinaryOp
  | .add => .add
  | .sub => .sub
  | .mul => .mul
  | .bitAnd => .bitAnd
  | .bitOr => .bitOr
  | .bitXor => .bitXor

/-- The exact result; what is combined bit by bit is so in two's complement. -/
def exactly : LowOrderOp → Int → Int → Int
  | .add, a, b => a + b
  | .sub, a, b => a - b
  | .mul, a, b => a * b
  | .bitAnd, a, b => a.land b
  | .bitOr, a, b => a.lor b
  | .bitXor, a, b => a.xor b

end LowOrderOp

theorem wrap_eq_bmod (i : Int) (bits : Nat) : wrap i bits = i.bmod (2 ^ bits) := by
  rw [wrap, Nat.one_shiftLeft]

theorem wrap_modEq (i : Int) (bits : Nat) : wrap i bits ≡ i [ZMOD (2 ^ bits : Nat)] := by
  rw [wrap_eq_bmod]
  exact Int.bmod_emod

/-- Integers that agree in their lowest bits are cut off to the same. -/
theorem wrap_congr {a b : Int} {bits : Nat} (same : a ≡ b [ZMOD (2 ^ bits : Nat)]) :
    wrap a bits = wrap b bits := by
  rw [wrap_eq_bmod, wrap_eq_bmod, ← Int.emod_bmod a, same, Int.emod_bmod]

theorem wrap_residue (i : Int) (bits : Nat) : wrap (residue bits i) bits = wrap i bits := by
  refine wrap_congr ?_
  rw [residue_cast]
  exact Int.mod_modEq _ _

theorem residue_wrap (i : Int) (bits : Nat) : residue bits (wrap i bits) = residue bits i := by
  rw [residue, wrap_modEq i bits, residue]

theorem wrap_neg (i : Int) (bits : Nat) : wrap (-wrap i bits) bits = wrap (-i) bits :=
  wrap_congr (wrap_modEq i bits).neg

theorem lnot_eq (i : Int) : i.lnot = -i - 1 := by
  cases i with
  | ofNat n =>
    rw [Int.lnot, Int.negSucc_eq, Int.ofNat_eq_natCast]
    omega
  | negSucc n =>
    rw [Int.lnot, Int.negSucc_eq]
    omega

theorem wrap_lnot (i : Int) (bits : Nat) :
    wrap (-wrap i bits - 1) bits = wrap i.lnot bits := by
  rw [lnot_eq]
  exact wrap_congr ((wrap_modEq i bits).neg.sub_right 1)

namespace LowOrderOp

/-- Operands that have been cut off before make no difference to a result that is cut off. -/
theorem wrap_wrapped (op : LowOrderOp) (a b : Int) (bits : Nat) :
    wrap (op.exactly (wrap a bits) (wrap b bits)) bits = wrap (op.exactly a b) bits := by
  have left := wrap_modEq a bits
  have right := wrap_modEq b bits
  have bitwise {ofNats : Nat → Nat → Nat}
      (residues : ∀ a b, residue bits (op.exactly a b) = ofNats (residue bits a) (residue bits b)) :
      wrap (op.exactly (wrap a bits) (wrap b bits)) bits = wrap (op.exactly a b) bits := by
    rw [← wrap_residue, residues, residue_wrap, residue_wrap, ← residues, wrap_residue]
  cases op with
  | add => exact wrap_congr (left.add right)
  | sub => exact wrap_congr (left.sub right)
  | mul => exact wrap_congr (left.mul right)
  | bitAnd => exact bitwise (land_residue bits)
  | bitOr => exact bitwise (lor_residue bits)
  | bitXor => exact bitwise (xor_residue bits)

end LowOrderOp

/-! ### Steps -/

/-- The number of bits of an integer, which is long if `wide` holds. -/
def widthOf (wide : Bool) : Nat := if wide then 64 else 32

/-- An integer as a value, which is long if `wide` holds. -/
def integerOf (wide : Bool) (i : Int) : Value := if wide then .long i else .int i

theorem widthOf_pos (wide : Bool) : 0 < widthOf wide := by
  cases wide <;> decide

theorem integral_eq (i : Int) (wide : Bool) :
    integral i wide = integerOf wide (wrap i (widthOf wide)) := by
  cases wide <;> simp [integral, integerOf, widthOf]

theorem ofValue_integerOf (wide : Bool) (i : Int) :
    Number.ofValue (integerOf wide i) = .ok (.integer i wide) := by
  cases wide <;> rfl

theorem fitsInt_of_inBits {i : Int} (h : InBits 32 i) : fitsInt i = true := by
  obtain ⟨lower, upper⟩ := h
  simp only [fitsInt, Bool.and_eq_true, decide_eq_true_eq]
  omega

/-- An integer takes 64 bits only if it is long. -/
theorem isWide_of_inBits {wide : Bool} {i : Int} (h : InBits (widthOf wide) i) :
    (Number.integer i wide).isWide = wide := by
  cases wide with
  | false => simp [Number.isWide, fitsInt_of_inBits h]
  | true => rfl

/-- What is combined bit by bit is made of the lowest bits of the operands. -/
theorem bitwise_eq (ofNats : Nat → Nat → Nat) (bits : Nat) (a b : Int) :
    bitwise ofNats bits a b = wrap (ofNats (residue bits a) (residue bits b)) bits := by
  simp only [bitwise, residue, Nat.one_shiftLeft]

theorem wrap_wrap (i : Int) (bits : Nat) : wrap (wrap i bits) bits = wrap i bits :=
  wrap_congr (wrap_modEq i bits)

namespace LowOrderOp

/-- The result of an operator on integers of a width is the exact one, cut off. -/
theorem numbers_integers (op : LowOrderOp) {wide : Bool} {a b : Int}
    (left : InBits (widthOf wide) a) (right : InBits (widthOf wide) b) :
    Arithmetic.numbers op.toBinary (.integer a wide) (.integer b wide) =
      .ok (integerOf wide (wrap (op.exactly a b) (widthOf wide))) := by
  have widths : ((Number.integer a wide).isWide || (Number.integer b wide).isWide) = wide := by
    rw [isWide_of_inBits left, isWide_of_inBits right, Bool.or_self]
  have bitwise {ofNats : Nat → Nat → Nat}
      (residues : residue (widthOf wide) (op.exactly a b) =
        ofNats (residue (widthOf wide) a) (residue (widthOf wide) b)) :
      integral (Formulary.bitwise ofNats (widthOf wide) a b) wide =
        integerOf wide (wrap (op.exactly a b) (widthOf wide)) := by
    rw [integral_eq, bitwise_eq, wrap_wrap, ← residues, wrap_residue]
  cases op with
  | add | sub | mul =>
    simp only [toBinary, Arithmetic.numbers, Arithmetic.promoted, Arithmetic.integers, widths,
      integral_eq, exactly]
  | bitAnd =>
    simp only [toBinary, Arithmetic.numbers, widths]
    exact congrArg Except.ok (bitwise (land_residue _ a b))
  | bitOr =>
    simp only [toBinary, Arithmetic.numbers, widths]
    exact congrArg Except.ok (bitwise (lor_residue _ a b))
  | bitXor =>
    simp only [toBinary, Arithmetic.numbers, widths]
    exact congrArg Except.ok (bitwise (xor_residue _ a b))

/-- **One step with two operands.** -/
theorem outcome_binary (op : LowOrderOp) {wide : Bool} {a b : Int}
    (left : InBits (widthOf wide) a) (right : InBits (widthOf wide) b) (store : Store) :
    (Operation.binary op.toBinary (integerOf wide a) (integerOf wide b)).outcome store =
      (.ok (integerOf wide (wrap (op.exactly a b) (widthOf wide))), store) := by
  have result : Operation.onValues op.toBinary (integerOf wide a) (integerOf wide b) =
      .ok (integerOf wide (wrap (op.exactly a b) (widthOf wide))) := by
    rw [← op.numbers_integers left right]
    cases op <;> cases wide <;> rfl
  have noText : ((integerOf wide a).isString || (integerOf wide b).isString) = false := by
    cases wide <;> rfl
  rw [Operation.binary, noText, Bool.and_false, if_neg Bool.false_ne_true, result]
  cases wide <;> rfl

end LowOrderOp

/-- **One step with one operand:** the opposite number. -/
theorem outcome_minus {wide : Bool} {i : Int} (h : InBits (widthOf wide) i) (store : Store) :
    (Operation.unary .minus (integerOf wide i)).outcome store =
      (.ok (integerOf wide (wrap (-i) (widthOf wide))), store) := by
  have result : Arithmetic.unary .minus (integerOf wide i) =
      .ok (integerOf wide (wrap (-i) (widthOf wide))) := by
    have width : (wide || (!fitsInt i && !fitsInt (-i))) = wide := by
      cases wide with
      | false => simp [fitsInt_of_inBits h]
      | true => rfl
    rw [Arithmetic.unary, ofValue_integerOf]
    change Except.ok (integral (-i) (wide || (!fitsInt i && !fitsInt (-i)))) = _
    rw [width, integral_eq]
  rw [Operation.unary, result]
  cases wide <;> rfl

/-- **One step with one operand:** the number with all its bits changed. -/
theorem outcome_complement {wide : Bool} {i : Int} (h : InBits (widthOf wide) i) (store : Store) :
    (Operation.unary .complement (integerOf wide i)).outcome store =
      (.ok (integerOf wide (wrap i.lnot (widthOf wide))), store) := by
  have result : Arithmetic.unary .complement (integerOf wide i) =
      .ok (integerOf wide (wrap i.lnot (widthOf wide))) := by
    rw [Arithmetic.unary, ofValue_integerOf]
    change Except.ok (integral (-i - 1) (Number.integer i wide).isWide) = _
    rw [isWide_of_inBits h, integral_eq, lnot_eq]
  rw [Operation.unary, result]
  cases wide <;> rfl

/-! ### Expressions -/

/-- An expression over integers, of operators that keep their lowest bits whatever the higher
ones of their operands are. -/
inductive LowOrderExpr where
  | leaf (i : Int)
  | binary (op : LowOrderOp) (left right : LowOrderExpr)
  | minus (operand : LowOrderExpr)
  | complement (operand : LowOrderExpr)

namespace LowOrderExpr

/-- The integers of an expression. -/
def leaves : LowOrderExpr → List Int
  | .leaf i => [i]
  | .binary _ left right => left.leaves ++ right.leaves
  | .minus operand => operand.leaves
  | .complement operand => operand.leaves

/-- The exact value of an expression, in two's complement where bits are combined. -/
def exactly : LowOrderExpr → Int
  | .leaf i => i
  | .binary op left right => op.exactly left.exactly right.exactly
  | .minus operand => -operand.exactly
  | .complement operand => operand.exactly.lnot

/-- Evaluates an expression step by step, its integers as values of a kind. -/
def evaluate (value : Int → Value) : LowOrderExpr → Action Value
  | .leaf i => pure (value i)
  | .binary op left right => do
    let a ← left.evaluate value
    let b ← right.evaluate value
    Operation.binary op.toBinary a b
  | .minus operand => do Operation.unary .minus (← operand.evaluate value)
  | .complement operand => do Operation.unary .complement (← operand.evaluate value)

/-- The value of an expression is the exact one, cut off. -/
theorem evaluate_integerOf (wide : Bool) (e : LowOrderExpr)
    (inRange : ∀ i ∈ e.leaves, InBits (widthOf wide) i) (store : Store) :
    (e.evaluate (integerOf wide)).outcome store =
      (.ok (integerOf wide (wrap e.exactly (widthOf wide))), store) := by
  have fits (i : Int) : InBits (widthOf wide) (wrap i (widthOf wide)) :=
    wrap_inBits i (widthOf_pos wide)
  induction e with
  | leaf i =>
    rw [exactly, wrap_same (widthOf_pos wide) (inRange i List.mem_cons_self)]
    rfl
  | binary op left right ihLeft ihRight =>
    have fromLeft := ihLeft fun i isIn => inRange i (List.mem_append_left _ isIn)
    have fromRight := ihRight fun i isIn => inRange i (List.mem_append_right _ isIn)
    rw [evaluate, Action.outcome_bind, fromLeft]
    dsimp only
    rw [Action.outcome_bind, fromRight]
    dsimp only
    rw [op.outcome_binary (fits _) (fits _), op.wrap_wrapped, exactly]
  | minus operand ih =>
    rw [evaluate, Action.outcome_bind, ih inRange]
    dsimp only
    rw [outcome_minus (fits _), wrap_neg, exactly]
  | complement operand ih =>
    rw [evaluate, Action.outcome_bind, ih inRange]
    dsimp only
    rw [outcome_complement (fits _), lnot_eq, wrap_lnot, exactly]

/-- An integer of some bits that agrees with an integer in all of them. -/
structure CutOff (bits : Nat) (i r : Int) : Prop where
  inBits : InBits bits r
  agrees : r ≡ i [ZMOD (2 ^ bits : Nat)]

/-- **Cutting off at every step is cutting off once.** An expression over integers of 32 bits
comes to the one integer of 32 bits that agrees with its exact value in all of them, and an
expression over long integers to the one of 64 bits. -/
theorem evaluate_wrapped (e : LowOrderExpr) (store : Store) :
    ((∀ i ∈ e.leaves, InBits 32 i) → ∃ r, CutOff 32 e.exactly r ∧
      (e.evaluate .int).outcome store = (.ok (.int r), store)) ∧
    ((∀ i ∈ e.leaves, InBits 64 i) → ∃ r, CutOff 64 e.exactly r ∧
      (e.evaluate .long).outcome store = (.ok (.long r), store)) := by
  constructor
  · intro inRange
    exact ⟨wrap e.exactly 32, ⟨wrap_inBits _ (by decide), wrap_modEq _ 32⟩,
      e.evaluate_integerOf false inRange store⟩
  · intro inRange
    exact ⟨wrap e.exactly 64, ⟨wrap_inBits _ (by decide), wrap_modEq _ 64⟩,
      e.evaluate_integerOf true inRange store⟩

/-- The product and the difference of this expression are out of range, and the bits of two
negative numbers are combined. -/
def outOfRange : LowOrderExpr :=
  .minus (.binary .bitXor (.binary .mul (.leaf (-2147483648)) (.leaf 3))
    (.complement (.binary .sub (.leaf (-2147483648)) (.leaf 5))))

/-- It is cut off to its lowest 32 bits, and as an expression over long integers it stays as it
is. -/
theorem outOfRange_wrapped :
    (∀ i ∈ outOfRange.leaves, InBits 32 i ∧ InBits 64 i) ∧ outOfRange.exactly = 8589934588 ∧
      (∃ r, CutOff 32 8589934588 r ∧
        (outOfRange.evaluate .int).outcome Store.initial = (.ok (.int r), Store.initial)) ∧
      ∃ r, CutOff 64 8589934588 r ∧
        (outOfRange.evaluate .long).outcome Store.initial = (.ok (.long r), Store.initial) := by
  have value : outOfRange.exactly = 8589934588 := by decide +kernel
  have leaves : ∀ i ∈ outOfRange.leaves, InBits 32 i ∧ InBits 64 i := by
    simp [outOfRange, LowOrderExpr.leaves, InBits]
  obtain ⟨short, long⟩ := outOfRange.evaluate_wrapped Store.initial
  rw [value] at short long
  exact ⟨leaves, value, short fun i isIn => (leaves i isIn).1, long fun i isIn => (leaves i isIn).2⟩

end LowOrderExpr

end Formulary
