/-
Operators on numbers.

Beside a floating operand both operands are floating, and the result is single
unless one of them is a double. Integers are combined in 64 bits if one of them
takes 64, else in 32; a shift looks at its left operand only. Quotients of
integers are cut off toward zero and remainders have the sign of the dividend.
-/

import Formulary.Number.Numeral
import Formulary.Operator

namespace Formulary.Arithmetic

/-! ### Integers -/

/-- The result of an arithmetic operator on integers. -/
def integers (op : BinaryOp) (a b : Int) (wide : Bool) : Except Fault Value :=
  match op with
  | .add => .ok (integral (a + b) wide)
  | .sub => .ok (integral (a - b) wide)
  | .mul => .ok (integral (a * b) wide)
  | .div =>
    if b = 0 then .error (.evaluation .divisionByZero)
    else .ok (integral (a.tdiv b) wide)
  | .rem =>
    if b = 0 then .error (.evaluation .divisionByZero)
    else .ok (integral (a.tmod b) wide)
  | op => .error (.evaluation (.unsupportedOperator op.symbol))

/-- The bits that an operator keeps of two numbers, bit by bit. -/
def bits (op : BinaryOp) (a b : Int) (wide : Bool) : Value :=
  let width : Nat := if wide then 64 else 32
  let combine : Nat → Nat → Nat :=
    match op with
    | .bitAnd => (· &&& ·)
    | .bitOr => (· ||| ·)
    | _ => (· ^^^ ·)
  integral (bitwise combine width a b) wide

/-- Shifts by the count modulo the width of the left operand. -/
def shift (op : BinaryOp) (a count : Int) (wide : Bool) : Value :=
  let width : Nat := if wide then 64 else 32
  let factor : Nat := 1 <<< (count % (width : Int)).toNat
  match op with
  | .shiftLeft => integral (a * factor) wide
  | .shiftRight => integral (a / factor) wide
  | _ => integral (a % (1 <<< width : Nat) / factor) wide

/-! ### Floating numbers -/

/-- Quotients; the quotient of zero by zero is the constant that is no number. -/
def quotient (a b : Double) : Double :=
  if b.isZero && (a.isZero || a.isNaN) then .notANumber else a.div b

/-- Remainders; where there is none, the constant that is no number. -/
def remainder (a b : Double) : Double :=
  (a.rem? b).getD .notANumber

/-- The result of an arithmetic operator on doubles. -/
def doubles (op : BinaryOp) (a b : Double) : Except Fault Double :=
  match op with
  | .add => .ok (a.add b)
  | .sub => .ok (a.sub b)
  | .mul => .ok (a.mul b)
  | .div => .ok (quotient a b)
  | .rem => .ok (remainder a b)
  | op => .error (.evaluation (.unsupportedOperator op.symbol))

/-! ### Both -/

/-- Whether numbers stand in the order that a comparison asks for. -/
def ordered (op : BinaryOp) (order : Option Ordering) : Bool :=
  match op with
  | .lt => order == some .lt
  | .gt => order == some .gt
  | .le => order == some .lt || order == some .eq
  | _ => order == some .gt || order == some .eq

/-- The result of an operator that promotes its operands. -/
def promoted (op : BinaryOp) (a b : Number) : Except Fault Value :=
  match a, b with
  | .integer i _, .integer j _ => integers op i j (a.isWide || b.isWide)
  | _, _ => do
    let x ← a.toDouble
    let y ← b.toDouble
    return floatingValue (← doubles op x y) !(a.isDouble || b.isDouble)

/-- The result of an operator on two numbers. -/
def numbers (op : BinaryOp) (a b : Number) : Except Fault Value :=
  match op with
  | .lt | .gt | .le | .ge => .ok (.bool (ordered op (a.compare? b)))
  | .bitAnd | .bitOr | .bitXor =>
    match a, b with
    | .integer i _, .integer j _ => .ok (bits op i j (a.isWide || b.isWide))
    | _, _ => .error (.evaluation (.badOperands op.symbol))
  | .shiftLeft | .shiftRight | .shiftRightUnsigned =>
    match a, b with
    | .integer i _, .integer j _ => .ok (shift op i j a.isWide)
    | _, _ => .error (.evaluation (.badOperands op.symbol))
  | op => promoted op a b

/-- The numbers that the operands of an operator count as. -/
def operands (symbol : String) (left right : Value) :
    Except Fault (Number × Number) := do
  if left = .null || right = .null then
    throw (.evaluation (.nullOperand symbol))
  if !left.isNumeric || !right.isNumeric then
    throw (.evaluation (.badOperandTypes symbol left.typeName right.typeName))
  return (← Number.ofValue left, ← Number.ofValue right)

/-! ### One operand -/

/-- The truth value that a condition has to be. -/
def truth : Value → Except Fault Bool
  | .bool b => .ok b
  | .null => .error (.evaluation .nullNumber)
  | value => .error (.evaluation (.notBoolean value.typeName))

/-- The number of the opposite sign. The magnitude of the least `int` is no `int`
but still counts as one here. -/
def negate : Number → Value
  | .integer i isLong => integral (-i) (isLong || (!fitsInt i && !fitsInt (-i)))
  | .floating x isSingle => floatingValue x.neg isSingle

/-- The number with all bits changed. -/
def complement : Number → Except Fault Value
  | .integer i isLong => .ok (integral (-i - 1) (Number.integer i isLong).isWide)
  | .floating .. => .error (.evaluation .badComplement)

/-- The result of a unary operator. -/
def unary (op : UnaryOp) (value : Value) : Except Fault Value :=
  match op with
  | .not => do return .bool !(← truth value)
  | .minus => do return negate (← Number.ofValue value)
  | .plus => do return (← Number.ofValue value).toValue
  | .complement => do complement (← Number.ofValue value)

/-! ### Other operations -/

/-- The greater or the smaller of two numbers, the left one where they are
equal. -/
def extremum (larger : Bool) (left right : Value) : Except Fault Value := do
  let a ← Number.ofValue left
  let b ← Number.ofValue right
  let takeRight : Option Ordering → Bool := fun order =>
    order == some (if larger then .lt else .gt)
  match a, b with
  | .integer i _, .integer j _ =>
    return integral (if takeRight (some (compare i j)) then j else i)
      (a.isWide || b.isWide)
  | _, _ =>
    let x ← a.toDouble
    let y ← b.toDouble
    let single := !(a.isDouble || b.isDouble)
    if x.isNaN || y.isNaN then return floatingValue .notANumber single
    else return floatingValue (if takeRight (x.compare? y) then y else x) single

/-- The integer of `bits` bits that a double is cut off to: nothing counts as
zero, and what is out of range as the nearest `int` or `long`. -/
def toIntegral (x : Double) (bits : Nat) : Int :=
  let target := if bits = 64 then 64 else 32
  let bound : Nat := 1 <<< (target - 1)
  let result :=
    match x.toRat? with
    | some q => clamp (Double.truncate q) target
    | none =>
      if x.isNaN then 0
      else if x.isNegative then -bound else bound - 1
  if x.isNaN then 0 else if bits < 32 then wrap result bits else result

end Formulary.Arithmetic
