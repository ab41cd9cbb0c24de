/-
Operators on values.

A sum with a string is the joined text of both operands. Equality looks at values
and identities, the bitwise operators take truth values as well as integers, and
everything else takes numbers.
-/

import Formulary.Host.Call

namespace Formulary.Operation

/-- The result of a bitwise operator on truth values, if it is one. -/
def truths? (op : BinaryOp) (a b : Bool) : Option Bool :=
  match op with
  | .bitAnd => some (a && b)
  | .bitOr => some (a || b)
  | .bitXor => some (a != b)
  | _ => none

/-- The result of an operator that takes numbers. -/
def onNumbers (op : BinaryOp) (left right : Value) : Except Fault Value := do
  let (a, b) ← Arithmetic.operands op.symbol left right
  Arithmetic.numbers op a b

/-- The result of an operator on operands that are not joined as texts. -/
def onValues (op : BinaryOp) (left right : Value) : Except Fault Value :=
  match op with
  | .eq => do return .bool (← Store.sameValue left right)
  | .ne => do return .bool !(← Store.sameValue left right)
  | op =>
    match left, right with
    | .bool a, .bool b =>
      match truths? op a b with
      | some result => .ok (.bool result)
      | none => onNumbers op left right
    | _, _ => onNumbers op left right

/-- The result of a binary operator. -/
def binary (op : BinaryOp) (left right : Value) : Action Value := do
  if op = .add && (left.isString || right.isString) then
    let front ← Display.text left
    return .str (front ++ (← Display.text right))
  else Action.ofResult (onValues op left right)

/-- The result of a unary operator. -/
def unary (op : UnaryOp) (value : Value) : Action Value :=
  Action.ofResult (Arithmetic.unary op value)

/-- The result of the binary operator that a symbol writes. A symbol without an
operator is refused once the operands have turned out to be numbers. -/
def binaryBySymbol (symbol : String) (left right : Value) : Action Value :=
  match BinaryOp.ofSymbol? symbol with
  | some op => binary op left right
  | none =>
    Action.ofExcept do
      let (a, b) ← Arithmetic.operands symbol left right
      if a.isFloating || b.isFloating then
        let _ ← a.toDouble
        let _ ← b.toDouble
      throw (.evaluation (.unsupportedOperator symbol))

/-- The result of the unary operator that a symbol writes. -/
def unaryBySymbol (symbol : String) (value : Value) : Action Value :=
  match UnaryOp.ofSymbol? symbol with
  | some op => unary op value
  | none =>
    Action.ofExcept do
      let _ ← Number.ofValue value
      throw (.evaluation (.unknownUnary symbol))

end Formulary.Operation
