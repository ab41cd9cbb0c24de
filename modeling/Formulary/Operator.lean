/-
The operators of the body language and the symbols that write them.
-/

namespace Formulary

/-- Operators on two operands that are both evaluated. -/
inductive BinaryOp where
  | add
  | sub
  | mul
  | div
  | rem
  | bitAnd
  | bitOr
  | bitXor
  | shiftLeft
  | shiftRight
  | shiftRightUnsigned
  | eq
  | ne
  | lt
  | gt
  | le
  | ge
deriving DecidableEq, Repr

namespace BinaryOp

def all : List BinaryOp :=
  [.add, .sub, .mul, .div, .rem, .bitAnd, .bitOr, .bitXor, .shiftLeft, .shiftRight,
    .shiftRightUnsigned, .eq, .ne, .lt, .gt, .le, .ge]

def symbol : BinaryOp → String
  | .add => "+"
  | .sub => "-"
  | .mul => "*"
  | .div => "/"
  | .rem => "%"
  | .bitAnd => "&"
  | .bitOr => "|"
  | .bitXor => "^"
  | .shiftLeft => "<<"
  | .shiftRight => ">>"
  | .shiftRightUnsigned => ">>>"
  | .eq => "=="
  | .ne => "!="
  | .lt => "<"
  | .gt => ">"
  | .le => "<="
  | .ge => ">="

def ofSymbol? (symbol : String) : Option BinaryOp :=
  all.find? fun op => op.symbol == symbol

end BinaryOp

/-- Operators whose right operand is evaluated only if it matters. -/
inductive LogicalOp where
  | and
  | or
deriving DecidableEq, Repr

def LogicalOp.symbol : LogicalOp → String
  | .and => "&&"
  | .or => "||"

/-- Operators on one operand. -/
inductive UnaryOp where
  | minus
  | plus
  | not
  | complement
deriving DecidableEq, Repr

namespace UnaryOp

def all : List UnaryOp := [.minus, .plus, .not, .complement]

def symbol : UnaryOp → String
  | .minus => "-"
  | .plus => "+"
  | .not => "!"
  | .complement => "~"

def ofSymbol? (symbol : String) : Option UnaryOp :=
  all.find? fun op => op.symbol == symbol

end UnaryOp

/-- The two step operators, written before or behind their target. -/
inductive StepOp where
  | increment
  | decrement
deriving DecidableEq, Repr

namespace StepOp

def symbol : StepOp → String
  | .increment => "++"
  | .decrement => "--"

/-- The operator that a step applies to its target and one. -/
def toBinary : StepOp → BinaryOp
  | .increment => .add
  | .decrement => .sub

end StepOp

end Formulary
