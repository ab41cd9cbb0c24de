/-
Numbers as operands.

A `Number` is what a numeric value counts as in an operation: an integer, which
may be long, or a floating number, which may be single. Characters count as their
codes and fractions as the nearest doubles. Comparisons are exact, whatever the
kinds of the two numbers.
-/

import Formulary.Fault
import Formulary.Number.Integer

namespace Formulary

/-- A number as an operand. -/
inductive Number where
  | integer (i : Int) (isLong : Bool)
  | floating (x : Double) (isSingle : Bool)
deriving DecidableEq, Repr

/-- An integer of 64 bits if `wide` holds, else of 32 bits. -/
def integral (i : Int) (wide : Bool) : Value :=
  if wide then .long (wrap i 64) else .int (wrap i 32)

/-- A floating number, rounded to single precision if `single` holds. -/
def floatingValue (x : Double) (single : Bool) : Value :=
  if single then .single x.toSingle else .double x

namespace Number

/-- The number that a value counts as. -/
def ofValue : Value → Except Fault Number
  | .null => .error (.evaluation .nullNumber)
  | .bool _ => .error (.evaluation .booleanAsNumber)
  | .int i => .ok (.integer i false)
  | .long i => .ok (.integer i true)
  | .double x => .ok (.floating x false)
  | .single x => .ok (.floating x true)
  | .char [code] => .ok (.integer code false)
  | .char _ => .error .wrongType
  | .fraction q =>
    let x := Double.ofRat false q
    if x.isFinite then .ok (.floating x false) else .error (.host .overflow)
  | value => .error (.evaluation (.notNumber value.typeName))

/-- A number as a value of its own kind. -/
def toValue : Number → Value
  | .integer i false => .int i
  | .integer i true => .long i
  | .floating x false => .double x
  | .floating x true => .single x

def isFloating : Number → Bool
  | .integer .. => false
  | .floating .. => true

/-- Whether a number is a floating one of double precision. -/
def isDouble : Number → Bool
  | .floating _ false => true
  | _ => false

/-- Whether an integer takes 64 bits: it is long, or it does not fit into 32. -/
def isWide : Number → Bool
  | .integer i isLong => isLong || !fitsInt i
  | .floating .. => false

/-- The double that a number counts as beside a floating operand. -/
def toDouble : Number → Except Fault Double
  | .integer i _ =>
    match Double.ofInt? i with
    | some x => .ok x
    | none => .error (.host .overflow)
  | .floating x false => .ok x
  | .floating x true => .ok (if x.isNaN then .freshNaN else x)

/-- How an integer and a double compare, if they do. -/
def compareMixed? (i : Int) (x : Double) : Option Ordering :=
  match x.toRat? with
  | some q => some (if (i : Rat) < q then .lt else if q < i then .gt else .eq)
  | none =>
    if x.isNaN then none else if x.isNegative then some .gt else some .lt

/-- How two numbers compare, if they do. -/
def compare? : Number → Number → Option Ordering
  | .integer i _, .integer j _ => some (compare i j)
  | .floating x _, .floating y _ => x.compare? y
  | .integer i _, .floating y _ => compareMixed? i y
  | .floating x _, .integer j _ => (compareMixed? j x).map Ordering.swap

/-- Minus one, zero or one for less, equal or greater; zero as well where numbers
do not compare. -/
def signOfOrder : Option Ordering → Int
  | some .lt => -1
  | some .gt => 1
  | _ => 0

end Number

end Formulary
