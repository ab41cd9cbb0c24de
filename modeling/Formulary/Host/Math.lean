/-
The functions of the class `Math`.

Those that are applied to doubles take any numbers and answer doubles; where a
function has no value they answer the constant that is no number, and where its
value is too large, infinity. `floor`, `ceil` and `rint` leave what is not finite
as it is, and their results pass through integers, so that none is a negative
zero.
-/

import Formulary.Host.Member
import Formulary.Number.Arithmetic

namespace Formulary.MathFunction

/-- The doubles that arguments count as. -/
def doubles : List Value → Except Fault (List Double)
  | [] => .ok []
  | value :: rest => do
    let x ← (← Number.ofValue value).toDouble
    return x :: (← doubles rest)

/-- An infinite result of finite arguments is an overflow, whatever its sign. -/
def bounded (x result : Double) : Double :=
  if result.isInfinite && x.isFinite then .infinity false else result

/-- The value of a function that is not defined at infinity. -/
def onFinite (f : Double → Double) (x : Double) : Double :=
  if x.isInfinite then .notANumber else f x

/-- The value of a function that is defined from -1 to 1. -/
def onUnit (f : Double → Double) (x : Double) : Double :=
  match x.toRat? with
  | some q => if q < -1 || 1 < q then .notANumber else f x
  | none => if x.isNaN then f x else .notANumber

/-- A logarithm: negative infinity at zero and nothing below. -/
def logarithm (f : Double → Double) (x : Double) : Double :=
  if x.isZero then .infinity true
  else if x.isNegative then .notANumber
  else f x

/-- The cube root, as a power. -/
def cubeRoot (x : Double) : Double :=
  ((x.abs).pow (.ofRat false (1 / 3))).copySign x

/-- A finite double made whole by a rule; other doubles as they are. -/
def whole (rule : Rat → Int) (x : Double) : Double :=
  match x.toRat? with
  | some q => .ofRat false (rule q)
  | none => x

/-- Pi by 180, to the nearest double. -/
def perDegree : Double := Double.pi.div (.ofRat false 180)

/-- 180 by pi, to the nearest double. -/
def perRadian : Double := (Double.ofRat false 180).div .pi

/-- The function of one double that a function of the class stands for. -/
def onDouble? : MathFunction → Option (Double → Double)
  | .sqrt => some fun x => (x.sqrt?).getD .notANumber
  | .cbrt => some cubeRoot
  | .exp => some fun x => bounded x x.exp
  | .log => some (logarithm Double.log)
  | .log10 => some (logarithm Double.log10)
  | .sin => some (onFinite Double.sin)
  | .cos => some (onFinite Double.cos)
  | .tan => some (onFinite Double.tan)
  | .asin => some (onUnit Double.asin)
  | .acos => some (onUnit Double.acos)
  | .atan => some Double.atan
  | .floor => some (whole Rat.floor)
  | .ceil => some (whole Rat.ceil)
  | .rint => some (whole roundHalfEven)
  | .toRadians => some fun x => x.mul perDegree
  | .toDegrees => some fun x => x.mul perRadian
  | _ => none

/-- Powers. A negative number has none with an exponent that is not whole, and
zero none with a negative one; a value that is too large is infinite. -/
def power (a b : Double) : Double :=
  if a.isFinite && b.isFinite then
    let result := a.pow b
    if result.isNaN || (a.isZero && result.isInfinite) then .notANumber else result
  else a.pow b

/-- The integer nearest to a number, a half going up: an `int` for a `float` and a
`long` for a `double`. Integers stay as they are. -/
def rounded : Number → Value
  | .integer i isLong => (Number.integer i isLong).toValue
  | .floating x isSingle =>
    let bits := if isSingle then 32 else 64
    let nearest := whole Rat.floor (x.add (.ofRat false (1 / 2)))
    let kept := if x.isFinite then nearest else x
    integral (Arithmetic.toIntegral kept bits) !isSingle

/-- One with the sign of a number; zeros, and what is no number, stay as they
are. -/
def sign (x : Double) : Double :=
  if x.isZero || x.isNaN then x else (Double.ofRat false 1).copySign x

/-- Division or remainder toward negative infinity, of integers only. -/
def floored (f : Int → Int → Int) (left right : Value) : Except Fault Value := do
  let a ← Number.ofValue left
  let b ← Number.ofValue right
  if b.compare? (.integer 0 false) = some .eq then
    throw (.evaluation .divisionByZero)
  match a, b with
  | .integer i _, .integer j _ => return integral (f i j) (a.isWide || b.isWide)
  | _, _ =>
    let _ ← a.toDouble
    let _ ← b.toDouble
    throw .wrongType

/-- The value of a function of the class. -/
def apply (function : MathFunction) (args : List Value) : Except Fault Value :=
  match function.onDouble? with
  | some f => do
    match ← doubles args with
    | [x] => return .double (f x)
    | _ => throw .wrongType
  | none =>
    match function, args with
    | .atan2, args => do
      match ← doubles args with
      | [x, y] => return .double (x.atan2 y)
      | _ => throw .wrongType
    | .hypot, args => do return .double (.hypot (← doubles args))
    | .pow, [base, exponent] => do
      let a ← (← Number.ofValue base).toDouble
      let b ← (← Number.ofValue exponent).toDouble
      return .double (power a b)
    | .abs, [value] => do
      match ← Number.ofValue value with
      | .integer i isLong => return integral i.natAbs (Number.integer i isLong).isWide
      | .floating x isSingle => return floatingValue x.abs isSingle
    | .max, [left, right] => Arithmetic.extremum true left right
    | .min, [left, right] => Arithmetic.extremum false left right
    | .round, [value] => do return rounded (← Number.ofValue value)
    | .signum, [value] => do
      return .double (sign (← (← Number.ofValue value).toDouble))
    | .floorDiv, [left, right] => floored Int.fdiv left right
    | .floorMod, [left, right] => floored Int.fmod left right
    | .random, [] => .ok (.double (.ofRat false (1 / 2)))
    | _, _ => .error .wrongType

end Formulary.MathFunction
