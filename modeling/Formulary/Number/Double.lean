/-
Double-precision numbers.

A double is a sign and the number of its magnitude, or no number at all. The
arithmetic is exact on rationals and rounds once, to the nearest double with ties
to even; only the elementary functions at the end of the module are taken from
the machine.

A double that is no number carries a mark. No operation looks at it; it tells
apart the containers' entries that are the very same thing from those that only
look alike.
-/

import Formulary.Number.Format

namespace Formulary

/-- A double-precision number. -/
inductive Double where
  | nan (mark : Nat)
  | signed (negative : Bool) (index : Fin 0x7FF0000000000001)
deriving DecidableEq, Repr

namespace Double

/-! ### Marks -/

/-- The mark of the constant of type `double` that is no number. -/
def constantMark : Nat := 0

/-- The mark of the constant of type `float` that is no number. -/
def singleConstantMark : Nat := 1

/-- The mark of a fresh result that is no number. -/
def freshMark : Nat := 2

/-- The constant that is no number. -/
def notANumber : Double := .nan constantMark

/-- A fresh result that is no number. -/
def freshNaN : Double := .nan freshMark

/-! ### Construction and views -/

/-- The double with a given sign and number of magnitude, infinite from the
number of infinity on. -/
def ofIndex (negative : Bool) (index : Nat) : Double :=
  .signed negative ⟨min index 0x7FF0000000000000, by omega⟩

/-- Zero with a sign. -/
def zero (negative : Bool) : Double := ofIndex negative 0

/-- Infinity with a sign. -/
def infinity (negative : Bool) : Double := ofIndex negative 0x7FF0000000000000

/-- The double nearest to a rational; a zero takes the given sign. -/
def ofRat (zeroSign : Bool) (q : Rat) : Double :=
  if q = 0 then zero zeroSign
  else if q < 0 then ofIndex true (Format.binary64.nearest (-q))
  else ofIndex false (Format.binary64.nearest q)

def isNaN : Double → Bool
  | .nan _ => true
  | .signed .. => false

def isInfinite : Double → Bool
  | .nan _ => false
  | .signed _ index => index.val == 0x7FF0000000000000

def isFinite : Double → Bool
  | .nan _ => false
  | .signed _ index => index.val != 0x7FF0000000000000

def isZero : Double → Bool
  | .nan _ => false
  | .signed _ index => index.val == 0

/-- The sign, zeros and infinities included. -/
def isNegative : Double → Bool
  | .nan _ => false
  | .signed negative _ => negative

/-- The exact value of a finite double. -/
def toRat? : Double → Option Rat
  | .nan _ => none
  | .signed negative index =>
    if index.val = 0x7FF0000000000000 then none
    else
      let magnitude := Format.binary64.magnitude index.val
      some (if negative then -magnitude else magnitude)

/-- The place of a double in the order of all doubles; both zeros have the place
zero. -/
def rank? : Double → Option Int
  | .nan _ => none
  | .signed true index => some (-(index.val : Int))
  | .signed false index => some (index.val : Int)

/-- How two doubles compare, if they do. -/
def compare? (a b : Double) : Option Ordering :=
  match a.rank?, b.rank? with
  | some x, some y => some (compare x y)
  | _, _ => none

/-- The double nearest to an integer, unless the integer is too large. -/
def ofInt? (i : Int) : Option Double :=
  let x := ofRat false (i : Rat)
  if x.isFinite then some x else none

/-- The integer part of a rational, toward zero. -/
def truncate (q : Rat) : Int :=
  if q < 0 then -((-q).floor) else q.floor

/-! ### Arithmetic -/

def neg : Double → Double
  | .nan _ => freshNaN
  | .signed negative index => .signed (!negative) index

def abs : Double → Double
  | .nan _ => freshNaN
  | .signed _ index => .signed false index

/-- The magnitude of `x` with the sign of `y`. -/
def copySign (x y : Double) : Double :=
  match x with
  | .nan _ => freshNaN
  | .signed _ index => .signed y.isNegative index

/-- Sums. A sum that is zero is negative only if both operands are. -/
def add (a b : Double) : Double :=
  match a.toRat?, b.toRat? with
  | some x, some y => ofRat (a.isNegative && b.isNegative) (x + y)
  | _, _ =>
    if a.isNaN || b.isNaN then freshNaN
    else if a.isInfinite && b.isInfinite then
      if a.isNegative == b.isNegative then a else freshNaN
    else if a.isInfinite then a else b

def sub (a b : Double) : Double :=
  if b.isNaN then freshNaN else add a b.neg

def mul (a b : Double) : Double :=
  let negative := a.isNegative != b.isNegative
  match a.toRat?, b.toRat? with
  | some x, some y => ofRat negative (x * y)
  | _, _ =>
    if a.isNaN || b.isNaN || a.isZero || b.isZero then freshNaN
    else infinity negative

/-- Quotients. Zero by zero is no number, and anything else by zero is
infinite. -/
def div (a b : Double) : Double :=
  let negative := a.isNegative != b.isNegative
  if a.isNaN || b.isNaN then freshNaN
  else if b.isZero then if a.isZero then freshNaN else infinity negative
  else
    match a.toRat?, b.toRat? with
    | some x, some y => ofRat negative (x / y)
    | some _, none => zero negative
    | none, some _ => infinity negative
    | none, none => freshNaN

/-- What is left of `a` after the greatest multiple of `b` toward zero, with the
sign of `a`; none where `a` is infinite or `b` is zero. -/
def rem? (a b : Double) : Option Double :=
  if a.isNaN || b.isNaN then some freshNaN
  else if a.isInfinite || b.isZero then none
  else
    match a.toRat?, b.toRat? with
    | some x, some y => some (ofRat a.isNegative (x - truncate (x / y) * y))
    | _, _ => some a

/-- The integer part of a square root, worked out two binary digits at a
time. -/
def rootFloor : (digits : Nat) → Nat → Nat
  | 0, _ => 0
  | digits + 1, n =>
    let root := 2 * rootFloor digits (n / 4)
    if (root + 1) * (root + 1) ≤ n then root + 1 else root

/-- A rational that rounds as the square root of `q` does: the root with 64 bits,
and half a unit more where something is cut off. -/
def rootOf (q : Rat) : Rat :=
  let unit := floorLog2 q / 2 - 64
  let scaled := q * (2 : Rat) ^ (-2 * unit)
  let root := rootFloor 66 scaled.floor.toNat
  let kept : Rat := root
  (if kept * kept = scaled then kept else kept + 1 / 2) * (2 : Rat) ^ unit

/-- The square root; none of a negative number. -/
def sqrt? (a : Double) : Option Double :=
  match a with
  | .nan _ => some freshNaN
  | .signed negative _ =>
    if a.isZero then some a
    else if negative then none
    else
      match a.toRat? with
      | none => some a
      | some x => some (ofRat false (rootOf x))

/-- The exact values of doubles that are all finite. -/
def toRats? : List Double → Option (List Rat)
  | [] => some []
  | x :: rest =>
    match x.toRat?, toRats? rest with
    | some q, some qs => some (q :: qs)
    | _, _ => none

/-- The root of the sum of squares. An infinite operand wins over one that is no
number. -/
def hypot (xs : List Double) : Double :=
  if xs.any isInfinite then infinity false
  else
    match toRats? xs with
    | some qs =>
      let square := (qs.map fun q => q * q).foldl (· + ·) 0
      if square = 0 then zero false else ofRat false (rootOf square)
    | none => freshNaN

/-- Rounds to single precision. -/
def toSingle (a : Double) : Double :=
  match a.toRat? with
  | none => if a.isNaN then freshNaN else a
  | some x =>
    let nearest := Format.binary32.nearest x.abs
    if nearest = Format.binary32.infinity then infinity a.isNegative
    else
      let magnitude := Format.binary32.magnitude nearest
      ofRat a.isNegative (if a.isNegative then -magnitude else magnitude)

/-! ### Elementary functions of the machine -/

def toFloat : Double → Float
  | .nan _ => Float.ofBits 0x7FF8000000000000
  | .signed negative index =>
    Float.ofBits (UInt64.ofNat (index.val + if negative then 0x8000000000000000 else 0))

def ofFloat (x : Float) : Double :=
  if x.isNaN then freshNaN
  else
    let bits := x.toBits.toNat
    ofIndex (0x8000000000000000 ≤ bits) (bits % 0x8000000000000000)

/-- A machine function on doubles. -/
def viaFloat (f : Float → Float) (a : Double) : Double :=
  ofFloat (f a.toFloat)

def exp : Double → Double := viaFloat Float.exp
def log : Double → Double := viaFloat Float.log
def log10 : Double → Double := viaFloat Float.log10
def sin : Double → Double := viaFloat Float.sin
def cos : Double → Double := viaFloat Float.cos
def tan : Double → Double := viaFloat Float.tan
def asin : Double → Double := viaFloat Float.asin
def acos : Double → Double := viaFloat Float.acos
def atan : Double → Double := viaFloat Float.atan

def atan2 (a b : Double) : Double :=
  ofFloat (Float.atan2 a.toFloat b.toFloat)

def pow (a b : Double) : Double :=
  ofFloat (Float.pow a.toFloat b.toFloat)

end Double

end Formulary
