/-
Decimal texts of doubles.

`Decimal.shortest` is the decimal with the fewest digits that reads back as a
given magnitude and, of those, the nearest to it. `Decimal.rounded` keeps a given
number of digits. A `Layout` says how digits and exponent are written:
`Layout.plain` serves for values inside containers and for the answers,
`Layout.display` for the text of a single number.

`Double.ofText?` reads numerals with decimal digits of any script, and the words
for infinity and for what is no number.
-/

import Formulary.Number.Double
import Formulary.Text.Digit

namespace Formulary

/-- The number `digits * 10 ^ exponent`. -/
structure Decimal where
  digits : Nat
  exponent : Int
deriving DecidableEq, Repr

/-- How many decimal digits a number has; zero has none. -/
def digitCount (n : Nat) : Nat :=
  if n = 0 then 0 else (Nat.toDigits 10 n).length

/-- The greatest `k` with `10 ^ k ≤ q`, for a positive `q`. -/
def floorLog10 (q : Rat) : Int :=
  if 1 ≤ q then (digitCount q.floor.toNat : Int) - 1
  else -(digitCount (q⁻¹.ceil.toNat - 1) : Int)

namespace Decimal

def toRat (decimal : Decimal) : Rat :=
  (decimal.digits : Rat) * (10 : Rat) ^ decimal.exponent

/-- Drops zeros at the end, at most `fuel` of them. -/
def trimUpTo : (fuel : Nat) → Decimal → Decimal
  | 0, decimal => decimal
  | fuel + 1, decimal =>
    if decimal.digits % 10 = 0 && decimal.digits != 0 then
      trimUpTo fuel ⟨decimal.digits / 10, decimal.exponent + 1⟩
    else decimal

/-- Drops the zeros at the end of the digits. -/
def trim (decimal : Decimal) : Decimal :=
  trimUpTo (digitCount decimal.digits) decimal

/-- The digits of a number, the first one first. -/
def digitChars (decimal : Decimal) : List Char :=
  Nat.toDigits 10 decimal.digits

/-- The exponent of the first digit. -/
def leadingExponent (decimal : Decimal) : Int :=
  decimal.exponent + (digitCount decimal.digits : Int) - 1

/-- The decimal with `count` digits nearest to a positive rational, a tie going
to the even one. -/
def rounded (count : Nat) (q : Rat) : Decimal :=
  let exponent := floorLog10 q - (count : Int) + 1
  ⟨(roundHalfEven (q * (10 : Rat) ^ (-exponent))).toNat, exponent⟩

/-- Whether a decimal reads back as the magnitude of a given number. -/
def readsAs (index : Nat) (decimal : Decimal) : Bool :=
  Format.binary64.nearest decimal.toRat == index

/-- Of the two neighbours of `q` with `count` digits, the nearest one that reads
back as the magnitude of number `index`. -/
def readableNeighbour? (index : Nat) (q : Rat) (count : Nat) : Option Decimal :=
  let exponent := floorLog10 q - (count : Int) + 1
  let scaled := q * (10 : Rat) ^ (-exponent)
  let low : Decimal := ⟨scaled.floor.toNat, exponent⟩
  let high : Decimal := ⟨scaled.floor.toNat + 1, exponent⟩
  let preferHigh := roundHalfEven scaled = high.digits
  match low.readsAs index, high.readsAs index with
  | true, true => some (if preferHigh then high else low)
  | true, false => some low
  | false, true => some high
  | false, false => none

/-- The decimal with the fewest digits that reads back as the magnitude of a
positive, finite number `index`. -/
def shortest (index : Nat) : Decimal :=
  let q := Format.binary64.magnitude index
  match (List.range 17).findSome? fun n => readableNeighbour? index q (n + 1) with
  | some decimal => decimal.trim
  | none => rounded 17 q

end Decimal

/-! ### Layouts -/

/-- How a decimal is written: positionally from one exponent of the first digit
on and below another, otherwise with a mark before the exponent. -/
structure Layout where
  positionalFrom : Int
  positionalBelow : Int
  mark : Char
  plus : Bool
  exponentWidth : Nat
  /-- Whether a lone digit before the mark is followed by a zero. -/
  fraction : Bool
  notANumber : List Char
  infinity : List Char
deriving DecidableEq, Repr

namespace Layout

/-- The layout of answers and of numbers inside containers. -/
def plain : Layout where
  positionalFrom := -4
  positionalBelow := 16
  mark := 'e'
  plus := true
  exponentWidth := 2
  fraction := false
  notANumber := "nan".toList
  infinity := "inf".toList

/-- The layout of the text of a number. -/
def display : Layout where
  positionalFrom := -3
  positionalBelow := 7
  mark := 'E'
  plus := false
  exponentWidth := 1
  fraction := true
  notANumber := "NaN".toList
  infinity := "Infinity".toList

/-- Digits with zeros around them, so that the point stands where the exponent of
the first digit says. -/
def positional (digits : List Char) (leading : Int) : List Char :=
  if leading < 0 then
    '0' :: '.' :: (List.replicate (-leading - 1).toNat '0' ++ digits)
  else
    let whole := leading.toNat + 1
    let padded := digits ++ List.replicate (whole - digits.length) '0'
    let fraction := padded.drop whole
    padded.take whole ++ '.' :: (if fraction.isEmpty then ['0'] else fraction)

/-- An exponent with its sign and at least the given width. -/
def exponentChars (plus : Bool) (width : Nat) (exponent : Int) : List Char :=
  let digits := Nat.toDigits 10 exponent.natAbs
  let sign := if exponent < 0 then ['-'] else if plus then ['+'] else []
  sign ++ List.replicate (width - digits.length) '0' ++ digits

/-- One digit before the point, and the exponent behind the mark. -/
def scientific (layout : Layout) (digits : List Char) (leading : Int) : List Char :=
  let fraction := digits.drop 1
  let point :=
    if fraction.isEmpty then if layout.fraction then ['.', '0'] else []
    else '.' :: fraction
  digits.take 1 ++ point ++ layout.mark ::
    exponentChars layout.plus layout.exponentWidth leading

/-- A decimal that is not zero. -/
def decimal (layout : Layout) (d : Decimal) : List Char :=
  let leading := d.leadingExponent
  if layout.positionalFrom ≤ leading && leading < layout.positionalBelow then
    positional d.digitChars leading
  else layout.scientific d.digitChars leading

/-- The text of a double. -/
def write (layout : Layout) : Double → List Char
  | .nan _ => layout.notANumber
  | .signed negative index =>
    let sign := if negative then ['-'] else []
    sign ++
      if index.val = 0 then ['0', '.', '0']
      else if index.val = 0x7FF0000000000000 then layout.infinity
      else layout.decimal (Decimal.shortest index.val)

end Layout

/-- The text of a single-precision number: the first correctly rounded decimal,
of one to nine digits, that reads back as the same single. -/
def writeSingle (x : Double) : List Char :=
  match x.toRat? with
  | none => Layout.display.write x
  | some q =>
    if q = 0 then Layout.display.write x
    else
      let candidates := (List.range 9).map fun n =>
        Double.ofRat x.isNegative
          ((Decimal.rounded (n + 1) q.abs).toRat * (if q < 0 then -1 else 1))
      match candidates.find? fun candidate => candidate.toSingle.rank? == x.rank? with
      | some candidate => Layout.display.write candidate
      | none => Layout.display.write x

/-! ### Reading -/

/-- The value of a run of ASCII digits. -/
def natOfDigits (digits : List Nat) : Nat :=
  digits.foldl (fun n code => n * 10 + (code - 48)) 0

def isAsciiDigit (code : Nat) : Bool :=
  48 ≤ code && code ≤ 57

/-- The double nearest to a decimal with a sign. Exponents beyond all doubles are
settled without working out their powers. -/
def Double.ofDecimal (negative : Bool) (d : Decimal) : Double :=
  let magnitude := (digitCount d.digits : Int) + d.exponent
  if d.digits = 0 || magnitude < -400 then .zero negative
  else if 400 < magnitude then .infinity negative
  else Double.ofRat negative (if negative then -d.toRat else d.toRat)

/-- Drops underscores, each of which has to stand between two digits; `before` is
the code point in front. -/
def dropUnderscores (before : Nat) : List Nat → Option (List Nat)
  | [] => if before = 95 then none else some []
  | code :: rest =>
    if code = 95 then
      if isAsciiDigit before then dropUnderscores code rest else none
    else if before = 95 && !isAsciiDigit code then none
    else (dropUnderscores code rest).map (code :: ·)

/-- The exponent behind the digits of a numeral: nothing, or a letter, a sign if
there is one, and digits. -/
def exponentOf? : List Nat → Option Int
  | [] => some 0
  | letter :: rest =>
    if letter = 101 || letter = 69 then
      let (negative, digits) :=
        match rest with
        | 45 :: digits => (true, digits)
        | 43 :: digits => (false, digits)
        | digits => (false, digits)
      if digits.isEmpty || !digits.all isAsciiDigit then none
      else if negative then some (-(natOfDigits digits : Int))
      else some (natOfDigits digits)
    else none

/-- A numeral without a sign. -/
def numeral? (codes : List Nat) : Option Decimal :=
  let whole := codes.takeWhile isAsciiDigit
  let afterWhole := codes.dropWhile isAsciiDigit
  let (fraction, rest) :=
    match afterWhole with
    | 46 :: more => (more.takeWhile isAsciiDigit, more.dropWhile isAsciiDigit)
    | other => ([], other)
  if whole.isEmpty && fraction.isEmpty then none
  else
    (exponentOf? rest).map fun exponent =>
      ⟨natOfDigits (whole ++ fraction), exponent - (fraction.length : Int)⟩

/-- ASCII capitals as small letters. -/
def lowerAscii (code : Nat) : Nat :=
  if 65 ≤ code && code ≤ 90 then code + 32 else code

/-- The double that a text without blanks around it writes. -/
def Double.ofText? (codes : List Nat) : Option Double :=
  let ascii := codes.map Text.toAsciiDigit
  let (negative, unsigned) :=
    match ascii with
    | 45 :: rest => (true, rest)
    | 43 :: rest => (false, rest)
    | rest => (false, rest)
  let word := String.ofList (unsigned.map fun code => Char.ofNat (lowerAscii code))
  if word == "inf" || word == "infinity" then some (.infinity negative)
  else if word == "nan" then some .freshNaN
  else
    (dropUnderscores 0 unsigned).bind fun plain =>
      (numeral? plain).map (Double.ofDecimal negative)

end Formulary
