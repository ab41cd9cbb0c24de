/-
Templates: texts with directives that values are put into.

A directive is a percent sign, flags, a width, a precision and a letter; two
percent signs in a row stand for one. Width and precision may be stars, which take
their numbers from the values. Every directive takes one value, and no value may
be left over.
-/

import Formulary.Host.Argument
import Formulary.Number.Arithmetic
import Formulary.Value.Written

namespace Formulary

/-- The flags, width, precision and letter of a directive. -/
structure Directive where
  left : Bool
  plus : Bool
  blank : Bool
  alternate : Bool
  zero : Bool
  width : Nat
  precision : Option Nat
  letter : Nat
deriving DecidableEq, Repr

namespace Template

/-! ### Digits of floating numbers -/

/-- A rational with `places` digits behind the point, a tie going to the even
digit. -/
def fixed (places : Nat) (alternate : Bool) (q : Rat) : List Char :=
  let digits := natChars (roundHalfEven (q * (10 : Rat) ^ (places : Int))).toNat
  let padded := List.replicate (places + 1 - digits.length) '0' ++ digits
  let whole := padded.take (padded.length - places)
  let fraction := padded.drop (padded.length - places)
  if fraction.isEmpty && !alternate then whole else whole ++ '.' :: fraction

/-- The first `places + 1` digits of a rational and the exponent of the first. -/
def leadingDigits (places : Nat) (q : Rat) : List Char × Int :=
  if q = 0 then (List.replicate (places + 1) '0', 0)
  else
    let decimal := Decimal.rounded (places + 1) q
    (decimal.digitChars.take (places + 1), decimal.leadingExponent)

/-- One digit before the point, `places` digits behind it and an exponent. -/
def exponential (alternate : Bool) (digits : List Char) (exponent : Int) : List Char :=
  let fraction := digits.drop 1
  let point := if fraction.isEmpty && !alternate then [] else '.' :: fraction
  digits.take 1 ++ point ++ 'e' :: Layout.exponentChars true 2 exponent

/-- Drops the zeros at the end of a list of digits. -/
def dropZeros (digits : List Char) : List Char :=
  (digits.reverse.dropWhile (· = '0')).reverse

/-- A rational with `digits` digits, positionally where the exponent is small. Only
the alternate form keeps zeros at the end. -/
def general (digits : Nat) (alternate : Bool) (q : Rat) : List Char :=
  let places := digits - 1
  let (leading, exponent) := leadingDigits places q
  if -4 ≤ exponent && exponent < (digits : Int) then
    let text := fixed ((places : Int) - exponent).toNat alternate q
    if alternate || !text.contains '.' then text
    else
      let kept := dropZeros text
      if kept.getLast? = some '.' then kept.dropLast else kept
  else
    let kept := if alternate then leading else leading.take 1 ++ dropZeros (leading.drop 1)
    exponential alternate kept exponent

/-- The text of the magnitude of a double for one of the letters `e`, `f` and
`g`. -/
def magnitude (letter : Char) (precision : Nat) (alternate : Bool) (x : Double) :
    List Char :=
  match x.toRat? with
  | none => if x.isNaN then "nan".toList else "inf".toList
  | some q =>
    match letter with
    | 'e' =>
      let (digits, exponent) := leadingDigits precision q.abs
      exponential alternate digits exponent
    | 'f' => fixed precision alternate q.abs
    | _ => general (max precision 1) alternate q.abs

/-! ### Conversions -/

/-- A text with its sign apart, ready to be padded. -/
structure Filling where
  negative : Bool
  /-- Whether a sign may stand in front. -/
  signed : Bool
  /-- What stands between the sign and the padding zeros. -/
  mark : Codes
  body : Codes

/-- The integer that a number is cut off to. -/
def cutOff (value : Value) : Except Fault Int :=
  match value with
  | .bool b => .ok (if b then 1 else 0)
  | .int i | .long i => .ok i
  | .fraction q => .ok (Double.truncate q)
  | .double x | .single x =>
    match x.toRat? with
    | some q => .ok (Double.truncate q)
    | none => if x.isNaN then .error .wrongValue else .error (.host .overflow)
  | _ => .error .wrongType

/-- The double that a number counts as. -/
def toDouble (value : Value) : Except Fault Double :=
  if value.isQuantity then
    match value with
    | .bool b => (Number.integer (if b then 1 else 0) false).toDouble
    | value => do (← Number.ofValue value).toDouble
  else .error .wrongType

/-- An integer in a base, with at least the digits of the precision. -/
def integer (directive : Directive) (base : Nat) (mark : String) (capitals : Bool)
    (i : Int) : Except Fault Filling := do
  if base = 10 && isTooLong i then throw .wrongValue
  let digits := Nat.toDigits base i.natAbs
  let shown := if capitals then digits.map Char.toUpper else digits
  let padded := List.replicate (directive.precision.getD 0 - shown.length) '0' ++ shown
  let mark := if directive.alternate then codesOfString mark else []
  return ⟨i < 0, true, mark, codesOf padded⟩

/-- A floating number, in capital letters if asked for. -/
def floating (directive : Directive) (letter : Char) (capitals : Bool) (x : Double) :
    Filling :=
  let text := magnitude letter (directive.precision.getD 6) directive.alternate x
  ⟨x.isNegative, true, [], codesOf (if capitals then text.map Char.toUpper else text)⟩

/-- A text, cut off behind the characters of the precision. -/
def words (directive : Directive) (codes : Codes) : Filling :=
  let kept :=
    match directive.precision with
    | some count => codes.take count
    | none => codes
  ⟨false, false, [], kept⟩

/-- A code point as an ASCII escape where it is not ASCII. -/
def asciiOnly (code : Nat) : Codes :=
  if code < 128 then [code]
  else if code < 0x100 then codesOfString "\\x" ++ Written.hexCodes 2 code
  else if code < 0x10000 then codesOfString "\\u" ++ Written.hexCodes 4 code
  else codesOfString "\\U" ++ Written.hexCodes 8 code

/-- The character that a value stands for. -/
def character (value : Value) : Except Fault Codes :=
  match value.text? with
  | some [code] => .ok [code]
  | some _ => .error .wrongType
  | none => do
    let i ← Argument.integer value
    if 0 ≤ i && i < 0x110000 then return [i.toNat] else throw (.host .overflow)

/-- What a directive makes of a value. -/
def fill (store : Store) (directive : Directive) (value : Value) :
    Except Fault Filling := do
  match Char.ofNat directive.letter with
  | 's' => return words directive (← store.plainText value)
  | 'r' => return words directive (← store.written value)
  | 'a' => return words directive ((← store.written value).flatMap asciiOnly)
  | 'd' | 'i' | 'u' => integer directive 10 "" false (← cutOff value)
  | 'o' => integer directive 8 "0o" false (← Argument.integer value)
  | 'x' => integer directive 16 "0x" false (← Argument.integer value)
  | 'X' => integer directive 16 "0X" true (← Argument.integer value)
  | 'e' => return floating directive 'e' false (← toDouble value)
  | 'E' => return floating directive 'e' true (← toDouble value)
  | 'f' => return floating directive 'f' false (← toDouble value)
  | 'F' => return floating directive 'f' true (← toDouble value)
  | 'g' => return floating directive 'g' false (← toDouble value)
  | 'G' => return floating directive 'g' true (← toDouble value)
  | 'c' => return ⟨false, false, [], ← character value⟩
  | _ => throw .wrongValue

/-- The sign in front of a number. -/
def sign (directive : Directive) (filling : Filling) : Codes :=
  if !filling.signed then []
  else if filling.negative then [45]
  else if directive.plus then [43]
  else if directive.blank then [32]
  else []

/-- A filling brought to its width: with blanks behind it, with zeros between sign
and digits of a number, or with blanks before it. -/
def pad (directive : Directive) (filling : Filling) : Codes :=
  let head := sign directive filling ++ filling.mark
  let missing := directive.width - (head.length + filling.body.length)
  if directive.left then head ++ filling.body ++ List.replicate missing 32
  else if directive.zero && filling.signed then
    head ++ List.replicate missing 48 ++ filling.body
  else List.replicate missing 32 ++ head ++ filling.body

/-! ### Directives -/

/-- Takes one value. -/
def takeValue : List Value → Except Fault (Value × List Value)
  | [] => .error .wrongType
  | value :: rest => .ok (value, rest)

/-- Reads flags, any of them any number of times. -/
def readFlags (directive : Directive) : List Nat → Directive × List Nat
  | [] => (directive, [])
  | code :: rest =>
    match Char.ofNat code with
    | '-' => readFlags { directive with left := true } rest
    | '+' => readFlags { directive with plus := true } rest
    | ' ' => readFlags { directive with blank := true } rest
    | '#' => readFlags { directive with alternate := true } rest
    | '0' => readFlags { directive with zero := true } rest
    | _ => (directive, code :: rest)

/-- Reads a number below a limit. -/
def readNumber (limit : Nat) (text : List Nat) : Except Fault (Nat × List Nat) :=
  let n := natOfDigits (text.takeWhile isAsciiDigit)
  if limit ≤ n then .error .wrongValue else .ok (n, text.dropWhile isAsciiDigit)

/-- Takes the integer of a star. -/
def takeStar (limit : Int) (values : List Value) : Except Fault (Int × List Value) := do
  let (value, rest) ← takeValue values
  let i ← Argument.integer value
  if -limit ≤ i && i < limit then return (i, rest) else throw (.host .overflow)

/-- Reads a width. A negative one puts the blanks behind. -/
def readWidth (directive : Directive) (text : List Nat) (values : List Value) :
    Except Fault (Directive × List Nat × List Value) := do
  match text with
  | 42 :: rest =>
    let (i, values) ← takeStar 0x8000000000000000 values
    return ({ directive with left := directive.left || i < 0, width := i.natAbs }, rest,
      values)
  | text =>
    let (width, rest) ← readNumber 0x8000000000000000 text
    return ({ directive with width }, rest, values)

/-- Reads a precision, if there is one. A negative one counts as zero. -/
def readPrecision (directive : Directive) (text : List Nat) (values : List Value) :
    Except Fault (Directive × List Nat × List Value) := do
  match text with
  | 46 :: 42 :: rest =>
    let (i, values) ← takeStar 0x80000000 values
    return ({ directive with precision := some i.toNat }, rest, values)
  | 46 :: rest =>
    let (precision, rest) ← readNumber 0x80000000 rest
    return ({ directive with precision := some precision }, rest, values)
  | text => return (directive, text, values)

/-- Leaves out one letter that says how long a number is. -/
def skipLength : List Nat → List Nat
  | code :: rest => if code = 104 || code = 108 || code = 76 then rest else code :: rest
  | [] => []

/-- The directive without flags. -/
def bare : Directive := ⟨false, false, false, false, false, 0, none, 0⟩

/-- Writes what a directive makes of the next value; the text and the values behind
it. A parenthesis asks for a map, which values in a row are not. -/
def directive (store : Store) (text : List Nat) (values : List Value) :
    Except Fault (Codes × List Nat × List Value) := do
  match text with
  | 37 :: rest => return ([37], rest, values)
  | 40 :: _ => throw .wrongType
  | text =>
    let (found, rest) := readFlags bare text
    let (found, rest, values) ← readWidth found rest values
    let (found, rest, values) ← readPrecision found rest values
    match skipLength rest with
    | [] => throw .wrongValue
    | letter :: rest =>
      let (value, values) ← takeValue values
      let found := { found with letter }
      return (pad found (← fill store found value), rest, values)

/-- Writes a template. The fuel bounds the length of its text. -/
def writeUpTo : (fuel : Nat) → Store → List Nat → List Value → Except Fault Codes
  | _, _, [], [] => .ok []
  | _, _, [], _ :: _ => .error .wrongType
  | 0, _, _, _ => .error .wrongType
  | fuel + 1, store, code :: rest, values =>
    if code = 37 then do
      let (written, rest, values) ← directive store rest values
      return written ++ (← writeUpTo fuel store rest values)
    else do return code :: (← writeUpTo fuel store rest values)

/-- The text of a template with values. -/
def write (store : Store) (template : Codes) (values : List Value) :
    Except Fault Codes :=
  writeUpTo (template.length + 1) store template values

end Template

end Formulary
