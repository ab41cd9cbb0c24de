/-
The values that literals denote.

An integer literal is hexadecimal, octal or decimal. The first two spell out the
bits of a number of 32 bits, or of 64 bits with a suffix; decimal ones are taken
as they are. Digits of any script count. Strings and characters may hold escapes.
-/

import Formulary.Syntax.Parser
import Formulary.Number.Decimal
import Formulary.Number.Integer
import Formulary.Value

namespace Formulary

/-- Why a literal denotes nothing. -/
inductive LiteralError where
  | notDigits (base : Nat) (text : List Char)
  | tooManyDigits (count : Nat)
  | unknownEscape (c : Char)
deriving DecidableEq, Repr

namespace LiteralError

/-- The report of a bad literal. A long text is cut off. -/
def message : LiteralError → List Char
  | .notDigits base text =>
    "invalid literal for int() with base ".toList ++ Nat.toDigits 10 base ++
      ':' :: ' ' :: ('\'' :: text ++ ['\'']).take 200
  | .tooManyDigits count =>
    "Exceeds the limit (4300 digits) for integer string conversion: value has ".toList ++
      Nat.toDigits 10 count ++
      " digits; use sys.set_int_max_str_digits() to increase the limit".toList
  | .unknownEscape c => "illegal escape character '\\".toList ++ [c, '\'']

end LiteralError

namespace Literal

/-! ### Integers -/

/-- The value of a digit below a base, letters serving from ten on. -/
def digitValue? (base : Nat) (c : Char) : Option Nat :=
  let value? :=
    match Text.decimalValue? c.toNat with
    | some value => some value
    | none =>
      if 'a' ≤ c && c ≤ 'f' then some (c.toNat - 87)
      else if 'A' ≤ c && c ≤ 'F' then some (c.toNat - 55)
      else none
  value?.filter (· < base)

/-- The number that digits write. -/
def digitsFrom (base : Nat) : (value : Nat) → List Char → Option Nat
  | value, [] => some value
  | value, c :: rest =>
    (digitValue? base c).bind fun digit => digitsFrom base (value * base + digit) rest

/-- The number that one digit or more write. -/
def natural (base : Nat) (text : List Char) : Except LiteralError Nat :=
  match text, digitsFrom base 0 text with
  | _ :: _, some value => .ok value
  | _, _ => .error (.notDigits base text)

/-- The number that a decimal numeral writes. -/
def decimal (text : List Char) : Except LiteralError Nat :=
  if maxDigits < text.length then .error (.tooManyDigits text.length)
  else natural 10 text

def isLongSuffix (c : Char) : Bool := c = 'l' || c = 'L'

/-- The value of an integer literal. -/
def integer (spelling : List Char) : Except LiteralError Value := do
  let digits := spelling.takeWhile fun c => !isLongSuffix c
  let isLong := digits.length < spelling.length
  let ofBits (value : Nat) : Value :=
    if isLong then .long (wrap value 64) else .int (wrap value 32)
  match digits with
  | '0' :: 'x' :: rest | '0' :: 'X' :: rest => return ofBits (← natural 16 rest)
  | '0' :: _ :: _ => return ofBits (← natural 8 digits)
  | _ =>
    let value ← decimal digits
    return if isLong then .long value else .int value

/-! ### Floating numbers -/

def isSingleSuffix (c : Char) : Bool := c = 'f' || c = 'F'

def isDoubleSuffix (c : Char) : Bool := c = 'd' || c = 'D'

/-- The value of a floating literal. -/
def floating (spelling : List Char) : Value :=
  let numeral := spelling.takeWhile fun c => !isSingleSuffix c && !isDoubleSuffix c
  let value := (Double.ofText? (codesOf numeral)).getD .notANumber
  if spelling.any isSingleSuffix then .single value.toSingle else .double value

/-! ### Texts -/

/-- The character that an escape letter stands for. -/
def escapeLetters : List (Char × Nat) :=
  [('b', 8), ('t', 9), ('n', 10), ('f', 12), ('r', 13), ('"', 34), ('\'', 39),
    ('\\', 92), ('s', 32)]

/-- The code of an escape with four hexadecimal digits behind one letter or more,
and the length of the escape. -/
def unicodeEscape? (text : List Char) : Option (Nat × Nat) :=
  let letters := (text.takeWhile (· = 'u')).length
  let digits := ((text.drop letters).take 4).takeWhile Lexer.isHexDigit
  if letters = 0 || digits.length < 4 then none
  else (digitsFrom 16 0 digits).map fun code => (code, letters + 4)

/-- The code of an octal escape, at most 255, and the length of the escape. -/
def octalEscape? (text : List Char) : Option (Nat × Nat) :=
  let length :=
    match text with
    | c :: _ => if c ≤ '3' then 3 else 2
    | [] => 0
  let digits := (text.take length).takeWhile Lexer.isOctalDigit
  if digits.isEmpty then none
  else (digitsFrom 8 0 digits).map fun code => (code, digits.length)

/-- The code of the escape at the start of a text, and the length of the
escape. -/
def escape (text : List Char) : Except LiteralError (Nat × Nat) :=
  match unicodeEscape? text <|> octalEscape? text with
  | some found => .ok found
  | none =>
    match text with
    | [] => .ok (92, 0)
    | c :: _ =>
      if c = 'u' then .error (.notDigits 16 [])
      else if Text.isDigitSign c.toNat then
        (natural 8 [c]).map fun code => (code, 1)
      else
        match escapeLetters.lookup c with
        | some code => .ok (code, 1)
        | none => .error (.unknownEscape c)

/-- The codes of a text with escapes, where `skip` characters still belong to the
escape found last. -/
def codesFrom : (skip : Nat) → List Char → Except LiteralError Codes
  | _, [] => .ok []
  | skip + 1, _ :: rest => codesFrom skip rest
  | 0, c :: rest =>
    if c = '\\' then do
      let (code, length) ← escape rest
      return code :: (← codesFrom length rest)
    else do return c.toNat :: (← codesFrom 0 rest)

/-- The codes between the quotes of a string or character literal. -/
def quoted (spelling : List Char) : Except LiteralError Codes :=
  codesFrom 0 ((spelling.drop 1).dropLast)

/-- The value of a literal. A lexeme that is none counts as `null`. -/
def value : Lexeme → Except LiteralError Value
  | .integer spelling => integer spelling
  | .floating spelling => .ok (floating spelling)
  | .string spelling => do return .str (← quoted spelling)
  | .character spelling => do return .char (← quoted spelling)
  | .keyword .trueWord => .ok (.bool true)
  | .keyword .falseWord => .ok (.bool false)
  | _ => .ok .null

end Literal

/-! ### Bodies -/

/-- A statement with its literals read. -/
abbrev ParsedStmt := Stmt Value Unit

/-- Why a text cannot be read as a body. -/
inductive ReadError where
  | syntaxError (error : SyntaxError)
  | literal (error : LiteralError)
  | tooDeep
deriving DecidableEq, Repr

/-- The report of a text that cannot be read. -/
def ReadError.message : ReadError → List Char
  | .syntaxError error => error.message
  | .literal error => error.message
  | .tooDeep => "body is nested too deeply to compile".toList

/-- The greatest depth of a body. -/
def maxDepth : Nat := 1000

/-- Reads a body. -/
def readBody (text : List Char) : Except ReadError (List ParsedStmt) :=
  match parseSource text with
  | .error error => .error (.syntaxError error)
  | .ok body =>
    if maxDepth < Stmt.depthOfAll body then .error .tooDeep
    else (Stmt.mapAllLiterals Literal.value body).mapError .literal

end Formulary
