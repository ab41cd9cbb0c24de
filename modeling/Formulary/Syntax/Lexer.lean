/-
From characters to tokens.

`scan` finds the lexeme at the start of a text. A floating literal is tried
before everything else; of the other lexemes the longest one wins, and a word
that is a keyword in full is the keyword. Blanks and comments give no token. A
character that starts no lexeme is reported with its position, whatever comes
before it in the grammar.
-/

import Formulary.Syntax.Token
import Formulary.Text.Digit

namespace Formulary.Lexer

/-! ### Character classes -/

def isDigit (c : Char) : Bool := Text.isDecimal c.toNat

def isHexDigit (c : Char) : Bool :=
  ('0' ≤ c && c ≤ '9') || ('a' ≤ c && c ≤ 'f') || ('A' ≤ c && c ≤ 'F')

def isOctalDigit (c : Char) : Bool := '0' ≤ c && c ≤ '7'

def isNameStart (c : Char) : Bool :=
  ('A' ≤ c && c ≤ 'Z') || ('a' ≤ c && c ≤ 'z') || c = '_' || c = '$'

def isNamePart (c : Char) : Bool :=
  isNameStart c || ('0' ≤ c && c ≤ '9')

def isSpace (c : Char) : Bool :=
  c = ' ' || c = '\t' || c = '\x0c' || c = '\r' || c = '\n'

/-! ### Lengths of literals, comments and blanks

Each function gives the length of the lexeme of its kind at the start of a text,
if there is one. -/

def digitsLength (text : List Char) : Nat :=
  (text.takeWhile isDigit).length

/-- The length of an exponent: a letter, a sign if there is one, and digits. -/
def exponentLength : List Char → Nat
  | letter :: rest =>
    if letter = 'e' || letter = 'E' then
      let sign :=
        match rest with
        | c :: _ => if c = '+' || c = '-' then 1 else 0
        | [] => 0
      let digits := digitsLength (rest.drop sign)
      if digits = 0 then 0 else 1 + sign + digits
    else 0
  | [] => 0

def oneOf (letters : List Char) : List Char → Nat
  | c :: _ => if letters.contains c then 1 else 0
  | [] => 0

def floatingSuffix (text : List Char) : Nat :=
  oneOf ['f', 'F', 'd', 'D'] text

/-- A floating literal has a point beside a digit, an exponent or a suffix. -/
def floatingLength? (text : List Char) : Option Nat :=
  let whole := digitsLength text
  let afterWhole := text.drop whole
  let fraction :=
    match afterWhole with
    | '.' :: rest =>
      let digits := digitsLength rest
      if whole = 0 && digits = 0 then 0 else 1 + digits
    | _ => 0
  if whole = 0 && fraction = 0 then none
  else
    let exponent := exponentLength (text.drop (whole + fraction))
    let suffix := floatingSuffix (text.drop (whole + fraction + exponent))
    if fraction = 0 && exponent = 0 && suffix = 0 then none
    else some (whole + fraction + exponent + suffix)

def integerSuffix (text : List Char) : Nat :=
  oneOf ['l', 'L'] text

def integerLength? (text : List Char) : Option Nat :=
  let hexDigits :=
    match text with
    | '0' :: x :: rest =>
      if x = 'x' || x = 'X' then (rest.takeWhile isHexDigit).length else 0
    | _ => 0
  let length := if hexDigits = 0 then digitsLength text else 2 + hexDigits
  if length = 0 then none else some (length + integerSuffix (text.drop length))

/-- The length of the rest of a string literal, its closing quote included. -/
def stringRest? : List Char → Option Nat
  | '"' :: _ => some 1
  | '\n' :: _ => none
  | '\\' :: c :: rest =>
    if c = '\n' then none else (stringRest? rest).map (· + 2)
  | '\\' :: [] => none
  | _ :: rest => (stringRest? rest).map (· + 1)
  | [] => none

def stringLength? : List Char → Option Nat
  | '"' :: rest => (stringRest? rest).map (· + 1)
  | _ => none

/-- Whether a quote follows `length` characters. -/
def closedAfter (length : Nat) (text : List Char) : Option Nat :=
  match text.drop length with
  | '\'' :: _ => some (length + 1)
  | _ => none

/-- The length of an escape behind its backslash, closing quote included: a code
in four hexadecimal digits, up to three octal digits, or any one character. -/
def escapedRest? (text : List Char) : Option Nat :=
  let unicode :=
    match text with
    | 'u' :: rest =>
      if 4 ≤ (rest.takeWhile isHexDigit).length then closedAfter 5 text else none
    | _ => none
  let octalDigits := ((text.take 3).takeWhile isOctalDigit).length
  let octal := if octalDigits = 0 then none else closedAfter octalDigits text
  let single :=
    match text with
    | c :: _ => if c = '\n' then none else closedAfter 1 text
    | [] => none
  unicode <|> octal <|> single

def characterLength? : List Char → Option Nat
  | '\'' :: '\\' :: rest => (escapedRest? rest).map (· + 2)
  | '\'' :: c :: rest =>
    if c = '\'' || c = '\n' then none else (closedAfter 1 (c :: rest)).map (· + 1)
  | _ => none

def nameLength? : List Char → Option Nat
  | c :: rest =>
    if isNameStart c then some ((rest.takeWhile isNamePart).length + 1) else none
  | [] => none

/-- The length of the rest of a block comment, its end included. -/
def blockRest? : List Char → Option Nat
  | '*' :: '/' :: _ => some 2
  | _ :: rest => (blockRest? rest).map (· + 1)
  | [] => none

/-- The length of a comment. A block comment that does not end is none. -/
def commentLength? : List Char → Option Nat
  | '/' :: '/' :: rest => some ((rest.takeWhile (· != '\n')).length + 2)
  | '/' :: '*' :: rest => (blockRest? rest).map (· + 2)
  | _ => none

def spaceLength? (text : List Char) : Option Nat :=
  let length := (text.takeWhile isSpace).length
  if length = 0 then none else some length

/-- The longest symbol at the start of a text. -/
def symbolAt? (text : List Char) : Option Symbol :=
  Symbol.all.foldl
    (fun best symbol =>
      if symbol.text.toList.isPrefixOf text then
        match best with
        | some other =>
          if other.text.length < symbol.text.length then some symbol else best
        | none => some symbol
      else best)
    none

/-! ### Lexemes -/

/-- The keyword that a word spells, or a name. -/
def wordLexeme (word : List Char) : Lexeme :=
  let text := String.ofList word
  match Keyword.ofText? text with
  | some keyword => .keyword keyword
  | none => .name text

/-- The lexeme at the start of a text and its length; blanks and comments are no
lexemes but have a length. -/
def scan (text : List Char) : Option (Option Lexeme × Nat) :=
  let taken (kind : List Char → Lexeme) (length : Nat) :
      Option (Option Lexeme × Nat) :=
    some (some (kind (text.take length)), length)
  match floatingLength? text with
  | some length => taken .floating length
  | none =>
    match spaceLength? text <|> commentLength? text with
    | some length => some (none, length)
    | none =>
      match integerLength? text with
      | some length => taken .integer length
      | none =>
        match stringLength? text with
        | some length => taken .string length
        | none =>
          match characterLength? text with
          | some length => taken .character length
          | none =>
            match nameLength? text with
            | some length => taken wordLexeme length
            | none =>
              (symbolAt? text).map fun symbol =>
                (some (.symbol symbol), symbol.text.length)

/-- A character that starts no lexeme. -/
structure IllegalCharacter where
  position : Position
  character : Char
deriving DecidableEq, Repr

/-- The tokens of a text, where `skip` characters still belong to the lexeme
found last. -/
def tokensFrom :
    (skip : Nat) → Position → List Char → Except IllegalCharacter (List Token)
  | _, _, [] => .ok []
  | skip + 1, position, c :: rest => tokensFrom skip (position.advance c) rest
  | 0, position, c :: rest =>
    match scan (c :: rest) with
    | none => .error ⟨position, c⟩
    | some (none, length) => tokensFrom (length - 1) (position.advance c) rest
    | some (some lexeme, length) =>
      (tokensFrom (length - 1) (position.advance c) rest).map
        (⟨lexeme, position⟩ :: ·)

/-- The tokens of a text. -/
def tokens (text : List Char) : Except IllegalCharacter (List Token) :=
  tokensFrom 0 Position.start text

end Formulary.Lexer
