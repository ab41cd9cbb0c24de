/-
Expressions as text.

An expression is written as its lexemes with single blanks between them. An operand gets
parentheses where the grammar has no room for it without, and nowhere else, but for one place: a
sign behind a type name in parentheses would make an infix operator of it, so that what is cast
to a named type and begins with a sign gets parentheses as well.

* `bare`, `spelledOut`, `printed` — the lexemes of an expression, a cast being one of them, all
  of them, and its text.
* `Printable` — which expressions can be written.
-/

import Formulary.Proofs.Grammar
import Formulary.Syntax.Literal

namespace Formulary

/-! ### Literals -/

/-- Which lexemes spell which values. Integers are written in decimal digits, no more of them
than are taken; a text may be spelled in any way. -/
inductive Spells : Lexeme → Value → Prop
  | int {n : Nat} (short : (Nat.toDigits 10 n).length ≤ maxDigits) :
      Spells (.integer (Nat.toDigits 10 n)) (.int n)
  | long {n : Nat} {suffix : Char} (short : (Nat.toDigits 10 n).length ≤ maxDigits)
      (isLong : Literal.isLongSuffix suffix = true) :
      Spells (.integer (Nat.toDigits 10 n ++ [suffix])) (.long n)
  | string {spelling : List Char} {codes : Codes}
      (closed : Lexer.stringLength? spelling = some spelling.length)
      (denotes : Literal.quoted spelling = .ok codes) :
      Spells (.string spelling) (.str codes)
  | trueWord : Spells (.keyword .trueWord) (.bool true)
  | falseWord : Spells (.keyword .falseWord) (.bool false)
  | nullWord : Spells (.keyword .nullWord) .null

/-- A value and how it is spelled. -/
structure Spelled where
  lexeme : Lexeme
  value : Value
  spells : Spells lexeme value

/-- An expression whose literals are values with their spellings. -/
abbrev PrintedExpr := Expr Spelled Unit

namespace Printing

open Grammar

/-! ### Names -/

/-- A text that is a name and no keyword. -/
structure IsIdentifier (text : String) : Prop where
  isName : ∃ first rest, text.toList = first :: rest ∧ Lexer.isNameStart first = true ∧
    ∀ c ∈ rest, Lexer.isNamePart c = true
  noKeyword : Keyword.ofText? text = none

theorem isIdentifier_iff (text : String) : IsIdentifier text ↔
    text.toList.head?.any Lexer.isNameStart = true ∧
      text.toList.tail.all Lexer.isNamePart = true ∧ Keyword.ofText? text = none := by
  constructor
  · rintro ⟨⟨first, rest, chars, begins, parts⟩, noKeyword⟩
    rw [chars]
    exact ⟨begins, List.all_eq_true.mpr parts, noKeyword⟩
  · rintro ⟨begins, parts, noKeyword⟩
    obtain ⟨first, isFirst, begins⟩ := (Option.any_eq_true _ _).mp begins
    obtain ⟨rest, chars⟩ := List.head?_eq_some_iff.mp isFirst
    rw [chars] at parts
    exact ⟨⟨first, rest, chars, begins, List.all_eq_true.mp parts⟩, noKeyword⟩

instance : DecidablePred IsIdentifier :=
  fun text => decidable_of_iff _ (isIdentifier_iff text).symm

/-- The names that the points of a type name separate. -/
def nameParts (name : String) : List String :=
  (name.toList.splitOn '.').map String.ofList

/-- The name of a type that is no primitive one. -/
def IsTypeName (name : String) : Prop :=
  ∀ part ∈ nameParts name, IsIdentifier part

instance : DecidablePred IsTypeName :=
  fun name => inferInstanceAs (Decidable (∀ part ∈ nameParts name, IsIdentifier part))

/-- The lexemes of names with points between them. -/
def dotted : List String → List Lexeme
  | [] => []
  | part :: more => .name part :: more.flatMap fun other => [.symbol .dot, .name other]

/-! ### Levels -/

/-- How tight a part of an expression holds together. -/
def tightness : Phrase → Nat
  | .expression => 0
  | .conditional => 1
  | .infixes level => level + 1
  | .unary => operandLevel + 1
  | .suffixed => operandLevel + 2
  | .primary => operandLevel + 3

/-- The level of a logical operator. -/
def logicalLevel : LogicalOp → Nat
  | .or => 1
  | .and => 2

/-- What an expression is for the grammar. -/
def phraseOf {α τ : Type} : Expr α τ → Phrase
  | .assign .. => .expression
  | .conditional .. => .conditional
  | .logical _ op _ _ => .infixes (logicalLevel op)
  | .binary _ op _ _ => .infixes (Parser.binaryLevel op)
  | .instanceOf .. => .infixes comparison
  | .unary .. | .cast .. | .step _ _ _ true => .unary
  | .step _ _ _ false | .field .. | .methodCall .. | .index .. => .suffixed
  | .literal .. | .name .. | .typeName .. | .call .. | .new .. => .primary

/-! ### Lexemes -/

/-- Lexemes in parentheses. -/
def parenthesized (inner : List Lexeme) : List Lexeme :=
  .symbol .leftParen :: (inner ++ [.symbol .rightParen])

/-- What is written of an expression where the grammar has a phrase: parentheses stand around an
expression that is looser than the phrase. -/
def within (phrase : Phrase) (e : PrintedExpr) (written : List Lexeme) : List Lexeme :=
  if tightness (phraseOf e) < tightness phrase then parenthesized written else written

/-- Whether lexemes begin with a sign or a step. -/
def beginsSigned : List Lexeme → Bool
  | .symbol (.binary .add) :: _ | .symbol (.binary .sub) :: _ | .symbol (.step _) :: _ => true
  | _ => false

/-- What is written behind a cast to a named type. -/
def guarded (operand : List Lexeme) : List Lexeme :=
  if beginsSigned operand then parenthesized operand else operand

/-- The symbol of an operator in front of its operand. -/
def unaryMark : UnaryOp → Symbol
  | .minus => .binary .sub
  | .plus => .binary .add
  | .not => .bang
  | .complement => .tilde

/-- The symbol of an assignment. -/
def assignMark : Option BinaryOp → Symbol
  | none => .assign
  | some op => .compound op

mutual

/-- The lexemes of an expression, a cast to a named type being a single one. -/
def bare : PrintedExpr → List Lexeme
  | .literal _ literal => [literal.lexeme]
  | .name _ ident => [.name ident]
  | .typeName _ type => dotted (nameParts type.name)
  | .field _ receiver member =>
    within .suffixed receiver (bare receiver) ++ [.symbol .dot, .name member]
  | .methodCall _ receiver method args =>
    within .suffixed receiver (bare receiver) ++
      .symbol .dot :: .name method :: parenthesized (bareAll args)
  | .call _ callee args => .name callee.name :: parenthesized (bareAll args)
  | .index _ container place =>
    within .suffixed container (bare container) ++
      .symbol .leftBracket :: (bare place ++ [.symbol .rightBracket])
  | .unary _ op operand => .symbol (unaryMark op) :: within .unary operand (bare operand)
  | .step _ op target true => .symbol (.step op) :: within .unary target (bare target)
  | .step _ op target false => within .suffixed target (bare target) ++ [.symbol (.step op)]
  | .binary _ op left right =>
    within (.infixes (Parser.binaryLevel op)) left (bare left) ++
      .symbol (.binary op) ::
        within (.infixes (Parser.binaryLevel op + 1)) right (bare right)
  | .logical _ op left right =>
    within (.infixes (logicalLevel op)) left (bare left) ++
      .symbol (.logical op) :: within (.infixes (logicalLevel op + 1)) right (bare right)
  | .conditional _ condition thenValue elseValue =>
    within (.infixes 1) condition (bare condition) ++
      .symbol .question :: (bare thenValue ++
        .symbol .colon :: within .conditional elseValue (bare elseValue))
  | .assign _ op target value =>
    within .unary target (bare target) ++ .symbol (assignMark op) :: bare value
  | .cast _ type operand =>
    match Primitive.ofName? type.name with
    | some primitive =>
      parenthesized [.keyword (.primitive primitive)] ++ within .unary operand (bare operand)
    | none => .castType type.name :: guarded (within .unary operand (bare operand))
  | .instanceOf _ value type =>
    within (.infixes comparison) value (bare value) ++
      .keyword .instanceofWord :: dotted (nameParts type.name)
  | .new _ type args =>
    .keyword .newWord :: (dotted (nameParts type.name) ++ parenthesized (bareAll args))

/-- Expressions with commas between them. -/
def bareAll : List PrintedExpr → List Lexeme
  | [] => []
  | [e] => bare e
  | e :: more => bare e ++ .symbol .comma :: bareAll more

end

/-- The lexemes that a lexeme is written with: a cast is a type name in parentheses. -/
def writtenOut : Lexeme → List Lexeme
  | .castType name => parenthesized (dotted (nameParts name))
  | lexeme => [lexeme]

/-- All lexemes of an expression. -/
def spelledOut (e : PrintedExpr) : List Lexeme :=
  (bare e).flatMap writtenOut

/-- Lexemes with single blanks between them. -/
def spaced (lexemes : List Lexeme) : List Char :=
  [' '].intercalate (lexemes.map Lexeme.chars)

/-- The text that returns an expression. -/
def printed (e : PrintedExpr) : List Char :=
  spaced (.keyword .returnWord :: (spelledOut e ++ [.symbol .semicolon]))

/-! ### Expressions that can be written -/

mutual

/-- The expressions of the body language: all names are identifiers, an assignment has its
symbol, and no expression is a type. -/
def Printable : PrintedExpr → Prop
  | .literal .. => True
  | .name _ ident => IsIdentifier ident
  | .typeName .. => False
  | .field _ receiver member => Printable receiver ∧ IsIdentifier member
  | .methodCall _ receiver method args =>
    Printable receiver ∧ IsIdentifier method ∧ AllPrintable args
  | .call _ callee args => IsIdentifier callee.name ∧ AllPrintable args
  | .index _ container place => Printable container ∧ Printable place
  | .unary _ _ operand => Printable operand
  | .step _ _ target _ => Printable target
  | .binary _ _ left right => Printable left ∧ Printable right
  | .logical _ _ left right => Printable left ∧ Printable right
  | .conditional _ condition thenValue elseValue =>
    Printable condition ∧ Printable thenValue ∧ Printable elseValue
  | .assign _ op target value =>
    (∀ compound ∈ op, compound ∈ Symbol.compoundOps) ∧ Printable target ∧ Printable value
  | .cast _ type operand =>
    ((Primitive.ofName? type.name).isSome ∨ IsTypeName type.name) ∧ Printable operand
  | .instanceOf _ value type => Printable value ∧ IsTypeName type.name
  | .new _ type args => IsTypeName type.name ∧ AllPrintable args

def AllPrintable : List PrintedExpr → Prop
  | [] => True
  | e :: more => Printable e ∧ AllPrintable more

end

end Printing

end Formulary
