/-
Tokens of the body language.

A token is a lexeme together with the position of its first character. Names,
keywords and symbols are told apart here; a literal keeps its spelling. The two
folded lexemes stand for a type name in parentheses and for a type name in front
of a declared name; they do not come from the text but from the folding of the
token list.
-/

import Formulary.Operator
import Formulary.Primitive

namespace Formulary

/-- A line and a column, both counted from one. -/
structure Position where
  line : Nat
  column : Nat
deriving DecidableEq, Repr

namespace Position

/-- The first position of a text. -/
def start : Position := ⟨1, 1⟩

/-- The position behind a character; only a line feed starts a line. -/
def advance (position : Position) (c : Char) : Position :=
  if c = '\n' then ⟨position.line + 1, 1⟩
  else ⟨position.line, position.column + 1⟩

/-- The text `line:column`. -/
def chars (position : Position) : List Char :=
  Nat.toDigits 10 position.line ++ ':' :: Nat.toDigits 10 position.column

end Position

/-- The keywords of the body language. -/
inductive Keyword where
  | primitive (type : Primitive)
  | ifWord
  | elseWord
  | whileWord
  | doWord
  | forWord
  | returnWord
  | breakWord
  | continueWord
  | instanceofWord
  | newWord
  | trueWord
  | falseWord
  | nullWord
deriving DecidableEq, Repr

namespace Keyword

def all : List Keyword :=
  Primitive.all.map primitive ++
    [.ifWord, .elseWord, .whileWord, .doWord, .forWord, .returnWord, .breakWord,
      .continueWord, .instanceofWord, .newWord, .trueWord, .falseWord, .nullWord]

def text : Keyword → String
  | .primitive type => type.name
  | .ifWord => "if"
  | .elseWord => "else"
  | .whileWord => "while"
  | .doWord => "do"
  | .forWord => "for"
  | .returnWord => "return"
  | .breakWord => "break"
  | .continueWord => "continue"
  | .instanceofWord => "instanceof"
  | .newWord => "new"
  | .trueWord => "true"
  | .falseWord => "false"
  | .nullWord => "null"

def ofText? (text : String) : Option Keyword :=
  all.find? fun keyword => keyword.text == text

end Keyword

/-- The symbols of the body language. -/
inductive Symbol where
  | binary (op : BinaryOp)
  | logical (op : LogicalOp)
  | step (op : StepOp)
  | assign
  | compound (op : BinaryOp)
  | bang
  | tilde
  | leftParen
  | rightParen
  | leftBrace
  | rightBrace
  | leftBracket
  | rightBracket
  | semicolon
  | comma
  | dot
  | colon
  | question
deriving DecidableEq, Repr

namespace Symbol

/-- The operators that have a compound assignment. -/
def compoundOps : List BinaryOp :=
  [.add, .sub, .mul, .div, .rem, .bitAnd, .bitOr, .bitXor, .shiftLeft, .shiftRight,
    .shiftRightUnsigned]

def all : List Symbol :=
  BinaryOp.all.map binary ++ [.logical .and, .logical .or] ++
    [.step .increment, .step .decrement, .assign] ++ compoundOps.map compound ++
    [.bang, .tilde, .leftParen, .rightParen, .leftBrace, .rightBrace, .leftBracket,
      .rightBracket, .semicolon, .comma, .dot, .colon, .question]

def text : Symbol → String
  | .binary op => op.symbol
  | .logical op => op.symbol
  | .step op => op.symbol
  | .assign => "="
  | .compound op => op.symbol ++ "="
  | .bang => "!"
  | .tilde => "~"
  | .leftParen => "("
  | .rightParen => ")"
  | .leftBrace => "\x7b"
  | .rightBrace => "\x7d"
  | .leftBracket => "["
  | .rightBracket => "]"
  | .semicolon => ";"
  | .comma => ","
  | .dot => "."
  | .colon => ":"
  | .question => "?"

end Symbol

/-- What a token is. Literals keep their spelling, quotes included. -/
inductive Lexeme where
  | name (text : String)
  | keyword (word : Keyword)
  | symbol (mark : Symbol)
  | integer (spelling : List Char)
  | floating (spelling : List Char)
  | string (spelling : List Char)
  | character (spelling : List Char)
  /-- A type name in parentheses in front of an operand. -/
  | castType (type : String)
  /-- A type name in front of a declared name. -/
  | declaredType (type : String)
deriving DecidableEq, Repr

/-- The text of a token, as a report about it shows it. -/
def Lexeme.chars : Lexeme → List Char
  | .name text => text.toList
  | .keyword word => word.text.toList
  | .symbol mark => mark.text.toList
  | .integer spelling => spelling
  | .floating spelling => spelling
  | .string spelling => spelling
  | .character spelling => spelling
  | .castType type => type.toList
  | .declaredType type => type.toList

/-- A lexeme and where it begins. -/
structure Token where
  lexeme : Lexeme
  position : Position
deriving DecidableEq, Repr

end Formulary
