/-
Folding of type names into single tokens.

`( a.b.C )` in front of an operand becomes one token, which makes it a cast, and
`a.b.C` in front of a name becomes one token, which makes it the type of a
declaration. Behind a name, and behind the keywords that a condition follows, a
parenthesis opens no cast. The choice looks at tokens only.
-/

import Formulary.Syntax.Token

namespace Formulary.Fold

/-- The parts of a dotted name behind its first name: dots and names in turn. -/
def dottedRest : List Token → List Token × List Token
  | dot :: part :: rest =>
    match dot.lexeme, part.lexeme with
    | .symbol .dot, .name _ =>
      let (parts, after) := dottedRest rest
      (dot :: part :: parts, after)
    | _, _ => ([], dot :: part :: rest)
  | rest => ([], rest)

/-- The dotted name at the start of a token list and what follows it. -/
def dottedName? : List Token → Option (List Token × List Token)
  | [] => none
  | first :: rest =>
    match first.lexeme with
    | .name _ =>
      let (parts, after) := dottedRest rest
      some (first :: parts, after)
    | _ => none

/-- The text of a dotted name. -/
def joined (parts : List Token) : String :=
  String.ofList (parts.flatMap fun part => part.lexeme.chars)

/-- Whether an operand may start with a token. -/
def startsOperand (token : Token) : Bool :=
  match token.lexeme with
  | .name _ | .integer _ | .floating _ | .string _ | .character _ => true
  | .symbol .leftParen | .symbol .bang | .symbol .tilde => true
  | .keyword .newWord | .keyword .trueWord | .keyword .falseWord
  | .keyword .nullWord => true
  | _ => false

/-- Whether a parenthesis behind `previous` may open a cast. -/
def castMayFollow (previous : Option Token) : Bool :=
  match previous with
  | none => true
  | some token =>
    match token.lexeme with
    | .name _ => false
    | .keyword .ifWord | .keyword .whileWord | .keyword .forWord => false
    | _ => true

/-- The token for a cast at the start of a token list and how many tokens it
folds. -/
def castAt? (previous : Option Token) : List Token → Option (Token × Nat)
  | [] => none
  | paren :: rest =>
    if paren.lexeme = .symbol .leftParen && castMayFollow previous then
      match dottedName? rest with
      | some (parts, closing :: operand :: _) =>
        if closing.lexeme = .symbol .rightParen && startsOperand operand then
          parts.head?.map fun first =>
            (⟨.castType (joined parts), first.position⟩, parts.length + 2)
        else none
      | _ => none
    else none

/-- The token for a declared type at the start of a token list and how many
tokens it folds. -/
def declaredAt? (tokens : List Token) : Option (Token × Nat) :=
  match dottedName? tokens with
  | some (parts, next :: _) =>
    match next.lexeme with
    | .name _ =>
      parts.head?.map fun first =>
        (⟨.declaredType (joined parts), first.position⟩, parts.length)
    | _ => none
  | _ => none

/-- Folds a token list, where `skip` tokens still belong to the token folded last
and `previous` is the token in front. -/
def foldFrom : (skip : Nat) → (previous : Option Token) → List Token → List Token
  | _, _, [] => []
  | skip + 1, _, token :: rest => foldFrom skip (some token) rest
  | 0, previous, token :: rest =>
    match castAt? previous (token :: rest) <|> declaredAt? (token :: rest) with
    | some (folded, count) => folded :: foldFrom (count - 1) (some token) rest
    | none => token :: foldFrom 0 (some token) rest

/-- Folds the type names of a token list. -/
def fold (tokens : List Token) : List Token :=
  foldFrom 0 none tokens

end Formulary.Fold
