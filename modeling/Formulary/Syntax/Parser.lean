/-
From tokens to syntax trees.

The parser reads a folded token list from left to right and never takes a token
back, so a list that is no body fails at the first token that no body continues
with: a failure holds the tokens from that one on, and none of them where the
list ends too early. Infix operators are read by their level, which is the higher
the tighter an operator binds; an `else` belongs to the nearest `if`.

Every function takes an amount of fuel that bounds the nesting of its calls.
`parse` gives more than the tokens can use up.
-/

import Formulary.Syntax.Fold
import Formulary.Syntax.Lexer
import Formulary.Syntax.Tree

namespace Formulary

/-- An expression as it is read, its literals unread and its types unknown. -/
abbrev SourceExpr := Expr Lexeme Unit

/-- A statement as it is read. -/
abbrev SourceStmt := Stmt Lexeme Unit

namespace Parser

/-- The tokens from the offending one on. -/
abbrev Failure := List Token

/-- An expression with its beginning, parentheses around it left out. `isOperand`
holds of what may stand before an assignment operator: unary expressions and
everything that binds tighter. -/
structure Reading where
  expr : SourceExpr
  start : Position
  isOperand : Bool

/-! ### Tokens -/

/-- The position of the first token. -/
def startOf : List Token → Position
  | [] => Position.start
  | token :: _ => token.position

/-- Reads one symbol. -/
def expectSymbol (symbol : Symbol) : List Token → Except Failure (List Token)
  | [] => .error []
  | token :: rest =>
    if token.lexeme = .symbol symbol then .ok rest else .error (token :: rest)

/-- Reads one keyword. -/
def expectKeyword (keyword : Keyword) :
    List Token → Except Failure (List Token)
  | [] => .error []
  | token :: rest =>
    if token.lexeme = .keyword keyword then .ok rest else .error (token :: rest)

/-- Reads one name. -/
def expectName : List Token → Except Failure ((String × Position) × List Token)
  | [] => .error []
  | token :: rest =>
    match token.lexeme with
    | .name text => .ok ((text, token.position), rest)
    | _ => .error (token :: rest)

/-- Whether a symbol comes next. -/
def comesNext (symbol : Symbol) : List Token → Bool
  | [] => false
  | token :: _ => token.lexeme == .symbol symbol

/-- The dots and names behind the first name of a dotted name. -/
def dottedRest : List Token → Except Failure (String × List Token)
  | dot :: part :: rest =>
    if dot.lexeme = .symbol .dot then
      match part.lexeme with
      | .name text =>
        (dottedRest rest).map fun (tail, after) => ("." ++ text ++ tail, after)
      | _ => .error (part :: rest)
    else .ok ("", dot :: part :: rest)
  | [dot] => if dot.lexeme = .symbol .dot then .error [] else .ok ("", [dot])
  | [] => .ok ("", [])

/-- Reads a dotted name as the name of a type. -/
def dottedName (tokens : List Token) : Except Failure (TypeName Unit × List Token) := do
  let ((first, position), rest) ← expectName tokens
  let (tail, rest) ← dottedRest rest
  return (⟨position, first ++ tail, ()⟩, rest)

/-- The type that a declaration may begin with. -/
def declaredType? : List Token → Option (TypeName Unit × List Token)
  | [] => none
  | token :: rest =>
    match token.lexeme with
    | .keyword (.primitive type) => some (⟨token.position, type.name, ()⟩, rest)
    | .declaredType name => some (⟨token.position, name, ()⟩, rest)
    | _ => none

/-! ### Operators -/

/-- What an infix operator builds. -/
inductive Infix where
  | binary (op : BinaryOp)
  | logical (op : LogicalOp)
  | instanceOf
deriving DecidableEq, Repr

/-- How tight a binary operator binds. -/
def binaryLevel : BinaryOp → Nat
  | .bitOr => 3
  | .bitXor => 4
  | .bitAnd => 5
  | .eq | .ne => 6
  | .lt | .gt | .le | .ge => 7
  | .shiftLeft | .shiftRight | .shiftRightUnsigned => 8
  | .add | .sub => 9
  | .mul | .div | .rem => 10

/-- The level of the operators that bind tightest. -/
def tightest : Nat := 10

/-- The infix operator that a lexeme writes, with its level. -/
def infix? : Lexeme → Option (Nat × Infix)
  | .symbol (.logical .or) => some (1, .logical .or)
  | .symbol (.logical .and) => some (2, .logical .and)
  | .symbol (.binary op) => some (binaryLevel op, .binary op)
  | .keyword .instanceofWord => some (7, .instanceOf)
  | _ => none

/-- The operator that a lexeme writes in front of its operand. -/
def prefixOp? : Lexeme → Option UnaryOp
  | .symbol (.binary .sub) => some .minus
  | .symbol (.binary .add) => some .plus
  | .symbol .bang => some .not
  | .symbol .tilde => some .complement
  | _ => none

/-- The assignment that a lexeme writes: plain, or with an operator. -/
def assignment? : Lexeme → Option (Option BinaryOp)
  | .symbol .assign => some none
  | .symbol (.compound op) => some (some op)
  | _ => none

/-- Whether a lexeme is a literal. -/
def isLiteral : Lexeme → Bool
  | .integer _ | .floating _ | .string _ | .character _ => true
  | .keyword .trueWord | .keyword .falseWord | .keyword .nullWord => true
  | _ => false

/-! ### Expressions -/

mutual

/-- An assignment, or an expression that binds tighter. -/
def expression : Nat → List Token → Except Failure (Reading × List Token)
  | 0, tokens => .error tokens
  | fuel + 1, tokens => do
    let (left, rest) ← conditional fuel tokens
    match left.isOperand, rest with
    | true, token :: after =>
      match assignment? token.lexeme with
      | some op =>
        let (value, rest) ← expression fuel after
        let start := startOf tokens
        return (⟨.assign start op left.expr value.expr, start, false⟩, rest)
      | none => return (left, rest)
    | _, _ => return (left, rest)

/-- A conditional expression, or one that binds tighter. -/
def conditional : Nat → List Token → Except Failure (Reading × List Token)
  | 0, tokens => .error tokens
  | fuel + 1, tokens => do
    let (condition, rest) ← infixes fuel 1 tokens
    if comesNext .question rest then
      let (thenValue, rest) ← expression fuel (rest.drop 1)
      let rest ← expectSymbol .colon rest
      let (elseValue, rest) ← conditional fuel rest
      let start := startOf tokens
      return (⟨.conditional start condition.expr thenValue.expr elseValue.expr, start,
        false⟩, rest)
    else return (condition, rest)

/-- Operands joined by infix operators of a level at least as high. -/
def infixes : Nat → (level : Nat) → List Token → Except Failure (Reading × List Token)
  | 0, _, tokens => .error tokens
  | fuel + 1, level, tokens => do
    let (left, rest) ← operand fuel tokens
    climb fuel level tightest (startOf tokens) left rest

/-- Joins what follows to the expression on the left, as long as infix operators
follow whose level is at least `level` and at most that of the left expression. -/
def climb : Nat → (level ceiling : Nat) → (start : Position) → (left : Reading) →
    List Token → Except Failure (Reading × List Token)
  | 0, _, _, _, _, tokens => .error tokens
  | _ + 1, _, _, _, left, [] => .ok (left, [])
  | fuel + 1, level, ceiling, start, left, token :: rest =>
    match infix? token.lexeme with
    | none => .ok (left, token :: rest)
    | some (tightness, op) =>
      if tightness < level || ceiling < tightness then .ok (left, token :: rest)
      else do
        match op with
        | .instanceOf =>
          let (type, rest) ← dottedName rest
          climb fuel level tightness start
            ⟨.instanceOf start left.expr type, start, false⟩ rest
        | .binary op =>
          let (right, rest) ← infixes fuel (tightness + 1) rest
          climb fuel level tightness start
            ⟨.binary token.position op left.expr right.expr, start, false⟩ rest
        | .logical op =>
          let (right, rest) ← infixes fuel (tightness + 1) rest
          climb fuel level tightness start
            ⟨.logical start op left.expr right.expr, start, false⟩ rest

/-- A unary expression: operators, steps and casts in front of a primary with its
members. -/
def operand : Nat → List Token → Except Failure (Reading × List Token)
  | 0, tokens => .error tokens
  | _ + 1, [] => .error []
  | fuel + 1, token :: rest => do
    let start := token.position
    match prefixOp? token.lexeme with
    | some op =>
      let (target, rest) ← operand fuel rest
      return (⟨.unary start op target.expr, start, true⟩, rest)
    | none =>
      match token.lexeme with
      | .symbol (.step op) =>
        let (target, rest) ← operand fuel rest
        return (⟨.step start op target.expr true, start, true⟩, rest)
      | .castType name =>
        let (target, rest) ← operand fuel rest
        return (⟨.cast start ⟨start, name, ()⟩ target.expr, start, true⟩, rest)
      | .symbol .leftParen =>
        match rest with
        | ⟨.keyword (.primitive type), position⟩ :: rest =>
          let rest ← expectSymbol .rightParen rest
          let (target, rest) ← operand fuel rest
          return (⟨.cast start ⟨position, type.name, ()⟩ target.expr, start, true⟩, rest)
        | _ => withMembers fuel (token :: rest)
      | _ => withMembers fuel (token :: rest)

/-- A primary and the members, calls, indices and steps behind it. -/
def withMembers : Nat → List Token → Except Failure (Reading × List Token)
  | 0, tokens => .error tokens
  | fuel + 1, tokens => do
    let (left, rest) ← primary fuel tokens
    members fuel (startOf tokens) left rest

/-- The members, calls, indices and steps behind an expression. -/
def members : Nat → (start : Position) → (left : Reading) → List Token →
    Except Failure (Reading × List Token)
  | 0, _, _, tokens => .error tokens
  | _ + 1, _, left, [] => .ok (left, [])
  | fuel + 1, start, left, token :: rest =>
    match token.lexeme with
    | .symbol .dot => do
      let ((name, position), rest) ← expectName rest
      if comesNext .leftParen rest then
        let (args, rest) ← arguments fuel (rest.drop 1)
        members fuel start
          ⟨.methodCall position left.expr name args, start, true⟩ rest
      else members fuel start ⟨.field position left.expr name, start, true⟩ rest
    | .symbol .leftBracket => do
      let (place, rest) ← expression fuel rest
      let rest ← expectSymbol .rightBracket rest
      members fuel start ⟨.index start left.expr place.expr, start, true⟩ rest
    | .symbol (.step op) =>
      members fuel start ⟨.step start op left.expr false, start, true⟩ rest
    | _ => .ok (left, token :: rest)

/-- A literal, a name, a call, an expression in parentheses or a new object. -/
def primary : Nat → List Token → Except Failure (Reading × List Token)
  | 0, tokens => .error tokens
  | _ + 1, [] => .error []
  | fuel + 1, token :: rest => do
    let start := token.position
    if isLiteral token.lexeme then
      return (⟨.literal start token.lexeme, start, true⟩, rest)
    else
      match token.lexeme with
      | .name text =>
        if comesNext .leftParen rest then
          let (args, rest) ← arguments fuel (rest.drop 1)
          return (⟨.call start ⟨start, text, ()⟩ args, start, true⟩, rest)
        else return (⟨.name start text, start, true⟩, rest)
      | .symbol .leftParen =>
        let (inner, rest) ← expression fuel rest
        let rest ← expectSymbol .rightParen rest
        return (⟨inner.expr, inner.start, true⟩, rest)
      | .keyword .newWord =>
        let (type, rest) ← dottedName rest
        let rest ← expectSymbol .leftParen rest
        let (args, rest) ← arguments fuel rest
        return (⟨.new start type args, start, true⟩, rest)
      | _ => .error (token :: rest)

/-- The arguments of a call, up to and with the closing parenthesis. -/
def arguments : Nat → List Token → Except Failure ((List SourceExpr) × List Token)
  | 0, tokens => .error tokens
  | fuel + 1, tokens => do
    if comesNext .rightParen tokens then return ([], tokens.drop 1)
    else
      let (values, rest) ← expressions fuel tokens
      let rest ← expectSymbol .rightParen rest
      return (values.map fun value => value.expr, rest)

/-- Expressions with commas between them. -/
def expressions : Nat → List Token → Except Failure ((List Reading) × List Token)
  | 0, tokens => .error tokens
  | fuel + 1, tokens => do
    let (first, rest) ← expression fuel tokens
    if comesNext .comma rest then
      let (others, rest) ← expressions fuel (rest.drop 1)
      return (first :: others, rest)
    else return ([first], rest)

end

/-! ### Declarations -/

/-- Declared names with commas between them. -/
def declarators :
    Nat → List Token → Except Failure (List (Declarator Lexeme Unit) × List Token)
  | 0, tokens => .error tokens
  | fuel + 1, tokens => do
    let ((name, position), rest) ← expectName tokens
    let (value, rest) ←
      if comesNext .assign rest then do
        let (value, rest) ← expression fuel (rest.drop 1)
        pure (some value.expr, rest)
      else pure (none, rest)
    let first := { position, name, value }
    if comesNext .comma rest then
      let (others, rest) ← declarators fuel (rest.drop 1)
      return (first :: others, rest)
    else return ([first], rest)

/-! ### Statements -/

/-- An expression in parentheses. -/
def parenthesized (fuel : Nat) (tokens : List Token) :
    Except Failure (SourceExpr × List Token) := do
  let rest ← expectSymbol .leftParen tokens
  let (value, rest) ← expression fuel rest
  let rest ← expectSymbol .rightParen rest
  return (value.expr, rest)

/-- What a `for` loop starts with, up to and with the first semicolon. -/
def forInit (fuel : Nat) (tokens : List Token) :
    Except Failure (ForInit Lexeme Unit × List Token) := do
  if comesNext .semicolon tokens then return (.none, tokens.drop 1)
  else
    match declaredType? tokens with
    | some (type, rest) =>
      let (names, rest) ← declarators fuel rest
      let rest ← expectSymbol .semicolon rest
      return (.declaration type.position type names, rest)
    | none =>
      let (values, rest) ← expressions fuel tokens
      let rest ← expectSymbol .semicolon rest
      return (.expressions (values.map fun value => (value.start, value.expr)), rest)

/-- The condition of a `for` loop, up to and with the second semicolon. -/
def forCondition (fuel : Nat) (tokens : List Token) :
    Except Failure ((Option SourceExpr) × List Token) := do
  if comesNext .semicolon tokens then return (none, tokens.drop 1)
  else
    let (value, rest) ← expression fuel tokens
    let rest ← expectSymbol .semicolon rest
    return (some value.expr, rest)

/-- The type, the name and the values of a loop over values, up to and with the
closing parenthesis; nothing where the header is one of another loop. -/
def forEachHeader? (fuel : Nat) (tokens : List Token) :
    Option (Except Failure ((TypeName Unit × String × SourceExpr) × List Token)) :=
  match declaredType? tokens with
  | none => none
  | some (type, rest) =>
    match expectName rest with
    | .error _ => none
    | .ok ((name, _), rest) =>
      if comesNext .colon rest then
        some do
          let (value, rest) ← expression fuel (rest.drop 1)
          let rest ← expectSymbol .rightParen rest
          return ((type, name, value.expr), rest)
      else none

mutual

/-- A statement. -/
def statement : Nat → List Token → Except Failure (SourceStmt × List Token)
  | 0, tokens => .error tokens
  | _ + 1, [] => .error []
  | fuel + 1, token :: rest => do
    let start := token.position
    match token.lexeme with
    | .symbol .leftBrace =>
      let (inner, rest) ← statementsToBrace fuel rest
      return (.block start inner, rest)
    | .symbol .semicolon => return (.empty start, rest)
    | .keyword .ifWord =>
      let (condition, rest) ← parenthesized fuel rest
      let (thenBranch, rest) ← statement fuel rest
      match rest with
      | ⟨.keyword .elseWord, _⟩ :: rest =>
        let (elseBranch, rest) ← statement fuel rest
        return (.ifThenElse start condition thenBranch elseBranch, rest)
      | _ => return (.ifThen start condition thenBranch, rest)
    | .keyword .whileWord =>
      let (condition, rest) ← parenthesized fuel rest
      let (body, rest) ← statement fuel rest
      return (.whileLoop start condition body, rest)
    | .keyword .doWord =>
      let (body, rest) ← statement fuel rest
      let rest ← expectKeyword .whileWord rest
      let (condition, rest) ← parenthesized fuel rest
      let rest ← expectSymbol .semicolon rest
      return (.doLoop start body condition, rest)
    | .keyword .forWord =>
      let rest ← expectSymbol .leftParen rest
      match forEachHeader? fuel rest with
      | some header =>
        let ((type, name, iterable), rest) ← header
        let (body, rest) ← statement fuel rest
        return (.forEach start type name iterable body, rest)
      | none =>
        let (init, rest) ← forInit fuel rest
        let (condition, rest) ← forCondition fuel rest
        let (update, rest) ← arguments fuel rest
        let (body, rest) ← statement fuel rest
        return (.forLoop start init condition update body, rest)
    | .keyword .returnWord =>
      if comesNext .semicolon rest then return (.returns start none, rest.drop 1)
      else
        let (value, rest) ← expression fuel rest
        let rest ← expectSymbol .semicolon rest
        return (.returns start (some value.expr), rest)
    | .keyword .breakWord =>
      let rest ← expectSymbol .semicolon rest
      return (.breaks start, rest)
    | .keyword .continueWord =>
      let rest ← expectSymbol .semicolon rest
      return (.continues start, rest)
    | _ =>
      match declaredType? (token :: rest) with
      | some (type, rest) =>
        let (names, rest) ← declarators fuel rest
        let rest ← expectSymbol .semicolon rest
        return (.declaration start type names, rest)
      | none =>
        let (value, rest) ← expression fuel (token :: rest)
        let rest ← expectSymbol .semicolon rest
        return (.expression start value.expr, rest)

/-- Statements up to and with a closing brace. -/
def statementsToBrace :
    Nat → List Token → Except Failure (List SourceStmt × List Token)
  | 0, tokens => .error tokens
  | fuel + 1, tokens => do
    if comesNext .rightBrace tokens then return ([], tokens.drop 1)
    else
      let (first, rest) ← statement fuel tokens
      let (others, rest) ← statementsToBrace fuel rest
      return (first :: others, rest)

end

/-- Statements up to the end of the tokens. -/
def statements : Nat → List Token → Except Failure (List SourceStmt)
  | _, [] => .ok []
  | 0, tokens => .error tokens
  | fuel + 1, tokens => do
    let (first, rest) ← statement fuel tokens
    return first :: (← statements fuel rest)

/-- Fuel for a token list: more than the nesting of calls on it. -/
def fuelFor (tokens : List Token) : Nat :=
  16 * (tokens.length + 1)

/-- The body that a folded token list writes. -/
def body (tokens : List Token) : Except Failure (List SourceStmt) :=
  statements (fuelFor tokens) tokens

end Parser

/-! ### Texts -/

/-- Why a text is no body. -/
inductive SyntaxError where
  | illegalCharacter (error : Lexer.IllegalCharacter)
  | unexpected (token : Token)
  /-- The text ends too early; the position is that of its last token. -/
  | endOfText (position : Position)
deriving DecidableEq, Repr

namespace SyntaxError

/-- The report of a syntax error. -/
def message : SyntaxError → List Char
  | .illegalCharacter error =>
    error.position.chars ++ ": illegal character '".toList ++ [error.character, '\'']
  | .unexpected token =>
    token.position.chars ++ ": illegal start of expression near '".toList ++
      token.lexeme.chars ++ ['\'']
  | .endOfText position =>
    position.chars ++ ": reached end of body while parsing".toList

/-- The syntax error of a token list whose reading failed at its rest. -/
def ofFailure (tokens : List Token) : (rest : List Token) → SyntaxError
  | token :: _ => .unexpected token
  | [] => .endOfText (tokens.getLast?.elim Position.start Token.position)

end SyntaxError

/-- The body that a text writes, literals unread. -/
def parseSource (text : List Char) : Except SyntaxError (List SourceStmt) :=
  match Lexer.tokens text with
  | .error error => .error (.illegalCharacter error)
  | .ok tokens =>
    let folded := Fold.fold tokens
    match Parser.body folded with
    | .error rest => .error (.ofFailure folded rest)
    | .ok statements => .ok statements

end Formulary
