/-
The grammar of bodies.

The grammar says which token lists are bodies and which trees they write. It knows nothing of
how a list is read: `Derives` has one rule for each way to make up an expression, with the
levels of the infix operators as a table, and `Statement` one for each way to make up a
statement. An `if` inside of another one leaves it open which of them an `else` belongs to;
`NearestElse` holds of the trees in which it is the nearest one.

* `Derives.nonempty`, `Derives.opens` — an expression begins with a token that opens one.
* `Derives.lower` — what is an operand of a tight operator is one of a looser operator.
-/

import Formulary.Syntax.Parser
import Mathlib

namespace Formulary.Grammar

open Formulary.Parser (startOf)

/-! ### Tables -/

/-- The infix operators of a level. Operators of a higher level bind tighter. -/
def operators : Nat → List Symbol
  | 1 => [.logical .or]
  | 2 => [.logical .and]
  | 3 => [.binary .bitOr]
  | 4 => [.binary .bitXor]
  | 5 => [.binary .bitAnd]
  | 6 => [.binary .eq, .binary .ne]
  | 7 => [.binary .lt, .binary .gt, .binary .le, .binary .ge]
  | 8 => [.binary .shiftLeft, .binary .shiftRight, .binary .shiftRightUnsigned]
  | 9 => [.binary .add, .binary .sub]
  | 10 => [.binary .mul, .binary .div, .binary .rem]
  | _ => []

/-- The level of comparisons, which `instanceof` belongs to as well. -/
def comparison : Nat := 7

/-- The level of operands that stand beside the tightest infix operators. -/
def operandLevel : Nat := 11

/-- The operators that stand before their operand. -/
def unaryOperators : List (Symbol × UnaryOp) :=
  [(.binary .sub, .minus), (.binary .add, .plus), (.bang, .not), (.tilde, .complement)]

/-- The assignments: the plain one, and one for each operator that has a compound one. -/
def assignments : List (Symbol × Option BinaryOp) :=
  (.assign, none) :: Symbol.compoundOps.map fun op => (.compound op, some op)

/-- The lexemes that are literals. -/
inductive IsLiteral : Lexeme → Prop
  | floating (spelling : List Char) : IsLiteral (.floating spelling)
  | integer (spelling : List Char) : IsLiteral (.integer spelling)
  | string (spelling : List Char) : IsLiteral (.string spelling)
  | character (spelling : List Char) : IsLiteral (.character spelling)
  | trueWord : IsLiteral (.keyword .trueWord)
  | falseWord : IsLiteral (.keyword .falseWord)
  | nullWord : IsLiteral (.keyword .nullWord)

/-! ### Names -/

/-- Dots and names in turn, and the text that they write. -/
inductive DottedRest : List Token → String → Prop
  | nil : DottedRest [] ""
  | cons {p q : Position} {part tail : String} {rest : List Token} :
      DottedRest rest tail →
      DottedRest (⟨.symbol .dot, p⟩ :: ⟨.name part, q⟩ :: rest) ("." ++ part ++ tail)

/-- A dotted name as the name of a type. -/
inductive Dotted : List Token → TypeName Unit → Prop
  | mk {p : Position} {first tail : String} {rest : List Token} :
      DottedRest rest tail → Dotted (⟨.name first, p⟩ :: rest) ⟨p, first ++ tail, ()⟩

/-- Lists of tokens with a comma between each and the next. -/
inductive Separated : List (List Token) → List Token → Prop
  | nil : Separated [] []
  | one (tokens : List Token) : Separated [tokens] tokens
  | cons {p : Position} {first second joined : List Token} {more : List (List Token)} :
      Separated (second :: more) joined →
      Separated (first :: second :: more) (first ++ ⟨.symbol .comma, p⟩ :: joined)

/-! ### Expressions -/

/-- The parts of expressions. -/
inductive Phrase where
  | expression
  | conditional
  /-- Operands joined by infix operators of at least a level. -/
  | infixes (level : Nat)
  | unary
  /-- A primary with the members, calls, indices and steps behind it. -/
  | suffixed
  | primary
deriving DecidableEq, Repr

/-- An expression and where it begins, parentheses around it left out. -/
structure Parsed where
  expr : SourceExpr
  start : Position

/-- Which tokens write which expression. -/
inductive Derives : Phrase → List Token → Parsed → Prop
  | unassigned {tokens : List Token} {v : Parsed} :
      Derives .conditional tokens v → Derives .expression tokens v
  | assign {left right : List Token} {target value : Parsed} {mark : Symbol}
      {op : Option BinaryOp} {p : Position} :
      Derives .unary left target → (mark, op) ∈ assignments →
      Derives .expression right value →
      Derives .expression (left ++ ⟨.symbol mark, p⟩ :: right)
        ⟨.assign (startOf left) op target.expr value.expr, startOf left⟩
  | unconditional {tokens : List Token} {v : Parsed} :
      Derives (.infixes 1) tokens v → Derives .conditional tokens v
  | conditional {first second third : List Token} {condition thenValue elseValue : Parsed}
      {p q : Position} :
      Derives (.infixes 1) first condition → Derives .expression second thenValue →
      Derives .conditional third elseValue →
      Derives .conditional
        (first ++ ⟨.symbol .question, p⟩ :: (second ++ ⟨.symbol .colon, q⟩ :: third))
        ⟨.conditional (startOf first) condition.expr thenValue.expr elseValue.expr,
          startOf first⟩
  | tighter {level : Nat} {tokens : List Token} {v : Parsed} :
      Derives (.infixes (level + 1)) tokens v → Derives (.infixes level) tokens v
  | binary {level : Nat} {left right : List Token} {a b : Parsed} {op : BinaryOp}
      {p : Position} :
      Derives (.infixes level) left a → .binary op ∈ operators level →
      Derives (.infixes (level + 1)) right b →
      Derives (.infixes level) (left ++ ⟨.symbol (.binary op), p⟩ :: right)
        ⟨.binary p op a.expr b.expr, startOf left⟩
  | logical {level : Nat} {left right : List Token} {a b : Parsed} {op : LogicalOp}
      {p : Position} :
      Derives (.infixes level) left a → .logical op ∈ operators level →
      Derives (.infixes (level + 1)) right b →
      Derives (.infixes level) (left ++ ⟨.symbol (.logical op), p⟩ :: right)
        ⟨.logical (startOf left) op a.expr b.expr, startOf left⟩
  | instanceOf {left name : List Token} {a : Parsed} {type : TypeName Unit} {p : Position} :
      Derives (.infixes comparison) left a → Dotted name type →
      Derives (.infixes comparison) (left ++ ⟨.keyword .instanceofWord, p⟩ :: name)
        ⟨.instanceOf (startOf left) a.expr type, startOf left⟩
  | operand {tokens : List Token} {v : Parsed} :
      Derives .unary tokens v → Derives (.infixes operandLevel) tokens v
  | unary {tokens : List Token} {v : Parsed} {mark : Symbol} {op : UnaryOp} {p : Position} :
      (mark, op) ∈ unaryOperators → Derives .unary tokens v →
      Derives .unary (⟨.symbol mark, p⟩ :: tokens) ⟨.unary p op v.expr, p⟩
  | stepBefore {tokens : List Token} {v : Parsed} {op : StepOp} {p : Position} :
      Derives .unary tokens v →
      Derives .unary (⟨.symbol (.step op), p⟩ :: tokens) ⟨.step p op v.expr true, p⟩
  | castReference {tokens : List Token} {v : Parsed} {name : String} {p : Position} :
      Derives .unary tokens v →
      Derives .unary (⟨.castType name, p⟩ :: tokens) ⟨.cast p ⟨p, name, ()⟩ v.expr, p⟩
  | castPrimitive {tokens : List Token} {v : Parsed} {type : Primitive} {p q r : Position} :
      Derives .unary tokens v →
      Derives .unary
        (⟨.symbol .leftParen, p⟩ :: ⟨.keyword (.primitive type), q⟩ ::
          ⟨.symbol .rightParen, r⟩ :: tokens)
        ⟨.cast p ⟨q, type.name, ()⟩ v.expr, p⟩
  | unadorned {tokens : List Token} {v : Parsed} :
      Derives .suffixed tokens v → Derives .unary tokens v
  | field {tokens : List Token} {v : Parsed} {member : String} {p q : Position} :
      Derives .suffixed tokens v →
      Derives .suffixed (tokens ++ [⟨.symbol .dot, p⟩, ⟨.name member, q⟩])
        ⟨.field q v.expr member, startOf tokens⟩
  | methodCall {tokens inner : List Token} {v : Parsed} {args : List (List Token × Parsed)}
      {method : String} {p q r s : Position} :
      Derives .suffixed tokens v → (∀ arg ∈ args, Derives .expression arg.1 arg.2) →
      Separated (args.map Prod.fst) inner →
      Derives .suffixed
        (tokens ++ ⟨.symbol .dot, p⟩ :: ⟨.name method, q⟩ :: ⟨.symbol .leftParen, r⟩ ::
          (inner ++ [⟨.symbol .rightParen, s⟩]))
        ⟨.methodCall q v.expr method (args.map (·.2.expr)), startOf tokens⟩
  | index {tokens inner : List Token} {v place : Parsed} {p q : Position} :
      Derives .suffixed tokens v → Derives .expression inner place →
      Derives .suffixed
        (tokens ++ ⟨.symbol .leftBracket, p⟩ :: (inner ++ [⟨.symbol .rightBracket, q⟩]))
        ⟨.index (startOf tokens) v.expr place.expr, startOf tokens⟩
  | stepBehind {tokens : List Token} {v : Parsed} {op : StepOp} {p : Position} :
      Derives .suffixed tokens v →
      Derives .suffixed (tokens ++ [⟨.symbol (.step op), p⟩])
        ⟨.step (startOf tokens) op v.expr false, startOf tokens⟩
  | unsuffixed {tokens : List Token} {v : Parsed} :
      Derives .primary tokens v → Derives .suffixed tokens v
  | literal {lexeme : Lexeme} {p : Position} :
      IsLiteral lexeme → Derives .primary [⟨lexeme, p⟩] ⟨.literal p lexeme, p⟩
  | name {text : String} {p : Position} :
      Derives .primary [⟨.name text, p⟩] ⟨.name p text, p⟩
  | call {inner : List Token} {args : List (List Token × Parsed)} {text : String}
      {p q r : Position} :
      (∀ arg ∈ args, Derives .expression arg.1 arg.2) →
      Separated (args.map Prod.fst) inner →
      Derives .primary
        (⟨.name text, p⟩ :: ⟨.symbol .leftParen, q⟩ :: (inner ++ [⟨.symbol .rightParen, r⟩]))
        ⟨.call p ⟨p, text, ()⟩ (args.map (·.2.expr)), p⟩
  | parentheses {inner : List Token} {v : Parsed} {p q : Position} :
      Derives .expression inner v →
      Derives .primary (⟨.symbol .leftParen, p⟩ :: (inner ++ [⟨.symbol .rightParen, q⟩])) v
  | new {name inner : List Token} {type : TypeName Unit} {args : List (List Token × Parsed)}
      {p q r : Position} :
      Dotted name type → (∀ arg ∈ args, Derives .expression arg.1 arg.2) →
      Separated (args.map Prod.fst) inner →
      Derives .primary
        (⟨.keyword .newWord, p⟩ ::
          (name ++ ⟨.symbol .leftParen, q⟩ :: (inner ++ [⟨.symbol .rightParen, r⟩])))
        ⟨.new p type (args.map (·.2.expr)), p⟩

/-! ### Declarations -/

/-- A type that a declaration may begin with. -/
inductive DeclaredType : Token → TypeName Unit → Prop
  | primitive (type : Primitive) (p : Position) :
      DeclaredType ⟨.keyword (.primitive type), p⟩ ⟨p, type.name, ()⟩
  | reference (name : String) (p : Position) :
      DeclaredType ⟨.declaredType name, p⟩ ⟨p, name, ()⟩

/-- A declared name, with an initial value or without one. -/
inductive Declares : List Token → Declarator Lexeme Unit → Prop
  | bare (name : String) (p : Position) : Declares [⟨.name name, p⟩] ⟨p, name, none⟩
  | initial {name : String} {p q : Position} {tokens : List Token} {value : Parsed} :
      Derives .expression tokens value →
      Declares (⟨.name name, p⟩ :: ⟨.symbol .assign, q⟩ :: tokens) ⟨p, name, some value.expr⟩

/-- Declared names with commas between them, at least one. -/
def Declarators (tokens : List Token) (names : List (Declarator Lexeme Unit)) : Prop :=
  ∃ parts : List (List Token × Declarator Lexeme Unit), parts ≠ [] ∧
    (∀ part ∈ parts, Declares part.1 part.2) ∧ Separated (parts.map Prod.fst) tokens ∧
    names = parts.map Prod.snd

/-- Expressions with commas between them. -/
def Expressions (tokens : List Token) (values : List Parsed) : Prop :=
  ∃ parts : List (List Token × Parsed), (∀ part ∈ parts, Derives .expression part.1 part.2) ∧
    Separated (parts.map Prod.fst) tokens ∧ values = parts.map Prod.snd

/-- What a `for` loop starts with. -/
inductive Initial : List Token → ForInit Lexeme Unit → Prop
  | none : Initial [] .none
  | declaration {token : Token} {type : TypeName Unit} {tokens : List Token}
      {names : List (Declarator Lexeme Unit)} :
      DeclaredType token type → Declarators tokens names →
      Initial (token :: tokens) (.declaration type.position type names)
  | expressions {tokens : List Token} {values : List Parsed} :
      values ≠ [] → Expressions tokens values →
      Initial tokens (.expressions (values.map fun value => (value.start, value.expr)))

/-- An expression that may be left out. -/
inductive Optional : List Token → Option SourceExpr → Prop
  | none : Optional [] none
  | some {tokens : List Token} {value : Parsed} :
      Derives .expression tokens value → Optional tokens (some value.expr)

/-! ### Statements -/

/-- Which tokens write which statement. -/
inductive Statement : List Token → SourceStmt → Prop
  | block {parts : List (List Token × SourceStmt)} {p q : Position} :
      (∀ part ∈ parts, Statement part.1 part.2) →
      Statement (⟨.symbol .leftBrace, p⟩ :: (parts.flatMap Prod.fst ++ [⟨.symbol .rightBrace, q⟩]))
        (.block p (parts.map Prod.snd))
  | empty (p : Position) : Statement [⟨.symbol .semicolon, p⟩] (.empty p)
  | declaration {token : Token} {type : TypeName Unit} {tokens : List Token}
      {names : List (Declarator Lexeme Unit)} {p : Position} :
      DeclaredType token type → Declarators tokens names →
      Statement (token :: (tokens ++ [⟨.symbol .semicolon, p⟩]))
        (.declaration token.position type names)
  | expression {tokens : List Token} {value : Parsed} {p : Position} :
      Derives .expression tokens value →
      Statement (tokens ++ [⟨.symbol .semicolon, p⟩])
        (.expression (startOf tokens) value.expr)
  | ifThen {test branch : List Token} {condition : Parsed} {thenBranch : SourceStmt}
      {p q r : Position} :
      Derives .expression test condition → Statement branch thenBranch →
      Statement
        (⟨.keyword .ifWord, p⟩ :: ⟨.symbol .leftParen, q⟩ ::
          (test ++ ⟨.symbol .rightParen, r⟩ :: branch))
        (.ifThen p condition.expr thenBranch)
  | ifThenElse {test branch other : List Token} {condition : Parsed}
      {thenBranch elseBranch : SourceStmt} {p q r s : Position} :
      Derives .expression test condition → Statement branch thenBranch →
      Statement other elseBranch →
      Statement
        (⟨.keyword .ifWord, p⟩ :: ⟨.symbol .leftParen, q⟩ ::
          (test ++ ⟨.symbol .rightParen, r⟩ :: (branch ++ ⟨.keyword .elseWord, s⟩ :: other)))
        (.ifThenElse p condition.expr thenBranch elseBranch)
  | whileLoop {test inner : List Token} {condition : Parsed} {body : SourceStmt}
      {p q r : Position} :
      Derives .expression test condition → Statement inner body →
      Statement
        (⟨.keyword .whileWord, p⟩ :: ⟨.symbol .leftParen, q⟩ ::
          (test ++ ⟨.symbol .rightParen, r⟩ :: inner))
        (.whileLoop p condition.expr body)
  | doLoop {test inner : List Token} {condition : Parsed} {body : SourceStmt}
      {p q r s t : Position} :
      Statement inner body → Derives .expression test condition →
      Statement
        (⟨.keyword .doWord, p⟩ :: (inner ++ ⟨.keyword .whileWord, q⟩ ::
          ⟨.symbol .leftParen, r⟩ ::
            (test ++ [⟨.symbol .rightParen, s⟩, ⟨.symbol .semicolon, t⟩])))
        (.doLoop p body condition.expr)
  | forLoop {first second third inner : List Token} {init : ForInit Lexeme Unit}
      {condition : Option SourceExpr} {update : List Parsed} {body : SourceStmt}
      {p q r s t : Position} :
      Initial first init → Optional second condition → Expressions third update →
      Statement inner body →
      Statement
        (⟨.keyword .forWord, p⟩ :: ⟨.symbol .leftParen, q⟩ ::
          (first ++ ⟨.symbol .semicolon, r⟩ :: (second ++ ⟨.symbol .semicolon, s⟩ ::
            (third ++ ⟨.symbol .rightParen, t⟩ :: inner))))
        (.forLoop p init condition (update.map Parsed.expr) body)
  | forEach {token : Token} {type : TypeName Unit} {name : String} {values inner : List Token}
      {iterable : Parsed} {body : SourceStmt} {p q r s t : Position} :
      DeclaredType token type → Derives .expression values iterable → Statement inner body →
      Statement
        (⟨.keyword .forWord, p⟩ :: ⟨.symbol .leftParen, q⟩ :: token :: ⟨.name name, r⟩ ::
          ⟨.symbol .colon, s⟩ :: (values ++ ⟨.symbol .rightParen, t⟩ :: inner))
        (.forEach p type name iterable.expr body)
  | returns {tokens : List Token} {value : Option SourceExpr} {p q : Position} :
      Optional tokens value →
      Statement (⟨.keyword .returnWord, p⟩ :: (tokens ++ [⟨.symbol .semicolon, q⟩]))
        (.returns p value)
  | breaks (p q : Position) :
      Statement [⟨.keyword .breakWord, p⟩, ⟨.symbol .semicolon, q⟩] (.breaks p)
  | continues (p q : Position) :
      Statement [⟨.keyword .continueWord, p⟩, ⟨.symbol .semicolon, q⟩] (.continues p)

/-- Which tokens write which body: statements in a row. -/
def Body (tokens : List Token) (body : List SourceStmt) : Prop :=
  ∃ parts : List (List Token × SourceStmt), (∀ part ∈ parts, Statement part.1 part.2) ∧
    tokens = parts.flatMap Prod.fst ∧ body = parts.map Prod.snd

/-- Tokens that some body begins with. -/
def Begins (tokens : List Token) : Prop :=
  ∃ more body, Body (tokens ++ more) body

/-! ### The nearest `if` -/

/-- Whether a statement ends in an `if` that an `else` behind it would belong to. -/
def endsOpen : SourceStmt → Bool
  | .ifThen .. => true
  | .ifThenElse _ _ _ branch => endsOpen branch
  | .whileLoop _ _ body => endsOpen body
  | .forLoop _ _ _ _ body => endsOpen body
  | .forEach _ _ _ _ body => endsOpen body
  | _ => false

mutual

/-- Whether every `else` of a statement belongs to the nearest `if` that has none yet. -/
def NearestElse : SourceStmt → Prop
  | .block _ inner => NearestElseAll inner
  | .ifThen _ _ branch => NearestElse branch
  | .ifThenElse _ _ thenBranch elseBranch =>
    endsOpen thenBranch = false ∧ NearestElse thenBranch ∧ NearestElse elseBranch
  | .whileLoop _ _ body => NearestElse body
  | .doLoop _ body _ => NearestElse body
  | .forLoop _ _ _ _ body => NearestElse body
  | .forEach _ _ _ _ body => NearestElse body
  | _ => True

/-- Whether every `else` of some statements belongs to the nearest `if`. -/
def NearestElseAll : List SourceStmt → Prop
  | [] => True
  | first :: rest => NearestElse first ∧ NearestElseAll rest

end

/-! ### How expressions begin -/

/-- The lexemes that an expression may begin with. -/
inductive Opens : Lexeme → Prop
  | literal {lexeme : Lexeme} : IsLiteral lexeme → Opens lexeme
  | name (text : String) : Opens (.name text)
  | leftParen : Opens (.symbol .leftParen)
  | new : Opens (.keyword .newWord)
  | unary {mark : Symbol} {op : UnaryOp} : (mark, op) ∈ unaryOperators → Opens (.symbol mark)
  | step (op : StepOp) : Opens (.symbol (.step op))
  | castType (name : String) : Opens (.castType name)

/-- An expression begins with a token that opens one. -/
theorem Derives.opens {phrase : Phrase} {tokens : List Token} {v : Parsed}
    (h : Derives phrase tokens v) : ∃ token rest, tokens = token :: rest ∧ Opens token.lexeme := by
  have append {front back : List Token} :
      (∃ token rest, front = token :: rest ∧ Opens token.lexeme) →
      ∃ token rest, front ++ back = token :: rest ∧ Opens token.lexeme := by
    rintro ⟨token, rest, rfl, opens⟩
    exact ⟨token, rest ++ back, rfl, opens⟩
  induction h with
  | unassigned _ ih | unconditional _ ih | tighter _ ih | operand _ ih | unadorned _ ih
  | unsuffixed _ ih => exact ih
  | assign _ _ _ ih _ | conditional _ _ _ ih _ _ | binary _ _ _ ih _ | logical _ _ _ ih _
  | instanceOf _ _ ih | field _ ih | methodCall _ _ _ ih _ | index _ _ ih _
  | stepBehind _ ih => exact append ih
  | unary mark _ _ => exact ⟨_, _, rfl, .unary mark⟩
  | stepBefore _ _ => exact ⟨_, _, rfl, .step _⟩
  | castReference _ _ => exact ⟨_, _, rfl, .castType _⟩
  | castPrimitive _ _ => exact ⟨_, _, rfl, .leftParen⟩
  | literal isLiteral => exact ⟨_, _, rfl, .literal isLiteral⟩
  | name => exact ⟨_, _, rfl, .name _⟩
  | call _ _ _ => exact ⟨_, _, rfl, .name _⟩
  | parentheses _ _ => exact ⟨_, _, rfl, .leftParen⟩
  | new _ _ _ _ => exact ⟨_, _, rfl, .new⟩

theorem Derives.nonempty {phrase : Phrase} {tokens : List Token} {v : Parsed}
    (h : Derives phrase tokens v) : tokens ≠ [] := by
  obtain ⟨_, _, rfl, _⟩ := h.opens
  exact List.cons_ne_nil _ _

/-- What is an operand of a tight operator is one of a looser operator. -/
theorem Derives.lower {level lower : Nat} {tokens : List Token} {v : Parsed}
    (h : Derives (.infixes level) tokens v) (le : lower ≤ level) :
    Derives (.infixes lower) tokens v := by
  induction level with
  | zero => rwa [Nat.le_zero.mp le]
  | succ level ih =>
    rcases Nat.lt_or_eq_of_le le with lt | rfl
    · exact ih h.tighter (Nat.le_of_lt_succ lt)
    · exact h

/-! ### The shortest phrases -/

/-- The name that completes a beginning where an expression is missing. -/
def someName : Token :=
  ⟨.name "x", Position.start⟩

/-- A name alone is an expression of every sort. -/
theorem derives_someName (phrase : Phrase) (bound : ∀ level, phrase = .infixes level →
    level ≤ operandLevel) :
    Derives phrase [someName] ⟨.name Position.start "x", Position.start⟩ := by
  have primary : Derives .primary [someName] ⟨.name Position.start "x", Position.start⟩ := .name
  have operand := Derives.operand (.unadorned (.unsuffixed primary))
  have infixes {level : Nat} (le : level ≤ operandLevel) := operand.lower le
  cases phrase with
  | expression => exact .unassigned (.unconditional (infixes (by decide)))
  | conditional => exact .unconditional (infixes (by decide))
  | infixes level => exact infixes (bound level rfl)
  | unary => exact .unadorned (.unsuffixed primary)
  | suffixed => exact .unsuffixed primary
  | primary => exact primary

theorem dotted_someName : Dotted [someName] ⟨Position.start, "x" ++ "", ()⟩ :=
  .mk .nil

end Formulary.Grammar
