/-
Syntax trees of bodies.

Trees are built over a type `α` of literals and a type `τ` of what is known of a
type name: a body that has only been read has the spellings of its literals and
nothing about its types, a checked body has values and resolved types. An
expression `typeName` is no part of the grammar; checking puts it where a dotted
name turned out to name a type.

Every node has the position that reports about it show.
-/

import Formulary.Syntax.Token

namespace Formulary

/-- A type name and what is known of the type. -/
structure TypeName (τ : Type) where
  position : Position
  name : String
  resolved : τ
deriving DecidableEq, Repr

/-- Expressions. -/
inductive Expr (α τ : Type) where
  | literal (position : Position) (value : α)
  | name (position : Position) (ident : String)
  | typeName (position : Position) (type : TypeName τ)
  | field (position : Position) (receiver : Expr α τ) (member : String)
  | methodCall (position : Position) (receiver : Expr α τ) (method : String)
      (args : List (Expr α τ))
  | call (position : Position) (callee : TypeName τ) (args : List (Expr α τ))
  | index (position : Position) (container : Expr α τ) (place : Expr α τ)
  | unary (position : Position) (op : UnaryOp) (operand : Expr α τ)
  /-- A step written before its target if `before` holds, else behind it. -/
  | step (position : Position) (op : StepOp) (target : Expr α τ) (before : Bool)
  | binary (position : Position) (op : BinaryOp) (left right : Expr α τ)
  | logical (position : Position) (op : LogicalOp) (left right : Expr α τ)
  | conditional (position : Position) (condition thenValue elseValue : Expr α τ)
  /-- A plain assignment, or a compound one with its operator. -/
  | assign (position : Position) (op : Option BinaryOp) (target value : Expr α τ)
  | cast (position : Position) (type : TypeName τ) (operand : Expr α τ)
  | instanceOf (position : Position) (value : Expr α τ) (type : TypeName τ)
  | new (position : Position) (type : TypeName τ) (args : List (Expr α τ))
deriving Repr

/-- A declared name with its initial value, if it has one. -/
structure Declarator (α τ : Type) where
  position : Position
  name : String
  value : Option (Expr α τ)
deriving Repr

/-- What a `for` loop starts with. -/
inductive ForInit (α τ : Type) where
  | none
  | declaration (position : Position) (type : TypeName τ)
      (declarators : List (Declarator α τ))
  | expressions (values : List (Position × Expr α τ))
deriving Repr

/-- Statements. -/
inductive Stmt (α τ : Type) where
  | block (position : Position) (statements : List (Stmt α τ))
  | empty (position : Position)
  | declaration (position : Position) (type : TypeName τ)
      (declarators : List (Declarator α τ))
  | expression (position : Position) (value : Expr α τ)
  | ifThen (position : Position) (condition : Expr α τ) (thenBranch : Stmt α τ)
  | ifThenElse (position : Position) (condition : Expr α τ)
      (thenBranch elseBranch : Stmt α τ)
  | whileLoop (position : Position) (condition : Expr α τ) (body : Stmt α τ)
  | doLoop (position : Position) (body : Stmt α τ) (condition : Expr α τ)
  | forLoop (position : Position) (init : ForInit α τ)
      (condition : Option (Expr α τ)) (update : List (Expr α τ)) (body : Stmt α τ)
  | forEach (position : Position) (type : TypeName τ) (name : String)
      (iterable : Expr α τ) (body : Stmt α τ)
  | returns (position : Position) (value : Option (Expr α τ))
  | breaks (position : Position)
  | continues (position : Position)
deriving Repr

variable {α β τ ε : Type}

namespace Expr

def position : Expr α τ → Position
  | .literal position _ | .name position _ | .typeName position _
  | .field position _ _ | .methodCall position _ _ _ | .call position _ _
  | .index position _ _ | .unary position _ _ | .step position _ _ _
  | .binary position _ _ _ | .logical position _ _ _
  | .conditional position _ _ _ | .assign position _ _ _ | .cast position _ _
  | .instanceOf position _ _ | .new position _ _ => position

/-! ### Depth -/

mutual

/-- How many nodes the longest way down an expression passes. -/
def depth : Expr α τ → Nat
  | .literal .. | .name .. | .typeName .. => 1
  | .field _ receiver _ => receiver.depth + 1
  | .methodCall _ receiver _ args => max receiver.depth (depthOfAll args) + 1
  | .call _ _ args => depthOfAll args + 1
  | .index _ container place => max container.depth place.depth + 1
  | .unary _ _ operand => operand.depth + 1
  | .step _ _ target _ => target.depth + 1
  | .binary _ _ left right => max left.depth right.depth + 1
  | .logical _ _ left right => max left.depth right.depth + 1
  | .conditional _ condition thenValue elseValue =>
    max condition.depth (max thenValue.depth elseValue.depth) + 1
  | .assign _ _ target value => max target.depth value.depth + 1
  | .cast _ _ operand => operand.depth + 1
  | .instanceOf _ value _ => value.depth + 1
  | .new _ _ args => depthOfAll args + 1

def depthOfAll : List (Expr α τ) → Nat
  | [] => 0
  | expr :: rest => max expr.depth (depthOfAll rest)

end

/-! ### Literals -/

mutual

/-- Reads every literal of an expression, in order; the first failure counts. -/
def mapLiterals (f : α → Except ε β) : Expr α τ → Except ε (Expr β τ)
  | .literal position value => do return .literal position (← f value)
  | .name position ident => .ok (.name position ident)
  | .typeName position type => .ok (.typeName position type)
  | .field position receiver member => do
    return .field position (← mapLiterals f receiver) member
  | .methodCall position receiver method args => do
    return .methodCall position (← mapLiterals f receiver) method
      (← mapAllLiterals f args)
  | .call position callee args => do
    return .call position callee (← mapAllLiterals f args)
  | .index position container place => do
    return .index position (← mapLiterals f container) (← mapLiterals f place)
  | .unary position op operand => do
    return .unary position op (← mapLiterals f operand)
  | .step position op target before => do
    return .step position op (← mapLiterals f target) before
  | .binary position op left right => do
    return .binary position op (← mapLiterals f left) (← mapLiterals f right)
  | .logical position op left right => do
    return .logical position op (← mapLiterals f left) (← mapLiterals f right)
  | .conditional position condition thenValue elseValue => do
    return .conditional position (← mapLiterals f condition)
      (← mapLiterals f thenValue) (← mapLiterals f elseValue)
  | .assign position op target value => do
    return .assign position op (← mapLiterals f target) (← mapLiterals f value)
  | .cast position type operand => do
    return .cast position type (← mapLiterals f operand)
  | .instanceOf position value type => do
    return .instanceOf position (← mapLiterals f value) type
  | .new position type args => do
    return .new position type (← mapAllLiterals f args)

def mapAllLiterals (f : α → Except ε β) :
    List (Expr α τ) → Except ε (List (Expr β τ))
  | [] => .ok []
  | expr :: rest => do return (← mapLiterals f expr) :: (← mapAllLiterals f rest)

end

/-- Reads the literal of an optional expression. -/
def mapLiterals? (f : α → Except ε β) :
    Option (Expr α τ) → Except ε (Option (Expr β τ))
  | none => .ok none
  | some expr => (expr.mapLiterals f).map some

end Expr

namespace Declarator

def depth (declarator : Declarator α τ) : Nat :=
  match declarator.value with
  | none => 0
  | some value => value.depth

def mapLiterals (f : α → Except ε β) (declarator : Declarator α τ) :
    Except ε (Declarator β τ) := do
  return { position := declarator.position, name := declarator.name,
           value := ← Expr.mapLiterals? f declarator.value }

end Declarator

namespace ForInit

def depth : ForInit α τ → Nat
  | .none => 0
  | .declaration _ _ declarators =>
    declarators.foldl (fun n declarator => max n declarator.depth) 0
  | .expressions values => values.foldl (fun n value => max n value.2.depth) 0

def mapLiterals (f : α → Except ε β) : ForInit α τ → Except ε (ForInit β τ)
  | .none => .ok .none
  | .declaration position type declarators => do
    return .declaration position type (← declarators.mapM (·.mapLiterals f))
  | .expressions values => do
    return .expressions
      (← values.mapM fun value => do return (value.1, ← value.2.mapLiterals f))

end ForInit

namespace Stmt

def position : Stmt α τ → Position
  | .block position _ | .empty position | .declaration position _ _
  | .expression position _ | .ifThen position _ _ | .ifThenElse position _ _ _
  | .whileLoop position _ _ | .doLoop position _ _ | .forLoop position _ _ _ _
  | .forEach position _ _ _ _ | .returns position _ | .breaks position
  | .continues position => position

mutual

/-- How many nodes the longest way down a statement passes. -/
def depth : Stmt α τ → Nat
  | .block _ statements => depthOfAll statements + 1
  | .empty _ | .breaks _ | .continues _ => 1
  | .declaration _ _ declarators =>
    declarators.foldl (fun n declarator => max n declarator.depth) 0 + 1
  | .expression _ value => value.depth + 1
  | .ifThen _ condition thenBranch => max condition.depth thenBranch.depth + 1
  | .ifThenElse _ condition thenBranch elseBranch =>
    max condition.depth (max thenBranch.depth elseBranch.depth) + 1
  | .whileLoop _ condition body => max condition.depth body.depth + 1
  | .doLoop _ body condition => max body.depth condition.depth + 1
  | .forLoop _ init condition update body =>
    max (max init.depth (condition.elim 0 Expr.depth))
      (max (Expr.depthOfAll update) body.depth) + 1
  | .forEach _ _ _ iterable body => max iterable.depth body.depth + 1
  | .returns _ value => value.elim 0 Expr.depth + 1

def depthOfAll : List (Stmt α τ) → Nat
  | [] => 0
  | statement :: rest => max statement.depth (depthOfAll rest)

end

mutual

/-- Reads every literal of a statement; the first failure counts. The literals
come in the order of the text, except that an `else` branch comes before the
condition. -/
def mapLiterals (f : α → Except ε β) : Stmt α τ → Except ε (Stmt β τ)
  | .block position statements => do
    return .block position (← mapAllLiterals f statements)
  | .empty position => .ok (.empty position)
  | .declaration position type declarators => do
    return .declaration position type (← declarators.mapM (·.mapLiterals f))
  | .expression position value => do
    return .expression position (← value.mapLiterals f)
  | .ifThen position condition thenBranch => do
    return .ifThen position (← condition.mapLiterals f) (← mapLiterals f thenBranch)
  | .ifThenElse position condition thenBranch elseBranch => do
    let elseBranch ← mapLiterals f elseBranch
    return .ifThenElse position (← condition.mapLiterals f)
      (← mapLiterals f thenBranch) elseBranch
  | .whileLoop position condition body => do
    return .whileLoop position (← condition.mapLiterals f) (← mapLiterals f body)
  | .doLoop position body condition => do
    return .doLoop position (← mapLiterals f body) (← condition.mapLiterals f)
  | .forLoop position init condition update body => do
    return .forLoop position (← init.mapLiterals f)
      (← Expr.mapLiterals? f condition) (← Expr.mapAllLiterals f update)
      (← mapLiterals f body)
  | .forEach position type name iterable body => do
    return .forEach position type name (← iterable.mapLiterals f)
      (← mapLiterals f body)
  | .returns position value => do
    return .returns position (← Expr.mapLiterals? f value)
  | .breaks position => .ok (.breaks position)
  | .continues position => .ok (.continues position)

def mapAllLiterals (f : α → Except ε β) :
    List (Stmt α τ) → Except ε (List (Stmt β τ))
  | [] => .ok []
  | statement :: rest => do
    return (← mapLiterals f statement) :: (← mapAllLiterals f rest)

end

end Stmt

end Formulary
