/-
The names that a body assigns to.

An assignment and a step have a target. If it is a name, it is the variable of this name that
takes a new value; a target that is a field or an element is no variable, but the expressions
inside of it may assign as well.

* `Expr.targets`, `Stmt.targets` — the names that stand as a target anywhere in a tree.
-/

import Formulary.Syntax.Tree
import Mathlib

namespace Formulary

variable {α τ : Type}

namespace Expr

/-- The variable that an expression is as a target, if it is one. -/
def ownTarget : Expr α τ → List String
  | .name _ ident => [ident]
  | _ => []

mutual

/-- The names that an expression assigns to. -/
def targets : Expr α τ → List String
  | .literal .. | .name .. | .typeName .. => []
  | .field _ receiver _ => receiver.targets
  | .methodCall _ receiver _ args => receiver.targets ++ targetsOfAll args
  | .call _ _ args => targetsOfAll args
  | .index _ container place => container.targets ++ place.targets
  | .unary _ _ operand => operand.targets
  | .step _ _ target _ => target.ownTarget ++ target.targets
  | .binary _ _ left right => left.targets ++ right.targets
  | .logical _ _ left right => left.targets ++ right.targets
  | .conditional _ test thenValue elseValue =>
    test.targets ++ (thenValue.targets ++ elseValue.targets)
  | .assign _ _ target value => target.ownTarget ++ (target.targets ++ value.targets)
  | .cast _ _ operand => operand.targets
  | .instanceOf _ value _ => value.targets
  | .new _ _ args => targetsOfAll args

def targetsOfAll : List (Expr α τ) → List String
  | [] => []
  | expr :: rest => expr.targets ++ targetsOfAll rest

end

end Expr

/-- The names that the initial value of a declared name assigns to. -/
def Declarator.targets (declarator : Declarator α τ) : List String :=
  declarator.value.elim [] Expr.targets

/-- The names that the beginning of a loop assigns to. -/
def ForInit.targets : ForInit α τ → List String
  | .none => []
  | .declaration _ _ names => names.flatMap Declarator.targets
  | .expressions values => Expr.targetsOfAll (values.map Prod.snd)

namespace Stmt

mutual

/-- The names that a statement assigns to. What it declares is not among them. -/
def targets : Stmt α τ → List String
  | .block _ inner => targetsOfAll inner
  | .empty _ | .breaks _ | .continues _ => []
  | .declaration _ _ names => names.flatMap Declarator.targets
  | .expression _ value => value.targets
  | .ifThen _ test thenBranch => test.targets ++ thenBranch.targets
  | .ifThenElse _ test thenBranch elseBranch =>
    test.targets ++ (thenBranch.targets ++ elseBranch.targets)
  | .whileLoop _ test body => test.targets ++ body.targets
  | .doLoop _ body test => body.targets ++ test.targets
  | .forLoop _ init test update body =>
    init.targets ++ (test.elim [] Expr.targets ++ (Expr.targetsOfAll update ++ body.targets))
  | .forEach _ _ _ iterable body => iterable.targets ++ body.targets
  | .returns _ value => value.elim [] Expr.targets

def targetsOfAll : List (Stmt α τ) → List String
  | [] => []
  | stmt :: rest => stmt.targets ++ targetsOfAll rest

end

end Stmt

end Formulary
