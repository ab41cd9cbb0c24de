/-
Which statements can complete normally.

A statement that cannot complete always returns, jumps, fails or runs forever. The
analysis looks at the shape of a statement only: a condition counts as always true
where it is the literal `true`.
-/

import Formulary.Syntax.Literal

namespace Formulary

variable {τ : Type}

/-- The literal `true`. -/
def Expr.isConstantTrue : Expr Value τ → Bool
  | .literal _ (.bool true) => true
  | _ => false

namespace Stmt

mutual

/-- Whether a statement holds a `break` of the loop around it. -/
def hasBreak : Stmt Value τ → Bool
  | .breaks _ => true
  | .block _ statements => anyBreak statements
  | .ifThen _ _ thenBranch => hasBreak thenBranch
  | .ifThenElse _ _ thenBranch elseBranch => hasBreak thenBranch || hasBreak elseBranch
  | _ => false

/-- Whether a statement of a list holds such a `break`. -/
def anyBreak : List (Stmt Value τ) → Bool
  | [] => false
  | statement :: rest => hasBreak statement || anyBreak rest

end

mutual

/-- Whether a statement holds a `continue` of the loop around it. -/
def hasContinue : Stmt Value τ → Bool
  | .continues _ => true
  | .block _ statements => anyContinue statements
  | .ifThen _ _ thenBranch => hasContinue thenBranch
  | .ifThenElse _ _ thenBranch elseBranch =>
    hasContinue thenBranch || hasContinue elseBranch
  | _ => false

/-- Whether a statement of a list holds such a `continue`. -/
def anyContinue : List (Stmt Value τ) → Bool
  | [] => false
  | statement :: rest => hasContinue statement || anyContinue rest

end

mutual

/-- Whether a statement can complete normally. -/
def completes : Stmt Value τ → Bool
  | .block _ statements => allComplete statements
  | .returns .. | .breaks _ | .continues _ => false
  | .ifThenElse _ _ thenBranch elseBranch =>
    completes thenBranch || completes elseBranch
  | .whileLoop _ condition body => !condition.isConstantTrue || hasBreak body
  | .doLoop _ body condition =>
    ((completes body || hasContinue body) && !condition.isConstantTrue) ||
      hasBreak body
  | .forLoop _ _ none _ body => hasBreak body
  | .forLoop _ _ (some condition) _ body =>
    !condition.isConstantTrue || hasBreak body
  | _ => true

/-- Whether all statements of a list can complete normally. -/
def allComplete : List (Stmt Value τ) → Bool
  | [] => true
  | statement :: rest => completes statement && allComplete rest

end

end Stmt

end Formulary
