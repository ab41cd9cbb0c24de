/-
The stages of a run: which part of a body is about to be run, and in which state.

A run is a function of a body and a state; what happens on its way is a relation.
`Stage.Enters` leads from a stage to every stage that its run comes to directly: to the
operands of an expression in the order of their evaluation, to the statements of a block
as long as they complete normally, from one round of a loop to the next. `Stage.Reaches`
follows it any number of times, so that every step of a run is the beginning of a stage
that is reached. A stage has the scope that belongs to its part: the variables that are
declared before it, in the blocks around it.

* `Stage.Reaches.invariant` — what every step keeps holds of all stages that are reached.
-/

import Formulary.Proofs.Execution

namespace Formulary

open Machine (outcome)

/-! ### Scopes -/

/-- The scope behind declared names. -/
def declared (kind : Kind) (scope : Scope) : List (Declarator Value Kind) → Scope
  | [] => scope
  | declarator :: rest => declared kind ((declarator.name, kind) :: scope) rest

/-- The scope behind what a `for` loop starts with. -/
def ForInit.behind (scope : Scope) : ForInit Value Kind → Scope
  | .declaration _ type names => declared type.resolved scope names
  | _ => scope

/-- The scope behind a statement. -/
def Stmt.behind (scope : Scope) : CheckedStmt → Scope
  | .declaration _ type names => declared type.resolved scope names
  | _ => scope

/-! ### Stages -/

/-- A part of a body that is about to be run. Of a loop it is the rounds that are left. -/
inductive Part where
  | expression (expr : CheckedExpr)
  | expressions (exprs : List CheckedExpr)
  | target (expr : CheckedExpr)
  | effects (exprs : List CheckedExpr)
  | declare (kind : Kind) (names : List (Declarator Value Kind))
  | statement (stmt : CheckedStmt)
  | statements (stmts : List CheckedStmt)
  | rounds (left : Nat) (test : Option CheckedExpr) (update : List CheckedExpr)
      (body : CheckedStmt)
  | once (left : Nat) (body : CheckedStmt) (test : CheckedExpr)
  | over (left : Nat) (kind : Kind) (name : String) (body : CheckedStmt) (cursor : Cursor)

/-- A part of a body with its scope, and the state in which it is about to be run. -/
structure Stage where
  scope : Scope
  part : Part
  state : State

/-- Whether a loop goes on behind a round that has ended so. -/
def Completion.StaysIn : Completion → Prop
  | .normal | .continued => True
  | _ => False

open Eval

/-- The stages that the run of a stage comes to directly. -/
inductive Stage.Enters (fuel : Nat) : Stage → Stage → Prop
  /- Operands of expressions. -/
  | receiver {scope state position receiver member} (value : ¬IsType receiver) :
      Enters fuel ⟨scope, .expression (.field position receiver member), state⟩
        ⟨scope, .expression receiver, state⟩
  | callReceiver {scope state position receiver method args} (value : ¬IsType receiver) :
      Enters fuel ⟨scope, .expression (.methodCall position receiver method args), state⟩
        ⟨scope, .expression receiver, state⟩
  | callArgs {scope state position receiver method args object behind}
      (value : ¬IsType receiver)
      (ended : outcome (expression receiver) state = (.ok object, behind)) :
      Enters fuel ⟨scope, .expression (.methodCall position receiver method args), state⟩
        ⟨scope, .expressions args, behind⟩
  | staticArgs {scope state position method args} {origin type} :
      Enters fuel
        ⟨scope, .expression (.methodCall position (.typeName origin type) method args), state⟩
        ⟨scope, .expressions args, state⟩
  | functionArgs {scope state position callee args} :
      Enters fuel ⟨scope, .expression (.call position callee args), state⟩
        ⟨scope, .expressions args, state⟩
  | container {scope state position container place} :
      Enters fuel ⟨scope, .expression (.index position container place), state⟩
        ⟨scope, .expression container, state⟩
  | place {scope state position container place object behind}
      (ended : outcome (expression container) state = (.ok object, behind)) :
      Enters fuel ⟨scope, .expression (.index position container place), state⟩
        ⟨scope, .expression place, behind⟩
  | operand {scope state position op operand} :
      Enters fuel ⟨scope, .expression (.unary position op operand), state⟩
        ⟨scope, .expression operand, state⟩
  | stepped {scope state position op target before} :
      Enters fuel ⟨scope, .expression (.step position op target before), state⟩
        ⟨scope, .target target, state⟩
  | left {scope state position op left right} :
      Enters fuel ⟨scope, .expression (.binary position op left right), state⟩
        ⟨scope, .expression left, state⟩
  | right {scope state position op left right value behind}
      (ended : outcome (expression left) state = (.ok value, behind)) :
      Enters fuel ⟨scope, .expression (.binary position op left right), state⟩
        ⟨scope, .expression right, behind⟩
  | first {scope state position op left right} :
      Enters fuel ⟨scope, .expression (.logical position op left right), state⟩
        ⟨scope, .expression left, state⟩
  | second {scope state position op left right holds behind}
      (ended : outcome (condition left) state = (.ok holds, behind))
      (further : holds = true ↔ op = .and) :
      Enters fuel ⟨scope, .expression (.logical position op left right), state⟩
        ⟨scope, .expression right, behind⟩
  | test {scope state position test thenValue elseValue} :
      Enters fuel ⟨scope, .expression (.conditional position test thenValue elseValue), state⟩
        ⟨scope, .expression test, state⟩
  | thenValue {scope state position test thenValue elseValue behind}
      (ended : outcome (condition test) state = (.ok true, behind)) :
      Enters fuel ⟨scope, .expression (.conditional position test thenValue elseValue), state⟩
        ⟨scope, .expression thenValue, behind⟩
  | elseValue {scope state position test thenValue elseValue behind}
      (ended : outcome (condition test) state = (.ok false, behind)) :
      Enters fuel ⟨scope, .expression (.conditional position test thenValue elseValue), state⟩
        ⟨scope, .expression elseValue, behind⟩
  | assigned {scope state position op target value} :
      Enters fuel ⟨scope, .expression (.assign position op target value), state⟩
        ⟨scope, .target target, state⟩
  | newValue {scope state position target value location behind}
      (located : outcome (locate target) state = (.ok location, behind)) :
      Enters fuel ⟨scope, .expression (.assign position none target value), state⟩
        ⟨scope, .expression value, behind⟩
  | combined {scope state position op target value location found old behind}
      (located : outcome (locate target) state = (.ok location, found))
      (read : outcome location.read found = (.ok old, behind)) :
      Enters fuel ⟨scope, .expression (.assign position (some op) target value), state⟩
        ⟨scope, .expression value, behind⟩
  | casted {scope state position type operand} :
      Enters fuel ⟨scope, .expression (.cast position type operand), state⟩
        ⟨scope, .expression operand, state⟩
  | tested {scope state position value type} :
      Enters fuel ⟨scope, .expression (.instanceOf position value type), state⟩
        ⟨scope, .expression value, state⟩
  | newArgs {scope state position type args} :
      Enters fuel ⟨scope, .expression (.new position type args), state⟩
        ⟨scope, .expressions args, state⟩
  /- Expressions in a row. -/
  | head {scope state expr rest} :
      Enters fuel ⟨scope, .expressions (expr :: rest), state⟩ ⟨scope, .expression expr, state⟩
  | tail {scope state expr rest value behind}
      (ended : outcome (expression expr) state = (.ok value, behind)) :
      Enters fuel ⟨scope, .expressions (expr :: rest), state⟩ ⟨scope, .expressions rest, behind⟩
  | effect {scope state expr rest} :
      Enters fuel ⟨scope, .effects (expr :: rest), state⟩ ⟨scope, .expression expr, state⟩
  | effects {scope state expr rest value behind}
      (ended : outcome (expression expr) state = (.ok value, behind)) :
      Enters fuel ⟨scope, .effects (expr :: rest), state⟩ ⟨scope, .effects rest, behind⟩
  /- Targets. -/
  | targetReceiver {scope state position receiver member} (value : ¬IsType receiver) :
      Enters fuel ⟨scope, .target (.field position receiver member), state⟩
        ⟨scope, .expression receiver, state⟩
  | targetContainer {scope state position container place} :
      Enters fuel ⟨scope, .target (.index position container place), state⟩
        ⟨scope, .expression container, state⟩
  | targetPlace {scope state position container place object behind}
      (ended : outcome (expression container) state = (.ok object, behind)) :
      Enters fuel ⟨scope, .target (.index position container place), state⟩
        ⟨scope, .expression place, behind⟩
  /- Declarations. -/
  | initial {scope state kind declarator rest value}
      (given : declarator.value = some value) :
      Enters fuel ⟨scope, .declare kind (declarator :: rest), state⟩
        ⟨scope, .expression value, state⟩
  | declared {scope state kind declarator rest behind}
      (ended : outcome (declare kind [declarator]) state = (.ok (), behind)) :
      Enters fuel ⟨scope, .declare kind (declarator :: rest), state⟩
        ⟨(declarator.name, kind) :: scope, .declare kind rest, behind⟩
  /- Statements. -/
  | block {scope state position inner} :
      Enters fuel ⟨scope, .statement (.block position inner), state⟩
        ⟨scope, .statements inner, state.block⟩
  | declaration {scope state position type names} :
      Enters fuel ⟨scope, .statement (.declaration position type names), state⟩
        ⟨scope, .declare type.resolved names, state⟩
  | evaluated {scope state position value} :
      Enters fuel ⟨scope, .statement (.expression position value), state⟩
        ⟨scope, .expression value, state⟩
  | ifTest {scope state position test thenBranch} :
      Enters fuel ⟨scope, .statement (.ifThen position test thenBranch), state⟩
        ⟨scope, .expression test, state⟩
  | ifThen {scope state position test thenBranch behind}
      (ended : outcome (condition test) state = (.ok true, behind)) :
      Enters fuel ⟨scope, .statement (.ifThen position test thenBranch), state⟩
        ⟨scope, .statement thenBranch, behind⟩
  | branchTest {scope state position test thenBranch elseBranch} :
      Enters fuel ⟨scope, .statement (.ifThenElse position test thenBranch elseBranch), state⟩
        ⟨scope, .expression test, state⟩
  | thenBranch {scope state position test thenBranch elseBranch behind}
      (ended : outcome (condition test) state = (.ok true, behind)) :
      Enters fuel ⟨scope, .statement (.ifThenElse position test thenBranch elseBranch), state⟩
        ⟨scope, .statement thenBranch, behind⟩
  | elseBranch {scope state position test thenBranch elseBranch behind}
      (ended : outcome (condition test) state = (.ok false, behind)) :
      Enters fuel ⟨scope, .statement (.ifThenElse position test thenBranch elseBranch), state⟩
        ⟨scope, .statement elseBranch, behind⟩
  | whileLoop {scope state position test body} :
      Enters fuel ⟨scope, .statement (.whileLoop position test body), state⟩
        ⟨scope, .rounds fuel (some test) [] body, state⟩
  | doLoop {scope state position body test} :
      Enters fuel ⟨scope, .statement (.doLoop position body test), state⟩
        ⟨scope, .once fuel body test, state⟩
  | forDeclares {scope state position origin type names test update body} :
      Enters fuel
        ⟨scope, .statement (.forLoop position (.declaration origin type names) test update body),
          state⟩
        ⟨scope, .declare type.resolved names, state.block⟩
  | forEvaluates {scope state position values test update body} :
      Enters fuel
        ⟨scope, .statement (.forLoop position (.expressions values) test update body), state⟩
        ⟨scope, .effects (values.map Prod.snd), state.block⟩
  | forLoop {scope state position init test update body behind}
      (ended : outcome (enter init) state.block = (.ok (), behind)) :
      Enters fuel ⟨scope, .statement (.forLoop position init test update body), state⟩
        ⟨init.behind scope, .rounds fuel test update body, behind⟩
  | iterable {scope state position type name iterable body} :
      Enters fuel ⟨scope, .statement (.forEach position type name iterable body), state⟩
        ⟨scope, .expression iterable, state⟩
  | forEach {scope state position type name iterable body value worked cursor behind}
      (ended : outcome (expression iterable) state = (.ok value, worked))
      (started : outcome (startIteration value) worked = (.ok cursor, behind)) :
      Enters fuel ⟨scope, .statement (.forEach position type name iterable body), state⟩
        ⟨scope, .over fuel type.resolved name body cursor, behind⟩
  | returned {scope state position value} :
      Enters fuel ⟨scope, .statement (.returns position (some value)), state⟩
        ⟨scope, .expression value, state⟩
  | statement {scope state first rest} :
      Enters fuel ⟨scope, .statements (first :: rest), state⟩ ⟨scope, .statement first, state⟩
  | statements {scope state first rest behind}
      (ended : outcome (statement fuel first) state = (.ok .normal, behind)) :
      Enters fuel ⟨scope, .statements (first :: rest), state⟩
        ⟨first.behind scope, .statements rest, behind⟩
  /- Rounds of `while` and `for`. -/
  | roundTest {scope state left test update body} :
      Enters fuel ⟨scope, .rounds (left + 1) (some test) update body, state⟩
        ⟨scope, .expression test, state⟩
  | roundBody {scope state left test update body behind}
      (holds : outcome (goesOn test) state = (.ok true, behind)) :
      Enters fuel ⟨scope, .rounds (left + 1) test update body, state⟩
        ⟨scope, .statement body, behind⟩
  | roundUpdate {scope state left test update body tested completion behind}
      (holds : outcome (goesOn test) state = (.ok true, tested))
      (ended : outcome (Eval.statement fuel body) tested = (.ok completion, behind))
      (stays : completion.StaysIn) :
      Enters fuel ⟨scope, .rounds (left + 1) test update body, state⟩
        ⟨scope, .effects update, behind⟩
  | nextRound {scope state left test update body tested completion between behind}
      (holds : outcome (goesOn test) state = (.ok true, tested))
      (ended : outcome (Eval.statement fuel body) tested = (.ok completion, between))
      (stays : completion.StaysIn)
      (updated : outcome (Eval.effects update) between = (.ok (), behind)) :
      Enters fuel ⟨scope, .rounds (left + 1) test update body, state⟩
        ⟨scope, .rounds left test update body, behind⟩
  /- Rounds of `do`. -/
  | onceBody {scope state left body test} :
      Enters fuel ⟨scope, .once (left + 1) body test, state⟩ ⟨scope, .statement body, state⟩
  | onceTest {scope state left body test completion behind}
      (ended : outcome (Eval.statement fuel body) state = (.ok completion, behind))
      (stays : completion.StaysIn) :
      Enters fuel ⟨scope, .once (left + 1) body test, state⟩ ⟨scope, .expression test, behind⟩
  | onceMore {scope state left body test completion between behind}
      (ended : outcome (Eval.statement fuel body) state = (.ok completion, between))
      (stays : completion.StaysIn)
      (holds : outcome (condition test) between = (.ok true, behind)) :
      Enters fuel ⟨scope, .once (left + 1) body test, state⟩ ⟨scope, .once left body test, behind⟩
  /- Rounds of `for`-each. -/
  | overBody {scope state left kind name body cursor element later taken behind}
      (next : outcome (Machine.act (Iteration.next cursor)) state =
        (.ok (some element, later), taken))
      (bound : outcome (bindElement kind name element) taken.block = (.ok (), behind)) :
      Enters fuel ⟨scope, .over (left + 1) kind name body cursor, state⟩
        ⟨(name, kind) :: scope, .statement body, behind⟩
  | overNext {scope state left kind name body cursor element later taken completion behind}
      (next : outcome (Machine.act (Iteration.next cursor)) state =
        (.ok (some element, later), taken))
      (ended : outcome (round fuel kind name body element) taken = (.ok completion, behind))
      (stays : completion.StaysIn) :
      Enters fuel ⟨scope, .over (left + 1) kind name body cursor, state⟩
        ⟨scope, .over left kind name body later, behind⟩

/-- The stages that the run of a stage comes to. -/
def Stage.Reaches (fuel : Nat) : Stage → Stage → Prop :=
  Relation.ReflTransGen (Stage.Enters fuel)

/-- **What every step keeps holds of all stages that are reached.** -/
theorem Stage.Reaches.invariant {fuel : Nat} {property : Stage → Prop}
    (step : ∀ stage next, Stage.Enters fuel stage next → property stage → property next)
    {start stage : Stage} (reached : Reaches fuel start stage) (begins : property start) :
    property stage := by
  induction reached with
  | refl => exact begins
  | tail _ entered ih => exact step _ _ entered ih

end Formulary
