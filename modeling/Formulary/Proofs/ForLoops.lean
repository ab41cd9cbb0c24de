/-
A `for` loop as a `while` loop.

The updates of a `for` loop run behind the body unless it breaks or returns, so that they may as
well stand at the end of the body: only a `continue` would jump over them there. The body then has
a block of its own in every round. Nothing is declared in it, and a block without variables cannot
be told from none.

* `Stmt.asWhile` — the block of the beginning and the `while` loop.
* `Eval.loop_updating` — an update behind every round, and one at the end of it.
* `Machine.Alike.enclosed` — a step in a block of its own.
* `Eval.forLoop_asWhile` — both loops, as they are read and as they run.
-/

import Formulary.Proofs.ForEach
import Formulary.Proofs.Scoping

namespace Formulary

namespace Machine

variable {α β : Type}

/-- Steps with the same beginning that go on in the same way with what it can give. -/
theorem Gives.bind_congr {step : Machine α} {property : α → Prop} (given : Gives step property)
    {next next' : α → Machine β} (same : ∀ a, property a → next a = next' a) :
    step >>= next = step >>= next' := by
  funext state
  have ends : outcome (step >>= next) state = outcome (step >>= next') state := by
    rw [outcome_bind, outcome_bind]
    rcases ended : outcome step state with ⟨halt | a, behind⟩
    · rfl
    · exact congrArg (outcome · behind) (same a (given state a behind ended))
  exact ends

/-- **A step in a block of its own** does the same: nothing is declared in the block. -/
theorem Alike.enclosed {σ : Renaming} {margin : Margin} {f : α → β} {a : Machine α}
    {b : Machine β} (alike : Alike (.around σ margin [[]]) 0 f a b) :
    Alike (.around σ margin []) 0 f a (Machine.inBlock b) where
  grows := alike.grows
  maps s t related bounded := by
    obtain ⟨⟨top, below, empty, whole, moved⟩, store⟩ := related
    rw [List.length_eq_zero_iff.mp empty] at whole moved
    have entered : Transfer.States (.around σ margin [[]]) 0 s t.block :=
      ⟨⟨[], below, rfl, whole, congrArg (List.cons []) moved⟩, store⟩
    obtain ⟨result, ⟨top, below, empty, whole, moved⟩, store⟩ :=
      alike.maps s t.block entered bounded
    rw [List.length_eq_zero_iff.mp empty] at whole moved
    exact ⟨result, ⟨[], below, rfl, whole, congrArg List.tail moved⟩, store⟩

end Machine

/-- Two ends of a run that nothing can tell apart: they have the same result, the same variables
with the same values, the same objects, the same members that have been set, and the same next
mark. -/
structure SameEnd {α : Type} (a b : Except Halt α × State) : Prop where
  result : b.1 = a.1
  environment : b.2.environment = a.2.environment
  objects : b.2.store.objects = a.2.store.objects
  settings : ∀ holder name, b.2.store.setting? holder name = a.2.store.setting? holder name
  mark : b.2.store.nextMark = a.2.store.nextMark

/-! ### The two loops -/

namespace Stmt

variable {τ : Type}

/-- Expressions as statements in a row. -/
def evaluating (values : List (Position × Expr Value τ)) : List (Stmt Value τ) :=
  values.map fun value => .expression value.1 value.2

/-- The beginning of a loop as statements in front of it. -/
def beginning : ForInit Value τ → List (Stmt Value τ)
  | .none => []
  | .declaration position type names => [.declaration position type names]
  | .expressions values => evaluating values

/-- The body of a loop with the updates behind it, in a block. -/
def updating (position : Position) (update : List (Position × Expr Value τ))
    (body : Stmt Value τ) : Stmt Value τ :=
  .block position (body :: evaluating update)

/-- A `for` loop as a block with a `while` loop. Where it has no condition, the loop goes on while
`true` holds. Its nodes stand at the given positions. -/
def asWhile (place : Nat → Position) (init : ForInit Value τ) (test : Option (Expr Value τ))
    (update : List (Position × Expr Value τ)) (body : Stmt Value τ) : Stmt Value τ :=
  .block (place 0) (beginning init ++ [.whileLoop (place 1)
    (test.getD (.literal (place 2) (.bool true))) (updating (place 3) update body)])

end Stmt

namespace Eval

open Machine (outcome Alike Gives)
open Stmt (evaluating beginning updating asWhile)

/-! ### Statements in a row -/

theorem statements_evaluating (fuel : Nat) (values : List (Position × CheckedExpr))
    (rest : List CheckedStmt) :
    statements fuel (evaluating values ++ rest) =
      (do effects (values.map Prod.snd); statements fuel rest) := by
  induction values with
  | nil => rfl
  | cons value others ih =>
    have first : statements fuel (evaluating (value :: others) ++ rest) =
        (do let _ ← expression value.2; statements fuel (evaluating others ++ rest)) := by
      rw [evaluating, List.map_cons, List.cons_append, statements, statement]
      simp only [bind_assoc, pure_bind]
      rfl
    rw [first, ih, List.map_cons, effects]
    simp only [bind_assoc]

theorem statements_beginning (fuel : Nat) (init : ForInit Value Kind)
    (rest : List CheckedStmt) :
    statements fuel (beginning init ++ rest) = (do enter init; statements fuel rest) := by
  cases init with
  | none => rfl
  | declaration position type names =>
    rw [beginning, List.singleton_append, statements, statement, enter]
    simp only [bind_assoc, pure_bind]
  | expressions values => exact statements_evaluating fuel values rest

theorem statements_single (fuel : Nat) (stmt : CheckedStmt) :
    statements fuel [stmt] = statement fuel stmt := by
  rw [statements]
  refine Eq.trans (bind_congr fun completion => ?_) (bind_pure _)
  cases completion <;> rfl

/-! ### Updates -/

/-- A round with an update behind it, unless it leaves the loop. -/
def updatingRound (round : Machine Completion) (update : Machine Unit) : Machine Completion := do
  match ← round with
  | .normal =>
    update
    return .normal
  | other => return other

/-- **An update behind every round is one at the end of it,** as long as no round jumps to its
end. -/
theorem loop_updating {goOn : Machine Bool} {round : Machine Completion}
    {update : Machine Unit} (never : Gives round (· ≠ .continued)) (fuel : Nat) :
    loop goOn round update fuel = loop goOn (updatingRound round update) (pure ()) fuel := by
  induction fuel with
  | zero => rfl
  | succ fuel ih =>
    rw [loop, loop, ← ih]
    refine bind_congr fun holds => ?_
    cases holds with
    | false => rfl
    | true =>
      simp only [if_true, updatingRound, bind_assoc]
      refine never.bind_congr fun completion other => ?_
      cases completion with
      | normal => simp only [bind_assoc, pure_bind]
      | broke | returned => simp only [pure_bind]
      | continued => exact absurd rfl other

/-- A statement behind which no update is left out. -/
theorem never_continued {body : CheckedStmt} (noContinue : body.hasContinue = false)
    (fuel : Nat) : Gives (statement fuel body) (· ≠ .continued) :=
  (statement_possible fuel body).mono fun completion possible same => by
    subst same
    rw [Stmt.Possible, noContinue] at possible
    cases possible

/-- A body with its updates runs in a block of its own. -/
theorem statement_updating (fuel : Nat) (position : Position)
    (update : List (Position × CheckedExpr)) (body : CheckedStmt) :
    statement fuel (updating position update body) =
      Machine.inBlock (updatingRound (statement fuel body) (effects (update.map Prod.snd))) := by
  have behind : statements fuel (evaluating update) =
      (do effects (update.map Prod.snd); return .normal) := by
    have whole := statements_evaluating fuel update []
    rwa [List.append_nil] at whole
  rw [updating, statement, statements, behind]
  rfl

/-- **A round and its block come to the same.** -/
theorem round_alike {body : CheckedStmt} (nothing : DeclaresNothing body) (margin : Margin)
    (fuel : Nat) (position : Position) (update : List (Position × CheckedExpr)) :
    Alike (.around .identity margin []) 0 (Completion.rename .identity)
      (updatingRound (statement fuel body) (effects (update.map Prod.snd)))
      (statement fuel (updating position update body)) := by
  let T : Transfer := .around .identity margin [[]]
  have clear (m : Mention) : T.Clear m := by
    cases m <;> simp [T, Transfer.around, Transfer.Clear, Environment.find?]
  have labels : T.labels = .identity := IteratorLoop.labels_identity _ _
  have runs : Alike T 0 (Completion.rename .identity) (statement fuel body)
      (statement fuel (body.relabel T.labels)) :=
    statement_alike fuel body (.inr nothing) fun m _ => clear m
  have updates : Alike T 0 id (effects (update.map Prod.snd))
      (effects (Expr.relabelAll T.labels (update.map Prod.snd))) :=
    effects_alike _ fun m _ => clear m
  rw [labels, Stmt.relabel_identity] at runs
  rw [labels, Expr.relabelAll_identity] at updates
  rw [statement_updating]
  refine .enclosed (.bind runs fun completion => ?_)
  cases completion with
  | normal => exact .bind updates fun _ => .pure rfl
  | broke | continued | returned => exact .pure rfl

/-! ### The loops -/

/-- Steps that come to the same end a run in the same way, from every state. -/
theorem sameEnd_of_alike {a b : Machine Completion}
    (alike : ∀ margin, Alike (.around .identity margin []) 0 (Completion.rename .identity) a b)
    (state : State) : SameEnd (outcome a state) (outcome b state) := by
  let margin : Margin := ⟨Machine.sizeBehind a state, state.store⟩
  have states : Transfer.States (.around .identity margin []) 0 state state :=
    ⟨⟨[], state.environment, rfl, rfl, (IteratorLoop.frames_identity margin [] _).symm⟩,
      Store.alike_identity _ _⟩
  obtain ⟨result, ⟨top, below, empty, whole, moved⟩, store⟩ :=
    (alike margin).maps state state states (Nat.le_refl _)
  rw [List.length_eq_zero_iff.mp empty] at whole moved
  refine ⟨?_, ?_, store.objects_eq, store.setting_eq, (store.marks 0).symm⟩
  · have same : Completion.rename .identity = id := by
      funext completion
      cases completion <;> simp [Completion.rename]
    rw [result, Transfer.result_around, same, id_map]
  · exact moved.trans ((IteratorLoop.frames_identity margin [] below).trans whole.symm)

/-- Without a renaming, the condition of a loop is alike to itself. -/
theorem goesOn_same (test : Option CheckedExpr) (margin : Margin) :
    Alike (.around .identity margin []) 0 id (goesOn test) (goesOn test) := by
  let T : Transfer := .around .identity margin []
  have alike : Alike T 0 id (goesOn test) (goesOn (test.map (·.relabel T.labels))) :=
    goesOn_alike fun m _ => T.clear_of_extra_nil rfl m
  have labels : T.labels = .identity := IteratorLoop.labels_identity _ _
  have same : test.map (·.relabel T.labels) = test := by
    rw [labels, funext Expr.relabel_identity, Option.map_id']
  rwa [same] at alike

/-- The condition that a loop without one goes on with. -/
theorem condition_getD (test : Option CheckedExpr) (position : Position) :
    condition (test.getD (.literal position (.bool true))) = goesOn test := by
  cases test with
  | none =>
    rw [Option.getD_none, condition, expression, pure_bind]
    rfl
  | some test => rfl

theorem statement_asWhile (fuel : Nat) (place : Nat → Position) (init : ForInit Value Kind)
    (test : Option CheckedExpr) (update : List (Position × CheckedExpr)) (body : CheckedStmt) :
    statement fuel (asWhile place init test update body) =
      Machine.inBlock (do
        enter init
        loop (goesOn test) (statement fuel (updating (place 3) update body)) (pure ()) fuel) := by
  rw [asWhile, statement, statements_beginning, statements_single, statement, condition_getD]

/-- **Both loops end alike,** from every state and with any fuel. -/
theorem loops_sameEnd {body : CheckedStmt} (nothing : DeclaresNothing body)
    (noContinue : body.hasContinue = false) (position : Position) (place : Nat → Position)
    (init : ForInit Value Kind) (test : Option CheckedExpr)
    (update : List (Position × CheckedExpr)) (fuel : Nat) (state : State) :
    SameEnd
      (outcome (statement fuel (.forLoop position init test (update.map Prod.snd) body)) state)
      (outcome (statement fuel (asWhile place init test update body)) state) := by
  have loops (between : State) : SameEnd
      (outcome (loop (goesOn test) (statement fuel body) (effects (update.map Prod.snd)) fuel)
        between)
      (outcome (loop (goesOn test) (statement fuel (updating (place 3) update body)) (pure ())
        fuel) between) := by
    rw [loop_updating (never_continued noContinue fuel)]
    exact sameEnd_of_alike (fun margin => loop_alike
      (round_alike nothing margin fuel (place 3) update) (goesOn_same test margin) (.pure rfl)
      fuel) between
  have whole : statement fuel (.forLoop position init test (update.map Prod.snd) body) =
      Machine.inBlock (do
        enter init
        loop (goesOn test) (statement fuel body) (effects (update.map Prod.snd)) fuel) := by
    rw [statement]
    rfl
  rw [whole, statement_asWhile, Machine.outcome_inBlock, Machine.outcome_inBlock,
    Machine.outcome_bind, Machine.outcome_bind]
  rcases outcome (enter init) state.block with ⟨halt | entered, between⟩
  · exact ⟨rfl, rfl, rfl, fun _ _ => rfl, rfl⟩
  · obtain ⟨result, environment, objects, settings, mark⟩ := loops between
    exact ⟨result, congrArg List.tail environment, objects, settings, mark⟩

end Eval

/-! ### The check of both loops -/

/-- The expressions that a loop begins with. -/
def ForInit.values {α τ : Type} : ForInit α τ → List (Position × Expr α τ)
  | .expressions values => values
  | _ => []

namespace Check

open Stmt (evaluating beginning updating asWhile)

variable {τ : Type} {context : Context τ} {scope inner after : Scope} {inLoop : Bool}

/-- Checks an expression at its position. -/
def placed (context : Context τ) (scope : Scope) (value : Position × Expr Value τ) :
    Except CheckError (Position × CheckedExpr) := do
  return (value.1, ← expression context scope value.2)

theorem expressions_placed (values : List (Position × Expr Value τ)) :
    expressions context scope (values.map Prod.snd) =
      (do return (← values.mapM (placed context scope)).map Prod.snd) := by
  induction values with
  | nil => rfl
  | cons value rest ih =>
    rw [List.map_cons, expressions, ih, List.mapM_cons, placed]
    simp only [bind_assoc, pure_bind, List.map_cons]

/-- Expressions that can stand as statements are checked as such. -/
theorem statements_evaluating {values : List (Position × Expr Value τ)}
    (stand : ∀ value ∈ values, isStatement value.2 = true) (rest : List (Stmt Value τ)) :
    statements context scope inLoop (evaluating values ++ rest) = (do
      let checked ← values.mapM (placed context scope)
      return evaluating checked ++ (← statements context scope inLoop rest)) := by
  induction values with
  | nil => exact (bind_pure _).symm
  | cons value others ih =>
    obtain ⟨first, further⟩ := List.forall_mem_cons.mp stand
    have unfolded : evaluating (value :: others) ++ rest =
        .expression value.1 value.2 :: (evaluating others ++ rest) := rfl
    rw [unfolded, statements, statement, if_pos first, List.mapM_cons, placed]
    simp only [bind_assoc, pure_bind, ih further]
    rfl

/-- The beginning of a loop, as statements in front of it. -/
theorem statements_beginning {init : ForInit Value τ} {checked : ForInit Value Kind}
    (ok : forInit context scope init = .ok (checked, inner))
    (stand : ∀ value ∈ init.values, isStatement value.2 = true) (rest : List (Stmt Value τ)) :
    statements context scope inLoop (beginning init ++ rest) = (do
      return beginning checked ++ (← statements context inner inLoop rest)) := by
  cases init with
  | none =>
    cases ok
    exact (bind_pure _).symm
  | declaration position type names =>
    obtain ⟨type', resolved, ok⟩ := bind_ok.mp ok
    obtain ⟨⟨names', behind⟩, declared, ok⟩ := bind_ok.mp ok
    cases ok
    rw [beginning, List.singleton_append, statements, statement, resolved]
    simp only [declared, bind, Except.bind, pure, Except.pure]
    rfl
  | expressions values =>
    obtain ⟨values', checkedAll, ok⟩ := bind_ok.mp ok
    cases ok
    have same : values.mapM (placed context scope) = .ok values' := checkedAll
    have stand : ∀ value ∈ values, isStatement value.2 = true := stand
    rw [beginning, statements_evaluating stand, same]
    rfl

/-- **Where a `for` loop is accepted, so is the `while` loop,** if the expressions that it begins
with and its updates can stand as statements. -/
theorem asWhile_ok {p : Position} {init : ForInit Value τ} {test : Option (Expr Value τ)}
    {update : List (Position × Expr Value τ)} {body : Stmt Value τ} {checked : CheckedStmt}
    (ok : statement context scope inLoop
      (.forLoop p init test (update.map Prod.snd) body) = .ok (checked, after))
    (place : Nat → Position) :
    ∃ (init' : ForInit Value Kind) (test' : Option CheckedExpr)
      (update' : List (Position × CheckedExpr)) (body' : CheckedStmt),
      checked = .forLoop p init' test' (update'.map Prod.snd) body' ∧
      Eval.DeclaresNothing body' ∧
      ((∀ value ∈ init.values ++ update, isStatement value.2 = true) →
        statement context scope inLoop (asWhile place init test update body) =
          .ok (asWhile place init' test' update' body', after)) := by
  rw [statement] at ok
  obtain ⟨⟨init', inner⟩, begins, ok⟩ := bind_ok.mp ok
  obtain ⟨test', tests, ok⟩ := bind_ok.mp ok
  obtain ⟨exprs, updates, ok⟩ := bind_ok.mp ok
  obtain ⟨body', bodyOk, ok⟩ := bind_ok.mp ok
  cases ok
  rw [expressions_placed] at updates
  obtain ⟨update', placedOk, same⟩ := bind_ok.mp updates
  cases same
  obtain ⟨allowed, last, bodyOk⟩ := nested_ok bodyOk
  obtain ⟨-, behind, nothing⟩ := statement_scoped bodyOk
  have nothing := nothing allowed
  refine ⟨init', test', update', body', rfl, nothing, fun stand => ?_⟩
  obtain ⟨beginStand, updateStand⟩ := List.forall_mem_append.mp stand
  have stays : last = inner := by
    rw [behind]
    cases body' with
    | declaration => exact nothing.elim
    | _ => rfl
  have condition : expression context inner (test.getD (.literal (place 2) (.bool true))) =
      .ok (test'.getD (.literal (place 2) (.bool true))) := by
    cases test with
    | none =>
      cases tests
      rfl
    | some expr =>
      obtain ⟨expr', exprOk, same⟩ := bind_ok.mp tests
      cases same
      exact exprOk
  have inside : statements context inner true (evaluating update) =
      .ok (evaluating update') := by
    have whole : statements context inner true (evaluating update ++ []) = _ :=
      statements_evaluating updateStand []
    simpa only [placedOk, statements, List.append_nil, bind, Except.bind, pure, Except.pure]
      using whole
  have round : nested context inner true (updating (place 3) update body) =
      .ok (updating (place 3) update' body') := by
    rw [nested, updating, statement, statements, bodyOk, stays]
    simp only [refuseDeclaration, inside, bind, Except.bind, pure, Except.pure]
    rfl
  have loop : statements context inner inLoop [.whileLoop (place 1)
      (test.getD (.literal (place 2) (.bool true))) (updating (place 3) update body)] =
      .ok [.whileLoop (place 1) (test'.getD (.literal (place 2) (.bool true)))
        (updating (place 3) update' body')] := by
    rw [statements, statement, condition, round]
    simp only [statements, bind, Except.bind, pure, Except.pure]
  rw [asWhile, statement, statements_beginning begins beginStand, loop]
  rfl

end Check

namespace Eval

open Machine (outcome)
open Stmt (asWhile)

/-- **A `for` loop is its `while` loop.** Where the check accepts a `for` loop whose body has no
`continue` of this loop, it accepts the block with the `while` loop as well, if the expressions in
the head can stand as statements; and from every state and with any fuel nothing can tell the ends
of the two apart: not the result, nor the variables, nor the objects. -/
theorem forLoop_asWhile {τ : Type} {context : Check.Context τ} {scope after : Scope}
    {inLoop : Bool} {p : Position} {init : ForInit Value τ} {test : Option (Expr Value τ)}
    {update : List (Position × Expr Value τ)} {body : Stmt Value τ} {checked : CheckedStmt}
    (ok : Check.statement context scope inLoop
      (.forLoop p init test (update.map Prod.snd) body) = .ok (checked, after))
    (place : Nat → Position) :
    ∃ (init' : ForInit Value Kind) (test' : Option CheckedExpr)
      (update' : List (Position × CheckedExpr)) (body' : CheckedStmt),
      checked = .forLoop p init' test' (update'.map Prod.snd) body' ∧
      ((∀ value ∈ init.values ++ update, Check.isStatement value.2 = true) →
        Check.statement context scope inLoop (asWhile place init test update body) =
          .ok (asWhile place init' test' update' body', after)) ∧
      (body'.hasContinue = false → ∀ (fuel : Nat) (state : State),
        SameEnd (outcome (statement fuel checked) state)
          (outcome (statement fuel (asWhile place init' test' update' body')) state)) := by
  obtain ⟨init', test', update', body', rfl, nothing, accepted⟩ := Check.asWhile_ok ok place
  exact ⟨init', test', update', body', rfl, accepted, fun noContinue fuel state =>
    loops_sameEnd nothing noContinue p place init' test' update' fuel state⟩

section Counting

variable {τ : Type}

/-- The head of `for (int i = 0, j = 10; i < 5; i++, j--)`: what it declares. -/
def countingInit (int : τ) : ForInit Value τ :=
  .declaration ⟨1, 6⟩ ⟨⟨1, 6⟩, "int", int⟩
    [⟨⟨1, 10⟩, "i", some (.literal ⟨1, 14⟩ (.int 0))⟩,
      ⟨⟨1, 17⟩, "j", some (.literal ⟨1, 21⟩ (.int 10))⟩]

/-- Its condition. -/
def countingTest : Expr Value τ :=
  .binary ⟨1, 25⟩ .lt (.name ⟨1, 25⟩ "i") (.literal ⟨1, 29⟩ (.int 5))

/-- Its updates. -/
def countingUpdate : List (Position × Expr Value τ) :=
  [(⟨1, 32⟩, .step ⟨1, 32⟩ .increment (.name ⟨1, 32⟩ "i") false),
    (⟨1, 37⟩, .step ⟨1, 37⟩ .decrement (.name ⟨1, 37⟩ "j") false)]

/-- The body `{ if (i == 3) break; total += j; }`. -/
def countingBody : Stmt Value τ :=
  .block ⟨1, 42⟩ [
    .ifThen ⟨1, 44⟩ (.binary ⟨1, 48⟩ .eq (.name ⟨1, 48⟩ "i") (.literal ⟨1, 53⟩ (.int 3)))
      (.breaks ⟨1, 56⟩),
    .expression ⟨1, 63⟩ (.assign ⟨1, 63⟩ (some .add) (.name ⟨1, 63⟩ "total")
      (.name ⟨1, 72⟩ "j"))]

end Counting

/-- The loop leaves `total` at 27, and so does its `while` loop. -/
theorem counting_asWhile :
    let int : Kind := .core (.primitive .int)
    let place (n : Nat) : Position := ⟨2, n⟩
    let context := Program.context Store.initial []
    let forLoop : CheckedStmt := .forLoop ⟨1, 1⟩ (countingInit int) (some countingTest)
      (countingUpdate.map Prod.snd) countingBody
    let whileLoop : CheckedStmt :=
      asWhile place (countingInit int) (some countingTest) countingUpdate countingBody
    let state : State := ⟨[[("total", ⟨int, some (.int 0)⟩)]], Store.initial⟩
    Check.statement context [("total", int)] false (.forLoop ⟨1, 1⟩ (countingInit ())
      (some countingTest) (countingUpdate.map Prod.snd) countingBody) =
        .ok (forLoop, [("total", int)]) ∧
    Check.statement context [("total", int)] false
        (asWhile place (countingInit ()) (some countingTest) countingUpdate countingBody) =
      .ok (whileLoop, [("total", int)]) ∧
    SameEnd (outcome (statement 9 forLoop) state) (outcome (statement 9 whileLoop) state) ∧
    (outcome (statement 9 forLoop) state).2.environment =
      [[("total", ⟨int, some (.int 27)⟩)]] := by
  intro int place context forLoop whileLoop state
  have ok : Check.statement context [("total", int)] false (.forLoop ⟨1, 1⟩ (countingInit ())
      (some countingTest) (countingUpdate.map Prod.snd) countingBody) =
        .ok (forLoop, [("total", int)]) := by cbv
  have ok' : Check.statement context [("total", int)] false
        (asWhile place (countingInit ()) (some countingTest) countingUpdate countingBody) =
      .ok (whileLoop, [("total", int)]) := by cbv
  obtain ⟨init, test, update, body, same, accepted, ends⟩ := forLoop_asWhile ok place
  have stand : ∀ value ∈ (countingInit ()).values ++ countingUpdate,
      Check.isStatement value.2 = true := by decide
  have whole : asWhile place init test update body = whileLoop :=
    congrArg Prod.fst (Except.ok.inj ((accepted stand).symm.trans ok'))
  have noContinue : body.hasContinue = false := by
    obtain ⟨-, -, -, -, rfl⟩ := Stmt.forLoop.inj same
    rfl
  have sameEnd := ends noContinue 9 state
  rw [whole] at sameEnd
  exact ⟨ok, ok', sameEnd, by cbv⟩

end Eval

end Formulary
