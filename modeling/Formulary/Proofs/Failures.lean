/-
Where a run fails by itself.

Values fail with faults. A run fails by itself where a name has no variable, where a
variable has no value, and where a target is none (`Stage.Fails`). Each such failure is
one of a stage that the run has reached, so that a property of the stages is enough to
rule it out.

* `expression_raises`, `statement_raises` — an expression and a statement that fail by
  themselves come to a stage that fails so.
* `statements_raise` — the same of statements in a row, and so of a whole body.
-/

import Formulary.Proofs.Stages

namespace Formulary

open Machine (outcome)

open Eval

/-! ### Stages that fail -/

/-- What a stage fails with at once: a name without a variable or without a value, and a
target that is no variable. -/
inductive Stage.Fails : Stage → RunError → Prop
  | unknownName {scope position name state} (absent : state.environment.find? name = none) :
      Fails ⟨scope, .expression (.name position name), state⟩ (.unknownVariable name)
  | unknownTarget {scope position name state}
      (absent : state.environment.find? name = none) :
      Fails ⟨scope, .target (.name position name), state⟩ (.unknownVariable name)
  | unsetName {scope position name state kind}
      (unset : state.environment.find? name = some ⟨kind, none⟩) :
      Fails ⟨scope, .expression (.name position name), state⟩ (.uninitialized name)
  | unsetTarget {scope position name state kind}
      (unset : state.environment.find? name = some ⟨kind, none⟩) :
      Fails ⟨scope, .target (.name position name), state⟩ (.uninitialized name)
  | noVariable {scope target state} (other : Check.isVariable target = false) :
      Fails ⟨scope, .target target, state⟩ .notVariable

/-- A stage comes to one that fails. -/
def Stage.Raises (fuel : Nat) (stage : Stage) (error : RunError) : Prop :=
  ∃ last, Stage.Reaches fuel stage last ∧ last.Fails error

theorem Stage.Raises.behind {fuel : Nat} {stage next : Stage} {error : RunError}
    (raises : next.Raises fuel error) (entered : Stage.Enters fuel stage next) :
    stage.Raises fuel error := by
  obtain ⟨last, reached, fails⟩ := raises
  exact ⟨last, Relation.ReflTransGen.head entered reached, fails⟩

theorem Stage.Fails.raises {fuel : Nat} {stage : Stage} {error : RunError}
    (fails : stage.Fails error) : stage.Raises fuel error :=
  ⟨stage, Relation.ReflTransGen.refl, fails⟩

namespace Machine

variable {α β : Type}

/-- A step that does not fail by itself. -/
def Unfailing (step : Machine α) : Prop :=
  ∀ ⦃state behind error⦄, outcome step state ≠ (.error (.failure error), behind)

namespace Unfailing

theorem pure (a : α) : Unfailing (pure a : Machine α) :=
  fun _ _ _ h => nomatch h

theorem fail (fault : Fault) : Unfailing (fail fault : Machine α) :=
  fun _ _ _ h => nomatch h

theorem act (action : Action α) : Unfailing (act action) := by
  intro state behind error h
  rw [outcome_act] at h
  rcases ended : action.outcome state.store with ⟨fault | a, store⟩
  · rw [ended] at h
    cases h
  · rw [ended] at h
    cases h

theorem ofExcept (result : Except Fault α) : Unfailing (ofExcept result) := by
  cases result with
  | ok a => exact pure a
  | error fault => exact fail fault

theorem bind {step : Machine α} {next : α → Machine β} (first : Unfailing step)
    (second : ∀ a, Unfailing (next a)) : Unfailing (step >>= next) := by
  intro state behind error h
  rcases bind_error.mp h with h | ⟨a, between, _, h⟩
  · exact first h
  · exact second a h

theorem define (name : String) (kind : Kind) (value : Option Value) :
    Unfailing (define name kind value) :=
  fun _ _ _ h => nomatch h

/-- A sequence whose second part does not fail by itself, fails so in the first one. -/
theorem before {step : Machine α} {next : α → Machine β} {state behind : State}
    {error : RunError} (h : outcome (step >>= next) state = (.error (.failure error), behind))
    (second : ∀ a, Unfailing (next a)) :
    outcome step state = (.error (.failure error), behind) := by
  rcases bind_error.mp h with h | ⟨a, between, _, h⟩
  · exact h
  · exact (second a h).elim

end Unfailing

end Machine

open Machine (bind_error Unfailing)

namespace Eval

theorem startIteration_unfailing (value : Value) : Unfailing (startIteration value) := by
  rw [startIteration]
  split
  · exact .fail _
  · intro state behind error h
    rcases bind_error.mp h with h | ⟨_, between, _, h⟩
    · cases h
    · split at h <;> cases h

theorem bindElement_unfailing (kind : Kind) (name : String) (element : Value) :
    Unfailing (bindElement kind name element) :=
  .bind (.act _) fun _ => .define ..

theorem Location.assign_unfailing (location : Location) (narrowing : Bool) (value : Value) :
    Unfailing (location.assign narrowing value) := by
  refine .bind ?_ fun taken => .bind ?_ fun _ => .pure _
  · match location with
    | .variable .. => exact .act _
    | .field .. => exact .pure _
    | .element .. => exact .pure _
  · match location with
    | .variable .. => exact fun _ _ _ h => nomatch h
    | .field receiver name => exact .act (Member.write receiver name taken)
    | .element container index => exact .act (Place.store container index taken)

/-- A location that is a variable is the one of its target's name, and is found without
a change of the state. -/
theorem locate_variable {target : CheckedExpr} {name : String} {kind : Kind}
    {state behind : State}
    (h : outcome (locate target) state = (.ok (.variable name kind), behind)) :
    ∃ position value, target = .name position name ∧
      state.environment.find? name = some ⟨kind, value⟩ ∧ behind = state := by
  unfold locate at h
  split at h
  · next position ident =>
    obtain ⟨found, between, bound, h⟩ := Machine.bind_ok.mp h
    rw [Machine.outcome_binding] at bound
    split at bound
    · next binding present =>
      cases bound
      cases h
      exact ⟨position, _, rfl, present, rfl⟩
    · cases bound
  · obtain ⟨_, _, _, h⟩ := Machine.bind_ok.mp h
    cases h
  · obtain ⟨_, _, _, h⟩ := Machine.bind_ok.mp h
    cases h
  · obtain ⟨_, _, _, h⟩ := Machine.bind_ok.mp h
    obtain ⟨_, _, _, h⟩ := Machine.bind_ok.mp h
    cases h
  · cases h

/-- Reading a location that has been found fails only where the variable is not set. -/
theorem read_fails {target : CheckedExpr} {location : Location} {scope : Scope}
    {state found behind : State} {error : RunError}
    (located : outcome (locate target) state = (.ok location, found))
    (h : outcome location.read found = (.error (.failure error), behind)) :
    Stage.Fails ⟨scope, .target target, state⟩ error := by
  match location, located, h with
  | .variable name kind, located, h =>
    obtain ⟨position, value, rfl, present, rfl⟩ := locate_variable located
    rw [Location.read, Machine.outcome_valueOf, present] at h
    cases value with
    | none =>
      cases h
      exact .unsetTarget present
    | some value => cases h
  | .field receiver name, _, h => exact (Unfailing.act (Member.read receiver name) h).elim
  | .element container index, _, h =>
    exact (Unfailing.act (Place.load container index) h).elim

/-- Looking up what stands in the place of an operation does not fail. -/
theorem find_error {α : Type} {kind : Kind} {operation : KindOperation}
    {next : Option Value → Machine α} {state behind : State} {error : RunError}
    (h : outcome (Machine.act (Dispatch.find kind operation) >>= next) state =
      (.error (.failure error), behind)) :
    ∃ found, outcome (next found) state = (.error (.failure error), behind) := by
  rcases bind_error.mp h with h | ⟨found, between, looked, worked⟩
  · exact (Unfailing.act _ h).elim
  · obtain ⟨-, rfl⟩ := find_ok looked
    exact ⟨found, worked⟩

theorem condition_error {test : CheckedExpr} {state behind : State} {error : RunError}
    (h : outcome (condition test) state = (.error (.failure error), behind)) :
    outcome (expression test) state = (.error (.failure error), behind) :=
  Unfailing.before h fun _ => .ofExcept _

theorem truth_error {expr : CheckedExpr} {state behind : State} {error : RunError}
    (h : outcome (do return Value.bool (← Machine.ofExcept
      (Arithmetic.truth (← expression expr)))) state = (.error (.failure error), behind)) :
    outcome (expression expr) state = (.error (.failure error), behind) :=
  Unfailing.before h fun _ => .bind (.ofExcept _) fun _ => .pure _

mutual

/-- An expression that fails by itself comes to a stage that fails. -/
theorem expression_raises {fuel : Nat} {scope : Scope} :
    ∀ (expr : CheckedExpr) {state behind : State} {error : RunError},
      outcome (expression expr) state = (.error (.failure error), behind) →
      Stage.Raises fuel ⟨scope, .expression expr, state⟩ error
  | .literal .., _, _, _, h => by
    rw [expression] at h
    cases h
  | .name _ ident, state, _, _, h => by
    rw [expression, Machine.outcome_valueOf] at h
    split at h
    · cases h
    · next unset =>
      cases h
      exact Stage.Fails.raises (.unsetName unset)
    · next absent =>
      cases h
      exact Stage.Fails.raises (.unknownName absent)
  | .typeName .., _, _, _, h => by
    rw [expression] at h
    exact (Unfailing.act _ h).elim
  | .field _ receiver _, _, _, _, h => by
    by_cases static : IsType receiver
    · obtain ⟨_, _, rfl⟩ := static
      rw [expression] at h
      exact (Unfailing.act _ h).elim
    · rw [expression_field static] at h
      have failed := Unfailing.before h fun _ => .act _
      exact (expression_raises receiver failed).behind (.receiver static)
  | .methodCall _ receiver _ args, _, _, _, h => by
    by_cases static : IsType receiver
    · obtain ⟨_, _, rfl⟩ := static
      rw [expression] at h
      have failed := Unfailing.before h fun _ => .act _
      exact (expressions_raise args failed).behind .staticArgs
    · rw [expression_methodCall static] at h
      rcases bind_error.mp h with h | ⟨_, _, ended, h⟩
      · exact (expression_raises receiver h).behind (.callReceiver static)
      · have failed := Unfailing.before h fun _ => .act _
        exact (expressions_raise args failed).behind (.callArgs static ended)
  | .call _ _ args, _, _, _, h => by
    rw [expression] at h
    obtain ⟨_, worked⟩ := find_error h
    have failed := Unfailing.before worked fun _ => .act _
    exact (expressions_raise args failed).behind .functionArgs
  | .index _ container place, _, _, _, h => by
    rw [expression] at h
    rcases bind_error.mp h with h | ⟨_, _, ended, h⟩
    · exact (expression_raises container h).behind .container
    · have failed := Unfailing.before h fun _ => .act _
      exact (expression_raises place failed).behind (.place ended)
  | .unary _ _ operand, _, _, _, h => by
    rw [expression] at h
    have failed := Unfailing.before h fun _ => .act _
    exact (expression_raises operand failed).behind .operand
  | .step _ _ target _, _, _, _, h => by
    rw [expression] at h
    rcases bind_error.mp h with h | ⟨location, found, located, h⟩
    · exact (locate_raises target h).behind .stepped
    · have failed := Unfailing.before h fun _ =>
        .bind (.act _) fun _ => .bind (Location.assign_unfailing ..) fun _ => .pure _
      exact (read_fails located failed).raises.behind .stepped
  | .binary _ _ left right, _, _, _, h => by
    rw [expression] at h
    rcases bind_error.mp h with h | ⟨_, _, ended, h⟩
    · exact (expression_raises left h).behind .left
    · have failed := Unfailing.before h fun _ => .act _
      exact (expression_raises right failed).behind (.right ended)
  | .logical _ op left right, _, _, _, h => by
    rw [expression] at h
    rcases bind_error.mp h with h | ⟨value, between, worked, h⟩
    · exact (expression_raises left h).behind .first
    · rcases bind_error.mp h with h | ⟨holds, behind, taken, h⟩
      · exact (Unfailing.ofExcept _ h).elim
      · have ended : outcome (condition left) _ = (.ok holds, behind) :=
          (Machine.outcome_bind_ok worked).trans taken
        -- The right operand is left out where the left one has decided.
        cases op with
        | and =>
          cases holds with
          | false => cases h
          | true =>
            exact (expression_raises right (truth_error h)).behind (.second ended (by simp))
        | or =>
          cases holds with
          | true => cases h
          | false =>
            exact (expression_raises right (truth_error h)).behind (.second ended (by simp))
  | .conditional _ test thenValue elseValue, _, _, _, h => by
    rw [expression] at h
    rcases bind_error.mp h with h | ⟨value, between, worked, h⟩
    · exact (expression_raises test h).behind .test
    · rcases bind_error.mp h with h | ⟨holds, behind, taken, h⟩
      · exact (Unfailing.ofExcept _ h).elim
      · have ended : outcome (condition test) _ = (.ok holds, behind) :=
          (Machine.outcome_bind_ok worked).trans taken
        cases holds with
        | true => exact (expression_raises thenValue h).behind (.thenValue ended)
        | false => exact (expression_raises elseValue h).behind (.elseValue ended)
  | .assign _ none target value, _, _, _, h => by
    rw [expression] at h
    rcases bind_error.mp h with h | ⟨location, found, located, h⟩
    · exact (locate_raises target h).behind .assigned
    · have failed := Unfailing.before h fun _ => Location.assign_unfailing ..
      exact (expression_raises value failed).behind (.newValue located)
  | .assign _ (some op) target value, _, _, _, h => by
    rw [expression] at h
    rcases bind_error.mp h with h | ⟨location, found, located, h⟩
    · exact (locate_raises target h).behind .assigned
    · rcases bind_error.mp h with h | ⟨old, loaded, read, h⟩
      · exact (read_fails located h).raises.behind .assigned
      · have failed := Unfailing.before h fun _ =>
          .bind (.act _) fun _ => Location.assign_unfailing ..
        exact (expression_raises value failed).behind (.combined located read)
  | .cast _ _ operand, _, _, _, h => by
    rw [expression] at h
    obtain ⟨_, worked⟩ := find_error h
    have failed := Unfailing.before worked fun _ => .act _
    exact (expression_raises operand failed).behind .casted
  | .instanceOf _ value _, _, _, _, h => by
    rw [expression] at h
    rcases bind_error.mp h with h | ⟨_, _, _, h⟩
    · exact (expression_raises value h).behind .tested
    · split at h
      · cases h
      · exact (Unfailing.act _ h).elim
  | .new _ _ args, _, _, _, h => by
    rw [expression] at h
    obtain ⟨_, worked⟩ := find_error h
    have failed := Unfailing.before worked fun _ => .act _
    exact (expressions_raise args failed).behind .newArgs

/-- Expressions in a row that fail by themselves come to a stage that fails. -/
theorem expressions_raise {fuel : Nat} {scope : Scope} :
    ∀ (exprs : List CheckedExpr) {state behind : State} {error : RunError},
      outcome (expressions exprs) state = (.error (.failure error), behind) →
      Stage.Raises fuel ⟨scope, .expressions exprs, state⟩ error
  | [], _, _, _, h => by
    rw [expressions] at h
    cases h
  | expr :: rest, _, _, _, h => by
    rw [expressions] at h
    rcases bind_error.mp h with h | ⟨_, _, ended, h⟩
    · exact (expression_raises expr h).behind .head
    · have failed := Unfailing.before h fun _ => .pure _
      exact (expressions_raise rest failed).behind (.tail ended)

/-- A target that fails by itself comes to a stage that fails. -/
theorem locate_raises {fuel : Nat} {scope : Scope} :
    ∀ (target : CheckedExpr) {state behind : State} {error : RunError},
      outcome (locate target) state = (.error (.failure error), behind) →
      Stage.Raises fuel ⟨scope, .target target, state⟩ error
  | .name _ ident, _, _, _, h => by
    rw [locate] at h
    rcases bind_error.mp h with h | ⟨_, _, _, h⟩
    · rw [Machine.outcome_binding] at h
      split at h
      · cases h
      · next absent =>
        cases h
        exact Stage.Fails.raises (.unknownTarget absent)
    · cases h
  | .field _ receiver _, _, _, _, h => by
    by_cases static : IsType receiver
    · obtain ⟨_, _, rfl⟩ := static
      rw [locate] at h
      rcases bind_error.mp h with h | ⟨_, _, _, h⟩
      · exact (Unfailing.act _ h).elim
      · cases h
    · rw [locate_field static] at h
      have failed := Unfailing.before h fun _ => .pure _
      exact (expression_raises receiver failed).behind (.targetReceiver static)
  | .index _ container place, _, _, _, h => by
    rw [locate] at h
    rcases bind_error.mp h with h | ⟨_, _, ended, h⟩
    · exact (expression_raises container h).behind .targetContainer
    · have failed := Unfailing.before h fun _ => .pure _
      exact (expression_raises place failed).behind (.targetPlace ended)
  | .literal .., _, _, _, h | .typeName .., _, _, _, h | .methodCall .., _, _, _, h
  | .call .., _, _, _, h | .unary .., _, _, _, h | .step .., _, _, _, h
  | .binary .., _, _, _, h | .logical .., _, _, _, h | .conditional .., _, _, _, h
  | .assign .., _, _, _, h | .cast .., _, _, _, h | .instanceOf .., _, _, _, h
  | .new .., _, _, _, h => by
    cases h
    exact Stage.Fails.raises (.noVariable rfl)

end

theorem effects_raise {fuel : Nat} {scope : Scope} :
    ∀ (exprs : List CheckedExpr) {state behind : State} {error : RunError},
      outcome (effects exprs) state = (.error (.failure error), behind) →
      Stage.Raises fuel ⟨scope, .effects exprs, state⟩ error
  | [], _, _, _, h => by
    rw [effects] at h
    cases h
  | expr :: rest, _, _, _, h => by
    rw [effects] at h
    rcases bind_error.mp h with h | ⟨_, _, ended, h⟩
    · exact (expression_raises expr h).behind .effect
    · exact (effects_raise rest h).behind (.effects ended)

theorem declare_raises {fuel : Nat} {kind : Kind} :
    ∀ (names : List (Declarator Value Kind)) {scope : Scope} {state behind : State}
      {error : RunError},
      outcome (declare kind names) state = (.error (.failure error), behind) →
      Stage.Raises fuel ⟨scope, .declare kind names, state⟩ error
  | [], _, _, _, _, h => by
    rw [declare] at h
    cases h
  | declarator :: rest, _, _, _, _, h => by
    rw [declare_cons] at h
    rcases bind_error.mp h with h | ⟨_, _, ended, h⟩
    · rw [declare] at h
      split at h
      · cases h
      · next initial given =>
        obtain ⟨_, worked⟩ := find_error h
        have failed := Unfailing.before worked fun _ =>
          .bind (.act _) fun _ => .bind (.define ..) fun _ => .pure _
        exact (expression_raises initial failed).behind (.initial given)
    · exact (declare_raises rest h).behind (.declared ended)

/-! ### Failures of loops -/

section Loops

variable {fuel : Nat} {body : CheckedStmt}
  (bodyRaises : ∀ {scope : Scope} {state behind : State} {error : RunError},
    outcome (statement fuel body) state = (.error (.failure error), behind) →
    Stage.Raises fuel ⟨scope, .statement body, state⟩ error)

include bodyRaises

theorem loop_raises {scope : Scope} {test : Option CheckedExpr} {update : List CheckedExpr} :
    ∀ (left : Nat) {state behind : State} {error : RunError},
      outcome (loop (goesOn test) (statement fuel body) (effects update) left) state =
        (.error (.failure error), behind) →
      Stage.Raises fuel ⟨scope, .rounds left test update body, state⟩ error
  | 0, _, _, _, h => by
    rw [loop] at h
    cases h
  | left + 1, state, behind, error, h => by
    rw [loop] at h
    rcases bind_error.mp h with h | ⟨holds, tested, tests, h⟩
    · cases test with
      | none => cases h
      | some test => exact (expression_raises test (condition_error h)).behind .roundTest
    · cases holds with
      | false => cases h
      | true =>
        rcases bind_error.mp h with h | ⟨completion, between, ended, h⟩
        · exact (bodyRaises h).behind (.roundBody tests)
        · have further (stays : completion.StaysIn)
              (h : outcome (effects update >>= fun _ =>
                loop (goesOn test) (statement fuel body) (effects update) left) between =
                  (.error (.failure error), behind)) :
              Stage.Raises fuel ⟨scope, .rounds (left + 1) test update body, state⟩ error := by
            rcases bind_error.mp h with h | ⟨_, _, updated, h⟩
            · exact (effects_raise update h).behind (.roundUpdate tests ended stays)
            · exact (loop_raises left h).behind (.nextRound tests ended stays updated)
          cases completion with
          | broke => cases h
          | returned value => cases h
          | normal => exact further trivial h
          | continued => exact further trivial h

theorem loopOnce_raises {scope : Scope} {test : CheckedExpr} :
    ∀ (left : Nat) {state behind : State} {error : RunError},
      outcome (loopOnce (condition test) (statement fuel body) left) state =
        (.error (.failure error), behind) →
      Stage.Raises fuel ⟨scope, .once left body test, state⟩ error
  | 0, _, _, _, h => by
    rw [loopOnce] at h
    cases h
  | left + 1, state, behind, error, h => by
    rw [loopOnce] at h
    rcases bind_error.mp h with h | ⟨completion, between, ended, h⟩
    · exact (bodyRaises h).behind .onceBody
    · have further (stays : completion.StaysIn)
          (h : outcome (condition test >>= fun holds => if holds = true then
            loopOnce (condition test) (statement fuel body) left else pure .normal) between =
              (.error (.failure error), behind)) :
          Stage.Raises fuel ⟨scope, .once (left + 1) body test, state⟩ error := by
        rcases bind_error.mp h with h | ⟨holds, _, tests, h⟩
        · exact (expression_raises test (condition_error h)).behind (.onceTest ended stays)
        · cases holds with
          | false => cases h
          | true => exact (loopOnce_raises left h).behind (.onceMore ended stays tests)
      cases completion with
      | broke => cases h
      | returned value => cases h
      | normal => exact further trivial h
      | continued => exact further trivial h

theorem loopOver_raises {scope : Scope} {kind : Kind} {name : String} :
    ∀ (left : Nat) (cursor : Cursor) {state behind : State} {error : RunError},
      outcome (loopOver (round fuel kind name body) left cursor) state =
        (.error (.failure error), behind) →
      Stage.Raises fuel ⟨scope, .over left kind name body cursor, state⟩ error
  | 0, _, _, _, _, h => by
    rw [loopOver] at h
    cases h
  | left + 1, cursor, state, behind, error, h => by
    rw [loopOver] at h
    rcases bind_error.mp h with h | ⟨⟨element, later⟩, taken, next, h⟩
    · exact (Unfailing.act _ h).elim
    · cases element with
      | none => cases h
      | some element =>
        rcases bind_error.mp h with h | ⟨completion, between, ended, h⟩
        · obtain ⟨last, inside, rfl⟩ := Machine.inBlock_result h
          rcases bind_error.mp inside with h | ⟨_, _, bound, h⟩
          · exact (bindElement_unfailing kind name element h).elim
          · exact (bodyRaises h).behind (.overBody next bound)
        · have further (stays : completion.StaysIn)
              (h : outcome (loopOver (round fuel kind name body) left later) between =
                (.error (.failure error), behind)) :
              Stage.Raises fuel ⟨scope, .over (left + 1) kind name body cursor, state⟩ error :=
            (loopOver_raises left later h).behind (.overNext next ended stays)
          cases completion with
          | broke => cases h
          | returned value => cases h
          | normal => exact further trivial h
          | continued => exact further trivial h

end Loops

/-! ### Failures of statements -/

theorem enter_raises {fuel : Nat} {scope : Scope} {position : Position}
    {init : ForInit Value Kind} {test : Option CheckedExpr} {update : List CheckedExpr}
    {body : CheckedStmt} {state behind : State} {error : RunError}
    (h : outcome (enter init) state.block = (.error (.failure error), behind)) :
    Stage.Raises fuel ⟨scope, .statement (.forLoop position init test update body), state⟩
      error := by
  match init, h with
  | .none, h => cases h
  | .declaration _ _ names, h => exact (declare_raises names h).behind .forDeclares
  | .expressions values, h => exact (effects_raise _ h).behind .forEvaluates

mutual

/-- A statement that fails by itself comes to a stage that fails. -/
theorem statement_raises {fuel : Nat} :
    ∀ (stmt : CheckedStmt) {scope : Scope} {state behind : State} {error : RunError},
      outcome (statement fuel stmt) state = (.error (.failure error), behind) →
      Stage.Raises fuel ⟨scope, .statement stmt, state⟩ error
  | .block _ inner, _, state, _, error, h => by
    rw [statement] at h
    obtain ⟨last, inside, rfl⟩ := Machine.inBlock_result h
    exact (statements_raise inner inside).behind .block
  | .empty _, _, _, _, _, h => by
    rw [statement] at h
    cases h
  | .declaration _ _ names, _, _, _, _, h => by
    rw [statement] at h
    have failed := Unfailing.before h fun _ => .pure _
    exact (declare_raises names failed).behind .declaration
  | .expression _ value, _, _, _, _, h => by
    rw [statement] at h
    have failed := Unfailing.before h fun _ => .pure _
    exact (expression_raises value failed).behind .evaluated
  | .ifThen _ test thenBranch, _, _, _, _, h => by
    rw [statement] at h
    rcases bind_error.mp h with h | ⟨holds, _, tests, h⟩
    · exact (expression_raises test (condition_error h)).behind .ifTest
    · cases holds with
      | true => exact (statement_raises thenBranch h).behind (.ifThen tests)
      | false => cases h
  | .ifThenElse _ test thenBranch elseBranch, _, _, _, _, h => by
    rw [statement] at h
    rcases bind_error.mp h with h | ⟨holds, _, tests, h⟩
    · exact (expression_raises test (condition_error h)).behind .branchTest
    · cases holds with
      | true => exact (statement_raises thenBranch h).behind (.thenBranch tests)
      | false => exact (statement_raises elseBranch h).behind (.elseBranch tests)
  | .whileLoop _ test body, scope, state, _, error, h => by
    rw [statement] at h
    have rounds : Stage.Raises fuel ⟨scope, .rounds fuel (some test) [] body, state⟩ error :=
      loop_raises (statement_raises body) fuel h
    exact rounds.behind .whileLoop
  | .doLoop _ body test, _, _, _, _, h => by
    rw [statement] at h
    exact (loopOnce_raises (statement_raises body) fuel h).behind .doLoop
  | .forLoop _ init test update body, _, state, _, error, h => by
    rw [statement] at h
    obtain ⟨last, inside, rfl⟩ := Machine.inBlock_result h
    rcases bind_error.mp inside with h | ⟨_, _, entered, h⟩
    · exact enter_raises h
    · exact (loop_raises (statement_raises body) fuel h).behind (.forLoop entered)
  | .forEach _ type name iterable body, _, _, _, _, h => by
    rw [statement_forEach] at h
    rcases bind_error.mp h with h | ⟨value, worked, ended, h⟩
    · exact (expression_raises iterable h).behind .iterable
    · rcases bind_error.mp h with h | ⟨cursor, behind, started, h⟩
      · exact (startIteration_unfailing value h).elim
      · exact (loopOver_raises (statement_raises body) fuel cursor h).behind
          (.forEach ended started)
  | .returns _ none, _, _, _, _, h => by
    rw [statement] at h
    cases h
  | .returns _ (some value), _, _, _, _, h => by
    rw [statement] at h
    have failed := Unfailing.before h fun _ => .pure _
    exact (expression_raises value failed).behind .returned
  | .breaks _, _, _, _, _, h => by
    rw [statement] at h
    cases h
  | .continues _, _, _, _, _, h => by
    rw [statement] at h
    cases h

/-- **Statements that fail by themselves come to a name or a target that fails.** -/
theorem statements_raise {fuel : Nat} :
    ∀ (stmts : List CheckedStmt) {scope : Scope} {state behind : State} {error : RunError},
      outcome (statements fuel stmts) state = (.error (.failure error), behind) →
      Stage.Raises fuel ⟨scope, .statements stmts, state⟩ error
  | [], _, _, _, _, h => by
    rw [statements] at h
    cases h
  | first :: rest, _, _, _, _, h => by
    rw [statements] at h
    rcases bind_error.mp h with h | ⟨completion, _, ended, h⟩
    · exact (statement_raises first h).behind .statement
    · cases completion with
      | normal => exact (statements_raise rest h).behind (.statements ended)
      | broke => cases h
      | continued => cases h
      | returned value => cases h

end

end Eval

end Formulary
