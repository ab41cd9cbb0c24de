/-
What the steps of the machine do.

`Machine.outcome` is what a step comes to from a state: a result and the state behind
it. Every primitive of the machine has one equation for its outcome, and the outcome
of a sequence is that of its parts one after the other.

* `outcome_bind`, `bind_ok`, `bind_error` — a sequence, forwards and backwards: it ends
  with a value when both parts do, and halts where the first of them halts.
* `outcome_act` — an action on the store leaves the variables as they are.
* `Machine.Within` — a step that changes the variables only within a relation and halts
  only for the reasons that a run may halt for; kept by sequences (`Within.bind`).
-/

import Formulary.Program
import Mathlib

namespace Formulary

/-! ### Reasons to halt -/

/-- The reasons that evaluating, converting and iterating halt for: a fault of a value,
a name without a variable or without a value, a target that is no variable, and fuel
that has been used up. -/
inductive Halt.Ordinary : Halt → Prop
  | fault (fault : Fault) : Ordinary (.fault fault)
  | unknownVariable (name : String) : Ordinary (.failure (.unknownVariable name))
  | uninitialized (name : String) : Ordinary (.failure (.uninitialized name))
  | notVariable : Ordinary (.failure .notVariable)
  | outOfFuel : Ordinary .outOfFuel

/-- What an action comes to from a store: its result, and the store behind it. -/
def Action.outcome {α : Type} (action : Action α) (store : Store) :
    Except Fault α × Store :=
  action store

/-- An action in two parts: the second one goes on in the store that the first one leaves,
and is left out when the first one fails. -/
theorem Action.outcome_bind {α β : Type} (first : Action α) (next : α → Action β)
    (store : Store) :
    outcome (first >>= next) store =
      match outcome first store with
      | (.ok a, behind) => outcome (next a) behind
      | (.error fault, behind) => (.error fault, behind) := by
  have unfolded : outcome (first >>= next) store =
      ExceptT.bindCont next (first store).1 (first store).2 := rfl
  rw [unfolded, outcome]
  rcases first store with ⟨_ | _, _⟩ <;> rfl

theorem Action.outcome_get {α : Type} (next : Store → Action α) (store : Store) :
    Action.outcome (get >>= next) store = (next store).outcome store := rfl

theorem Action.outcome_write {α : Type} (ref : Ref) (entity : Entity) (next : Action α)
    (store : Store) :
    Action.outcome (Action.write ref entity >>= fun _ => next) store =
      next.outcome (store.update ref entity) := rfl

theorem Action.outcome_consult {α : Type} (f : Store → Except Fault α) (store : Store) :
    Action.outcome (Action.consult f) store = (f store, store) := by
  unfold Action.consult
  rw [Action.outcome_get]
  cases f store <;> rfl

/-- The state in a new block. -/
def State.block (state : State) : State :=
  { state with environment := [] :: state.environment }

/-- The state behind a block. -/
def State.left (state : State) : State :=
  { state with environment := state.environment.tail }

namespace Machine

variable {α β : Type}

/-! ### Outcomes -/

/-- What a step comes to from a state: its result, and the state behind it. -/
def outcome (step : Machine α) (state : State) : Except Halt α × State :=
  step state

@[simp] theorem outcome_pure (a : α) (state : State) :
    outcome (pure a) state = (.ok a, state) := rfl

@[simp] theorem outcome_throw (halt : Halt) (state : State) :
    outcome (throw halt : Machine α) state = (.error halt, state) := rfl

@[simp] theorem outcome_fail (fault : Fault) (state : State) :
    outcome (fail fault : Machine α) state = (.error (.fault fault), state) := rfl

@[simp] theorem outcome_failWith (error : EvaluationError) (state : State) :
    outcome (failWith error : Machine α) state =
      (.error (.fault (.evaluation error)), state) := rfl

@[simp] theorem outcome_stop (error : RunError) (state : State) :
    outcome (stop error : Machine α) state = (.error (.failure error), state) := rfl

@[simp] theorem outcome_get (state : State) :
    outcome (get : Machine State) state = (.ok state, state) := rfl

@[simp] theorem outcome_changeEnvironment (change : Environment → Environment)
    (state : State) :
    outcome (changeEnvironment change) state =
      (.ok (), { state with environment := change state.environment }) := rfl

@[simp] theorem outcome_define (name : String) (kind : Kind) (value : Option Value)
    (state : State) :
    outcome (define name kind value) state =
      (.ok (), { state with environment := state.environment.define name ⟨kind, value⟩ }) :=
  rfl

theorem outcome_inBlock (step : Machine α) (state : State) :
    outcome (inBlock step) state =
      ((outcome step state.block).1, (outcome step state.block).2.left) := rfl

/-- A block ends with what its inside ends with. -/
theorem inBlock_result {step : Machine α} {state behind : State} {result : Except Halt α}
    (h : outcome (inBlock step) state = (result, behind)) :
    ∃ last, outcome step state.block = (result, last) ∧ behind = last.left := by
  rw [outcome_inBlock] at h
  cases h
  exact ⟨_, rfl, rfl⟩

/-- A sequence: the second part goes on from where the first one has ended, and is left
out when the first one halts. -/
theorem outcome_bind (step : Machine α) (next : α → Machine β) (state : State) :
    outcome (step >>= next) state =
      match outcome step state with
      | (.ok a, behind) => outcome (next a) behind
      | (.error halt, behind) => (.error halt, behind) := by
  have unfolded : outcome (step >>= next) state =
      ExceptT.bindCont next (step state).1 (step state).2 := rfl
  rw [unfolded, outcome]
  rcases step state with ⟨_ | _, _⟩ <;> rfl

theorem outcome_bind_ok {step : Machine α} {next : α → Machine β} {state behind : State}
    {a : α} (h : outcome step state = (.ok a, behind)) :
    outcome (step >>= next) state = outcome (next a) behind := by
  rw [outcome_bind, h]

theorem outcome_bind_error {step : Machine α} {next : α → Machine β}
    {state behind : State} {halt : Halt} (h : outcome step state = (.error halt, behind)) :
    outcome (step >>= next) state = (.error halt, behind) := by
  rw [outcome_bind, h]

/-- A sequence ends with a value exactly when both of its parts do. -/
theorem bind_ok {step : Machine α} {next : α → Machine β} {state behind : State} {b : β} :
    outcome (step >>= next) state = (.ok b, behind) ↔
      ∃ a between, outcome step state = (.ok a, between) ∧
        outcome (next a) between = (.ok b, behind) := by
  rw [outcome_bind]
  rcases outcome step state with ⟨halt | a, between⟩
  · simp
  · refine ⟨fun h => ⟨a, between, rfl, h⟩, ?_⟩
    rintro ⟨_, _, ended, h⟩
    cases ended
    exact h

/-- A sequence halts exactly where one of its parts halts. -/
theorem bind_error {step : Machine α} {next : α → Machine β} {state behind : State}
    {halt : Halt} :
    outcome (step >>= next) state = (.error halt, behind) ↔
      outcome step state = (.error halt, behind) ∨
        ∃ a between, outcome step state = (.ok a, between) ∧
          outcome (next a) between = (.error halt, behind) := by
  rw [outcome_bind]
  rcases outcome step state with ⟨halt' | a, between⟩
  · simp
  · refine ⟨fun h => .inr ⟨a, between, rfl, h⟩, ?_⟩
    rintro (ended | ⟨_, _, ended, h⟩)
    · cases ended
    · cases ended
      exact h

/-- An action changes the store and leaves the variables as they are. -/
theorem outcome_act (action : Action α) (state : State) :
    outcome (act action) state =
      match action.outcome state.store with
      | (.ok a, store) => (.ok a, { state with store })
      | (.error fault, store) => (.error (.fault fault), { state with store }) := by
  have unfolded : outcome (act action) state =
      outcome (ofExcept (action.outcome state.store).1)
        { state with store := (action.outcome state.store).2 } := rfl
  rw [unfolded]
  rcases action.outcome state.store with ⟨_ | _, _⟩ <;> rfl

/-- Two actions in a row are two steps in a row. -/
theorem act_bind (first : Action α) (next : α → Action β) :
    act (first >>= next) = act first >>= fun a => act (next a) := by
  funext state
  have same : outcome (act (first >>= next)) state =
      outcome (act first >>= fun a => act (next a)) state := by
    rw [outcome_bind, outcome_act, outcome_act, Action.outcome_bind]
    rcases first.outcome state.store with ⟨fault | a, behind⟩
    · rfl
    · dsimp only
      rw [outcome_act]
  exact same

/-- An action that ends with a value. -/
theorem act_ok {action : Action α} {state behind : State} {a : α} :
    outcome (act action) state = (.ok a, behind) ↔
      ∃ store, action.outcome state.store = (.ok a, store) ∧
        behind = { state with store } := by
  rw [outcome_act]
  rcases action.outcome state.store with ⟨fault | b, store⟩
  · constructor
    · intro h
      cases h
    · rintro ⟨_, h, _⟩
      cases h
  · constructor
    · intro h
      cases h
      exact ⟨store, rfl, rfl⟩
    · rintro ⟨_, h, rfl⟩
      cases h
      rfl

@[simp] theorem outcome_ofExcept_ok (a : α) (state : State) :
    outcome (ofExcept (.ok a)) state = (.ok a, state) := rfl

@[simp] theorem outcome_ofExcept_error (fault : Fault) (state : State) :
    outcome (ofExcept (.error fault) : Machine α) state = (.error (.fault fault), state) :=
  rfl

/-- The variable of a name is looked up and nothing changes. -/
theorem outcome_binding (name : String) (state : State) :
    outcome (binding name) state =
      match state.environment.find? name with
      | some found => (.ok found, state)
      | none => (.error (.failure (.unknownVariable name)), state) := by
  have unfolded : outcome (binding name) state =
      outcome (match state.environment.find? name with
        | some found => pure found
        | none => stop (.unknownVariable name)) state := rfl
  rw [unfolded]
  cases state.environment.find? name <;> rfl

/-- The value of a variable is looked up and nothing changes. -/
theorem outcome_valueOf (name : String) (state : State) :
    outcome (valueOf name) state =
      match state.environment.find? name with
      | some ⟨_, some value⟩ => (.ok value, state)
      | some ⟨_, none⟩ => (.error (.failure (.uninitialized name)), state)
      | none => (.error (.failure (.unknownVariable name)), state) := by
  rw [valueOf, outcome_bind, outcome_binding]
  rcases state.environment.find? name with _ | ⟨kind, _ | value⟩ <;> rfl

/-! ### What a step may change and how it may halt -/

/-- From a state, a step changes the variables within a relation, however it ends, and
it halts for ordinary reasons only. -/
structure Within (related : Environment → Environment → Prop) (step : Machine α)
    (state : State) : Prop where
  changes : related state.environment (outcome step state).2.environment
  halts : ∀ halt, (outcome step state).1 = .error halt → halt.Ordinary

namespace Within

variable {related : Environment → Environment → Prop} [IsPreorder Environment related]
  {step : Machine α} {state : State}

theorem pure (a : α) : Within related (pure a) state :=
  ⟨Std.Refl.refl _, fun _ h => by simp at h⟩

theorem throw {halt : Halt} (ordinary : halt.Ordinary) :
    Within related (throw halt : Machine α) state := by
  refine ⟨Std.Refl.refl _, fun _ h => ?_⟩
  cases h
  exact ordinary

theorem act (action : Action α) : Within related (act action) state := by
  refine ⟨?_, fun halt h => ?_⟩
  · rw [outcome_act]
    rcases action.outcome state.store with ⟨_ | _, _⟩ <;> exact Std.Refl.refl _
  · rw [outcome_act] at h
    rcases hr : action.outcome state.store with ⟨fault | a, store⟩
    · rw [hr] at h
      cases h
      exact .fault fault
    · rw [hr] at h
      cases h

theorem ofExcept (result : Except Fault α) : Within related (ofExcept result) state := by
  cases result with
  | ok a => exact pure a
  | error fault => exact throw (.fault fault)

/-- In a sequence it is enough to look at the second part from where the first one ends. -/
theorem bind (first : Within related step state) {next : α → Machine β}
    (second : ∀ a behind, outcome step state = (.ok a, behind) →
      Within related (next a) behind) :
    Within related (step >>= next) state := by
  rcases h : outcome step state with ⟨halt | a, behind⟩
  · refine ⟨?_, fun halt' h' => ?_⟩
    · have changes := first.changes
      rw [h] at changes
      rwa [outcome_bind_error h]
    · rw [outcome_bind_error h] at h'
      cases h'
      exact first.halts halt (by rw [h])
  · have after := second a behind h
    refine ⟨?_, fun halt h' => ?_⟩
    · have changes := first.changes
      rw [h] at changes
      rw [outcome_bind_ok h]
      exact IsTrans.trans _ _ _ changes after.changes
    · rw [outcome_bind_ok h] at h'
      exact after.halts halt h'

omit [IsPreorder Environment related] in
/-- What is within a relation is within a wider one. -/
theorem mono {wider : Environment → Environment → Prop}
    (sub : ∀ a b, related a b → wider a b) (h : Within related step state) :
    Within wider step state :=
  ⟨sub _ _ h.changes, h.halts⟩

end Within

/-- What a step may change and how it may halt, from every state. -/
def Throughout (related : Environment → Environment → Prop) (step : Machine α) : Prop :=
  ∀ state, Within related step state

namespace Throughout

variable {related : Environment → Environment → Prop} [IsPreorder Environment related]

theorem pure (a : α) : Throughout related (pure a : Machine α) :=
  fun _ => .pure a

theorem throw {halt : Halt} (ordinary : halt.Ordinary) :
    Throughout related (throw halt : Machine α) :=
  fun _ => .throw ordinary

theorem act (action : Action α) : Throughout related (act action) :=
  fun _ => .act action

theorem ofExcept (result : Except Fault α) : Throughout related (ofExcept result) :=
  fun _ => .ofExcept result

theorem get : Throughout related (get : Machine State) :=
  fun _ => ⟨Std.Refl.refl _, fun _ h => by simp at h⟩

theorem bind {step : Machine α} {next : α → Machine β} (first : Throughout related step)
    (second : ∀ a, Throughout related (next a)) : Throughout related (step >>= next) :=
  fun state => .bind (first state) fun a behind _ => second a behind

omit [IsPreorder Environment related] in
theorem mono {wider : Environment → Environment → Prop}
    (sub : ∀ a b, related a b → wider a b) {step : Machine α}
    (h : Throughout related step) : Throughout wider step :=
  fun state => (h state).mono sub

omit [IsPreorder Environment related] in
/-- The variables at the beginning and at the end of such a step. -/
theorem between {step : Machine α} (h : Throughout related step) {state behind : State}
    {result : Except Halt α} (ended : outcome step state = (result, behind)) :
    related state.environment behind.environment := by
  have changes := (h state).changes
  rwa [ended] at changes

theorem binding (name : String) : Throughout related (binding name) := by
  intro state
  constructor
  · rw [outcome_binding]
    split <;> exact Std.Refl.refl _
  · intro halt h
    rw [outcome_binding] at h
    split at h
    · cases h
    · cases h
      exact .unknownVariable name

theorem valueOf (name : String) : Throughout related (valueOf name) := by
  refine bind (binding name) fun binding => ?_
  cases binding.value with
  | some value => exact pure value
  | none => exact throw (.uninitialized name)

end Throughout

end Machine

end Formulary
