/-
Rounds of a loop that asks an iterator.

A `for`-each takes the elements of a container itself; the other loop asks an iterator of the
container whether there is a next element and then takes it. The iterator reads the container
when it is asked, which is when the `for`-each takes its next element, so that both loops see
every change that their bodies make at the same time. They differ in that the second one has one
more object and one more variable; the place of the object is a gap in the store of the first.

* `Stmt.iteratorLoop` — the loop that asks an iterator.
* `IteratorLoop.Peeks` — the states of the two loops before a round.
* `IteratorLoop.rounds_alike` — the rounds of both, by induction on those that are left.
-/

import Formulary.Proofs.Gaps
import Formulary.Proofs.Iterators

namespace Formulary

open Eval

/-- A call of a method of a variable, without arguments. -/
def Expr.callOn {α τ : Type} (p q : Position) (name method : String) : Expr α τ :=
  .methodCall p (.name q name) method []

/-- The second of two states holds what the first one holds, with references and marks renamed,
perhaps among more objects. -/
structure State.Renamed (σ : Renaming) (s t : State) : Prop where
  environment : t.environment =
    s.environment.map (List.map fun entry => (entry.1, entry.2.rename σ))
  store : Store.Renamed σ s.store t.store

/-- Two steps have the same outcome from a state: the same end, and states that cannot be told
apart. References to objects that the state has not had may differ. -/
def SameOutcome (state : State) (a b : Machine Completion) : Prop :=
  ∃ σ : Renaming, (∀ r < state.store.objects.size, σ.ref r = r) ∧ σ.mark = id ∧
    (b.outcome state).1 = Completion.rename σ <$> (a.outcome state).1 ∧
      State.Renamed σ (a.outcome state).2 (b.outcome state).2

/-- What a loop that asks an iterator does in a round: it takes an element and goes on with it. -/
def Stmt.taking {α τ : Type} (p : Nat → Position) (type : TypeName τ) (x it : String)
    (body : Stmt α τ) : Stmt α τ :=
  .block (p 6) [.declaration (p 7) type [⟨p 8, x, some (.callOn (p 9) (p 10) it "next")⟩], body]

/-- The loop that asks an iterator of a container for its elements. Its nodes stand at the given
positions. -/
def Stmt.iteratorLoop {α τ : Type} (p : Nat → Position) (iterator type : TypeName τ)
    (x it : String) (container : Expr α τ) (body : Stmt α τ) : Stmt α τ :=
  .forLoop (p 0)
    (.declaration (p 1) iterator [⟨p 2, it, some (.methodCall (p 3) container "iterator" [])⟩])
    (some (.callOn (p 4) (p 5) it "hasNext")) [] (.taking p type x it body)

/-- The type of iterators. -/
def Kind.iterators : Kind := .view "Iterator" .iterator

namespace IteratorLoop

/-- The variable that only the second loop has. -/
def extra (it : String) (place : Ref) : Environment :=
  [[(it, ⟨.iterators, some (.object .iterator place)⟩)]]

/-! ### Calls of the iterator -/

section Calls

variable {it : String} {place : Ref} {state : State} {cursor : Cursor}
  (bound : state.environment.find? it =
    some ⟨.iterators, some (.object .iterator place)⟩)

include bound

/-- A call of the iterator without arguments. -/
theorem outcome_call (p q : Position) (method : String) :
    Machine.outcome (expression (.callOn p q it method)) state =
      Machine.outcome (Machine.act (Method.invoke (.object .iterator place) method []))
        state := by
  have plain : ¬IsType (.name q it) := by
    rintro ⟨_, _, same⟩
    cases same
  have named : Machine.outcome (expression (.name q it)) state =
      (.ok (.object .iterator place), state) := by
    rw [expression, Machine.outcome_valueOf, bound]
  rw [Expr.callOn, expression_methodCall plain, Machine.outcome_bind_ok named, expressions,
    pure_bind]

variable (unset : ∀ name, state.store.setting? (.object .iterator place) name = none)

include unset

/-- The condition of the second loop steps the cursor. -/
theorem outcome_goesOn (p q : Position) (container : cursor.OverContainer)
    (held : state.store.entity place = .iterator cursor none) :
    Machine.outcome (condition (.callOn p q it "hasNext")) state =
      match cursor.step state.store with
      | (.ok value, after) =>
        (.ok value.isSome,
          { state with store := state.store.update place (.iterator after value) })
      | (.error fault, after) =>
        (.error (.fault (.host fault)),
          { state with store := state.store.update place (.iterator after none) }) := by
  rw [condition, Machine.outcome_bind, outcome_call bound, Machine.outcome_act,
    Method.invoke_hasNext unset container held]
  rcases cursor.step state.store with ⟨fault | value, after⟩
  · rfl
  · cases value <;> rfl

/-- The declaration of the second loop takes the element over like the `for`-each. -/
theorem outcome_declare (kind : Kind) (x : String) (p q r : Position) {value : Value}
    (held : state.store.entity place = .iterator cursor (some value)) :
    Machine.outcome
        (declare kind [⟨p, x, some (.callOn q r it "next")⟩]) state =
      Machine.outcome (bindElement kind x value)
        { state with store := state.store.update place (.iterator cursor none) } := by
  have found (state : State) :
      Machine.outcome (Machine.act (Dispatch.find kind .convert)) state =
        (.ok (kind.override? state.store .convert), state) := rfl
  have taken : Machine.outcome (expression (.callOn q r it "next")) state =
      (.ok value,
        { state with store := state.store.update place (.iterator cursor none) }) := by
    rw [outcome_call bound, Machine.outcome_act, Method.invoke_next unset held]
  have bindElement_eq : bindElement kind x value = (do
      let found ← Machine.act (Dispatch.find kind .convert)
      let value ← Machine.act (Dispatch.convert found kind value)
      Machine.define x kind (some value)) := by
    rw [bindElement, Machine.act_bind, bind_assoc]
  rw [declare, Machine.outcome_bind_ok (found state), Machine.outcome_bind_ok taken,
    bindElement_eq, Machine.outcome_bind_ok (found _)]
  rfl

end Calls

/-! ### Rounds -/

/-- A declaration and a statement in a row. -/
theorem statements_pair (fuel : Nat) (p : Position) (type : TypeName Kind)
    (names : List (Declarator Value Kind)) (body : CheckedStmt) :
    statements fuel [.declaration p type names, body] =
      declare type.resolved names >>= fun _ => statement fuel body := by
  simp only [statements, statement, bind_assoc, pure_bind]
  refine bind_congr fun _ => (bind_congr fun completion => ?_).trans (bind_pure _)
  cases completion <;> rfl

/-- A round of the second loop, with the element that the iterator holds, is a round of a
`for`-each with that element. -/
theorem outcome_round {it : String} {place : Ref} {state : State} {cursor : Cursor}
    (bound : state.environment.find? it =
      some ⟨.iterators, some (.object .iterator place)⟩)
    (unset : ∀ name, state.store.setting? (.object .iterator place) name = none)
    {value : Value} (held : state.store.entity place = .iterator cursor (some value))
    (fuel : Nat) (p : Nat → Position) (type : TypeName Kind) (x : String)
    (body : CheckedStmt) :
    Machine.outcome (statement fuel (.taking p type x it body)) state =
      Machine.outcome (round fuel type.resolved x body value)
        { state with store := state.store.update place (.iterator cursor none) } := by
  have bound' : state.block.environment.find? it =
      some ⟨.iterators, some (.object .iterator place)⟩ := bound
  rw [Stmt.taking, statement, Eval.round, Machine.outcome_inBlock, Machine.outcome_inBlock, statements_pair,
    Machine.outcome_bind, outcome_declare bound' unset _ _ _ _ _ held, Machine.outcome_bind]
  rfl

/-! ### Both loops -/

/-- The transfer from the `for`-each to the second loop, whose iterator is at a place that the first
leaves free. -/
def transfer (place : Nat) (proper : 0 < place) (limit : Nat) (it : String) (rest : Store) :
    Transfer :=
  .around (.gap place proper) ⟨limit, rest⟩ (extra it place)

section Loops

variable {place : Nat} {proper : 0 < place} {limit : Nat} {it : String} {rest : Store}
  {depth : Nat} {s t : State}

/-- What is apart from the first run may be taken to be what the second one has there. -/
theorem rebase (states : (transfer place proper limit it rest).States depth s t) :
    (transfer place proper limit it t.store).States depth s t where
  environment := states.environment
  store := { states.store with
    besideEntity := fun _ _ => rfl
    besideSetting := fun _ _ _ => rfl }

/-- Only the second run notices a change of the iterator. -/
theorem update_iterator (states : (transfer place proper limit it rest).States depth s t)
    (entity : Entity) :
    (transfer place proper limit it (t.store.update place entity)).States depth s
      { t with store := t.store.update place entity } where
  environment := states.environment
  store := {
    entity := fun r => by
      have apart : (Renaming.gap place proper).ref r ≠ place := Renaming.gap_ne proper r
      have kept := Store.entity_update t.store place ((Renaming.gap place proper).ref r) entity
      rw [if_neg fun same => apart same.1] at kept
      exact kept.trans (states.store.entity r)
    setting := states.store.setting
    bound := fun r => by
      rw [Store.size_update]
      exact states.store.bound r
    fresh := fun i => by
      rw [Store.size_update]
      exact states.store.fresh i
    marks := states.store.marks
    besideEntity := fun _ _ => rfl
    besideSetting := fun _ _ _ => rfl }

/-- The second run finds the iterator under its name. -/
theorem find?_iterator (states : (transfer place proper limit it rest).States 0 s t) :
    t.environment.find? it = some ⟨.iterators, some (.object .iterator place)⟩ := by
  obtain ⟨top, below, empty, -, same⟩ := states.environment
  rw [List.length_eq_zero_iff.mp empty] at same
  rw [same]
  simp [transfer, Transfer.around, extra, Environment.find?]

/-- The states of the two loops before a round: alike but for the iterator, which is over the
container where the `for`-each is and holds no element. -/
structure Peeks (place : Nat) (proper : 0 < place) (limit : Nat) (it : String)
    (cursor : Cursor) (s t : State) : Prop where
  states : (transfer place proper limit it t.store).States 0 s t
  held : t.store.entity place = .iterator (cursor.rename (.gap place proper)) none
  unset : ∀ name, t.store.setting? (.object .iterator place) name = none

/-- What the second run has at the place of the iterator stays as it is in a round. -/
theorem Peeks.of_states {cursor : Cursor}
    (states : (transfer place proper limit it rest).States 0 s t)
    (held : rest.entity place = .iterator (cursor.rename (.gap place proper)) none)
    (unset : ∀ name, rest.setting? (.object .iterator place) name = none) :
    Peeks place proper limit it cursor s t where
  states := rebase states
  held := (states.store.besideEntity place (Renaming.gap_ne proper)).trans held
  unset name := by
    have within : (Value.object .iterator place).Below (place + 1) := Nat.lt_succ_self place
    have behind : ¬(Value.object .iterator place).Below place := Nat.lt_irrefl place
    have outside := Value.rename_gap_ne proper within behind
    exact (states.store.besideSetting _ name (.inl outside)).trans (unset name)

variable {type : TypeName Kind} {x : String} {body : CheckedStmt} {fuelIn : Nat}

/-- Rounds with an element and with the renamed one. -/
theorem round_alike (sameKind : type.resolved.rename (.gap place proper) = type.resolved)
    (sameBody : body.relabel (transfer place proper limit it rest).labels = body)
    (clear : ∀ m ∈ body.mentions, m ≠ .variable it) (element : Value) :
    Machine.Alike (transfer place proper limit it rest) 0
      (Completion.rename (.gap place proper)) (round fuelIn type.resolved x body element)
      (round fuelIn type.resolved x body (element.rename (.gap place proper))) := by
  have isOpen := (transfer place proper limit it rest).open_succ 0
  have bound := bindElement_alike isOpen type.resolved x element
  have ran := statement_alike fuelIn body (.inl isOpen) (T := transfer place proper limit it rest)
    fun m isIn => by
      cases m with
      | callee name => trivial
      | «variable» name =>
        have other : name ≠ it := fun same => clear _ isIn (congrArg _ same)
        have absent : (name == it) = false := by simpa using other
        simp [Transfer.Clear, transfer, Transfer.around, extra, Environment.find?,
          List.lookup_cons, absent]
  rw [sameBody] at ran
  have kindSame : type.resolved.rename (transfer place proper limit it rest).renames =
    type.resolved := sameKind
  rw [kindSame] at bound
  exact .inBlock (.bind bound fun _ => ran)

/-- There is an object where an iterator is. -/
theorem inside_of_held {store : Store} {cursor : Cursor} {ahead : Option Value}
    (held : store.entity place = .iterator cursor ahead) : place < store.objects.size := by
  by_contra outside
  rw [Store.entity_outside (Nat.not_lt.mp outside)] at held
  cases held

/-- **One round of both loops**: they end alike, and the states are again alike but for the
iterator. -/
theorem round_ends (sameKind : type.resolved.rename (.gap place proper) = type.resolved)
    (sameBody : ∀ rest, body.relabel (transfer place proper limit it rest).labels = body)
    (clear : ∀ m ∈ body.mentions, m ≠ .variable it) (p : Nat → Position) {cursor : Cursor}
    {value : Value} (states : (transfer place proper limit it rest).States 0 s t)
    (held : t.store.entity place = .iterator (cursor.rename (.gap place proper))
      (some (value.rename (.gap place proper))))
    (unset : ∀ name, t.store.setting? (.object .iterator place) name = none)
    (bounded : Machine.sizeBehind (round fuelIn type.resolved x body value) s ≤ limit) :
    (Machine.outcome (statement fuelIn (.taking p type x it body)) t).1 =
        Completion.rename (.gap place proper) <$>
          (Machine.outcome (round fuelIn type.resolved x body value) s).1 ∧
      Peeks place proper limit it cursor
        (Machine.outcome (round fuelIn type.resolved x body value) s).2
        (Machine.outcome (statement fuelIn (.taking p type x it body)) t).2 := by
  have inside := inside_of_held held
  rw [outcome_round (find?_iterator states) unset held fuelIn p type x body]
  obtain ⟨same, behind⟩ := (round_alike sameKind (sameBody _) clear value).maps _ _
    (update_iterator states (.iterator (cursor.rename (.gap place proper)) none)) bounded
  have result := same.trans (Transfer.result_around _ _)
  refine ⟨result, .of_states behind ?_ unset⟩
  rw [Store.entity_update, if_pos ⟨rfl, inside⟩]

/-- The rounds of a `for`-each take no object away. -/
theorem loopOver_grows (fuel : Nat) (cursor : Cursor) (s : State) :
    s.store.objects.size ≤
      Machine.sizeBehind (loopOver (round fuelIn type.resolved x body) fuel cursor) s := by
  let T : Transfer := .around .identity ⟨0, s.store⟩ []
  have rounds (element : Value) :
      Machine.Alike T 0 (Completion.rename T.renames)
        (round fuelIn type.resolved x body element)
        (round fuelIn (type.resolved.rename T.renames) (T.ident x) (body.relabel T.labels)
          (element.rename T.renames)) :=
    .inBlock (.bind (bindElement_alike (T.open_succ 0) _ _ _) fun _ =>
      statement_alike fuelIn body (.inl (T.open_succ 0)) fun m _ => T.clear_of_extra_nil rfl m)
  exact (loopOver_alike rounds fuel cursor).grows s

/-- The two loops end alike, with states that differ in what only the second one has. -/
def Ends (place : Nat) (proper : 0 < place) (limit : Nat) (it : String)
    (a b : Except Halt Completion × State) : Prop :=
  b.1 = Completion.rename (.gap place proper) <$> a.1 ∧
    ∃ rest, (transfer place proper limit it rest).States 0 a.2 b.2

/-- How a loop goes on behind a round. -/
def proceed (again : Machine Completion) : Completion → Machine Completion
  | .broke => pure .normal
  | .returned value => pure (.returned value)
  | .normal | .continued => again

theorem loopOver_some {round : Value → Machine Completion} {cursor after : Cursor}
    {value : Value} {s : State} (fuel : Nat)
    (taken : (Iteration.next cursor).outcome s.store = (.ok (some value, after), s.store)) :
    Machine.outcome (loopOver round (fuel + 1) cursor) s =
      Machine.outcome (round value >>= proceed (loopOver round fuel after)) s := by
  have stepped : Machine.outcome (Machine.act (Iteration.next cursor)) s =
      (.ok (some value, after), s) := by
    rw [Machine.outcome_act, taken]
  rw [loopOver, Machine.outcome_bind_ok stepped]
  refine congrArg (Machine.outcome · s) (bind_congr fun completion => ?_)
  cases completion <;> rfl

theorem loop_true {goOn : Machine Bool} {round : Machine Completion} {t t' : State}
    (fuel : Nat) (asked : Machine.outcome goOn t = (.ok true, t')) :
    Machine.outcome (loop goOn round (effects []) (fuel + 1)) t =
      Machine.outcome (round >>= proceed (loop goOn round (effects []) fuel)) t' := by
  rw [loop, Machine.outcome_bind_ok asked, if_pos rfl]
  refine congrArg (Machine.outcome · t') (bind_congr fun completion => ?_)
  cases completion <;> rfl

theorem loop_false {goOn : Machine Bool} {round : Machine Completion} {t t' : State}
    (fuel : Nat) (asked : Machine.outcome goOn t = (.ok false, t')) :
    Machine.outcome (loop goOn round (effects []) (fuel + 1)) t = (.ok .normal, t') := by
  rw [loop, Machine.outcome_bind_ok asked]
  rfl

/-- Loops end alike if they go on alike behind a round. -/
theorem proceed_ends {cursor : Cursor} {first first' again again' : Machine Completion}
    (firsts : (Machine.outcome first' t).1 =
        Completion.rename (.gap place proper) <$> (Machine.outcome first s).1 ∧
      Peeks place proper limit it cursor (Machine.outcome first s).2
        (Machine.outcome first' t).2)
    (further : ∀ s' t', Peeks place proper limit it cursor s' t' →
      Machine.sizeBehind again s' ≤ limit →
        Ends place proper limit it (Machine.outcome again s') (Machine.outcome again' t'))
    (bounded : Machine.sizeBehind (first >>= proceed again) s ≤ limit) :
    Ends place proper limit it (Machine.outcome (first >>= proceed again) s)
      (Machine.outcome (first' >>= proceed again') t) := by
  obtain ⟨same, peeks⟩ := firsts
  rw [Machine.sizeBehind, Machine.outcome_bind] at bounded
  rw [Machine.outcome_bind, Machine.outcome_bind]
  generalize Machine.outcome first s = out at same peeks bounded ⊢
  generalize Machine.outcome first' t = out' at same peeks ⊢
  obtain ⟨result', t'⟩ := out'
  rcases out with ⟨halt | completion, s'⟩
  · cases same
    exact ⟨rfl, _, peeks.states⟩
  · cases same
    cases completion with
    | normal => exact further s' t' peeks bounded
    | continued => exact further s' t' peeks bounded
    | broke => exact ⟨rfl, _, peeks.states⟩
    | returned value => exact ⟨rfl, _, peeks.states⟩

/-- **The rounds of both loops end alike**, from states that are alike but for the iterator. -/
theorem rounds_alike (sameKind : type.resolved.rename (.gap place proper) = type.resolved)
    (sameBody : ∀ rest, body.relabel (transfer place proper limit it rest).labels = body)
    (clear : ∀ m ∈ body.mentions, m ≠ .variable it) (p : Nat → Position) (fuel : Nat)
    (cursor : Cursor) (container : cursor.OverContainer) (s t : State)
    (peeks : Peeks place proper limit it cursor s t)
    (bounded : Machine.sizeBehind (loopOver (round fuelIn type.resolved x body) fuel cursor) s ≤
      limit) :
    Ends place proper limit it
      (Machine.outcome (loopOver (round fuelIn type.resolved x body) fuel cursor) s)
      (Machine.outcome (loop (condition (.callOn (p 4) (p 5) it "hasNext"))
        (statement fuelIn (.taking p type x it body)) (effects []) fuel) t) := by
  induction fuel generalizing cursor s t with
  | zero => exact ⟨rfl, _, peeks.states⟩
  | succ fuel ih =>
    have stepped : (cursor.rename (.gap place proper)).step t.store =
        (Option.map (·.rename (.gap place proper)) <$> (cursor.step s.store).1,
          (cursor.step s.store).2.rename (.gap place proper)) :=
      peeks.states.store.toRenamed.step cursor
    have asked := outcome_goesOn (find?_iterator peeks.states) peeks.unset (p 4) (p 5)
      (container.rename _) peeks.held
    have taken := Iteration.outcome_next container s.store
    have stays := container.step s.store
    rw [stepped] at asked
    rcases ended : cursor.step s.store with ⟨fault | value, after⟩
    · rw [ended] at asked taken
      have first : Machine.outcome (Machine.act (Iteration.next cursor)) s =
          (.error (.fault (.host fault)), s) := by
        rw [Machine.outcome_act, taken]
      rw [loopOver, Machine.outcome_bind_error first, loop, Machine.outcome_bind_error asked]
      exact ⟨rfl, _, update_iterator peeks.states _⟩
    · rw [ended] at asked taken stays
      cases value with
      | none =>
        have first : Machine.outcome (Machine.act (Iteration.next cursor)) s =
            (.ok (none, after), s) := by
          rw [Machine.outcome_act, taken]
        rw [loopOver, Machine.outcome_bind_ok first, loop_false fuel asked]
        exact ⟨rfl, _, update_iterator peeks.states _⟩
      | some value =>
        have inside := inside_of_held peeks.held
        rw [Machine.sizeBehind, loopOver_some fuel taken] at bounded
        rw [loopOver_some fuel taken, loop_true fuel asked]
        -- The round leaves no more objects than the rounds behind it.
        have grows (s' : State) (completion : Completion) :
            s'.store.objects.size ≤ Machine.sizeBehind (proceed
              (loopOver (round fuelIn type.resolved x body) fuel after) completion) s' := by
          cases completion with
          | normal => exact loopOver_grows fuel after s'
          | continued => exact loopOver_grows fuel after s'
          | broke => exact Nat.le_refl _
          | returned value => exact Nat.le_refl _
        have small : Machine.sizeBehind (round fuelIn type.resolved x body value) s ≤ limit := by
          rw [Machine.outcome_bind] at bounded
          rw [Machine.sizeBehind]
          rcases ran : Machine.outcome (round fuelIn type.resolved x body value) s with
            ⟨halt | completion, s'⟩
          · rw [ran] at bounded
            exact bounded
          · rw [ran] at bounded
            exact (grows s' completion).trans bounded
        obtain ⟨same, peeks'⟩ := round_ends sameKind sameBody clear p
          (update_iterator peeks.states
            (.iterator (after.rename (.gap place proper))
              (some (value.rename (.gap place proper)))))
          (by rw [Store.entity_update, if_pos ⟨rfl, inside⟩]) peeks.unset small
        exact proceed_ends ⟨same, peeks'⟩ (fun s' t' => ih after stays s' t') bounded

end Loops

end IteratorLoop

end Formulary
