/-
What an iterator answers.

An iterator over a list or a tuple is asked whether there is a next element, called for it, or
stepped by a `for`-each, in any order. All three look ahead to one element that the iterator then
holds, so what counts is how many elements have been handed out: the invariant relates that number
to the place of the cursor and to the element that is held.

* `Iteration.Ask` — the three ways to ask, and what they are to answer (`Ask.answer`).
* `Iteration.Session` — asks one after the other, with anything in between that leaves the container
  and the iterator as they are.
* `Iteration.HandedOut` — the invariant: how far the iterator has come.
* `perform_handedOut` — one ask keeps it.
* `session_handedOut` — so does a session, by induction on its asks.
* `session_answers` — the answers of a new iterator.
-/

import Formulary.Proofs.Gaps
import Formulary.Proofs.Iterators

namespace Formulary

theorem Action.outcome_map {α β : Type} (f : α → β) (action : Action α) (store : Store) :
    outcome (f <$> action) store = (f <$> (outcome action store).1, (outcome action store).2) := by
  rw [map_eq_pure_bind, outcome_bind]
  rcases outcome action store with ⟨fault | value, behind⟩ <;> rfl

/-- To change an iterator does not change the elements of lists and tuples. -/
theorem Store.items_update_iterator {store : Store} {ref : Ref} {held : Cursor}
    {ahead : Option Value} (isIterator : store.entity ref = .iterator held ahead)
    (cursor : Cursor) (value : Option Value) (list : Ref) :
    (store.update ref (.iterator cursor value)).items list = store.items list := by
  rw [items, items, entity_update]
  by_cases here : list = ref ∧ ref < store.objects.size
  · rw [if_pos here, here.1, isIterator]
  · rw [if_neg here]

/-- A new iterator does not change the elements of lists and tuples. -/
theorem Store.items_add_iterator (store : Store) (cursor : Cursor) (list : Ref) :
    (store.add (.iterator cursor none)).2.items list = store.items list := by
  rw [items, items, entity_add]
  by_cases here : list = store.objects.size
  · rw [if_pos here, here, entity_outside (Nat.le_refl _)]
  · rw [if_neg here]

namespace Iteration

/-- The ways to ask an iterator. -/
inductive Ask where
  /-- A call of `hasNext`. -/
  | hasNext
  /-- A call of `next`. -/
  | next
  /-- A step of a `for`-each over the iterator. -/
  | step
deriving DecidableEq, Repr

/-- The cursor of an iteration over an iterator. -/
def overIterator (ref : Ref) : Cursor :=
  ⟨.object .iterator ref, 0, 0, 0, .underWay⟩

theorem start_overIterator (store : Store) (ref : Ref) :
    Cursor.start? store (.object .iterator ref) = some (overIterator ref) := rfl

namespace Ask

/-- What it is to ask. A step of a `for`-each that stops has no result. -/
def perform (ref : Ref) : Ask → Action (Option Value)
  | hasNext => some <$> Host.callIterator ref "hasNext" []
  | next => some <$> Host.callIterator ref "next" []
  | step => Prod.fst <$> Iteration.next (overIterator ref)

/-- Whether an element is asked for. -/
def takes : Ask → Bool
  | hasNext => false
  | next | step => true

/-- What an iterator over some elements is to answer when it has handed some of them out. -/
def answer (elements : Array Value) (count : Nat) : Ask → Except Fault (Option Value)
  | hasNext => .ok (some (.bool (decide (count < elements.size))))
  | next =>
    match elements[count]? with
    | some value => .ok (some value)
    | none => .error (.evaluation .noSuchElement)
  | step => .ok elements[count]?

end Ask

/-- An ask and its answer. -/
abbrev Answered := Ask × Except Fault (Option Value)

/-- The element that an ask has handed out. -/
def yielded? : Answered → Option Value
  | (.hasNext, _) => none
  | (_, .ok value) => value
  | (_, .error _) => none

/-- The elements that have been handed out. -/
def yields (history : List Answered) : List Value :=
  history.filterMap yielded?

theorem yields_cons (answered : Answered) (history : List Answered) :
    yields (answered :: history) = (yielded? answered).toList ++ yields history := by
  rw [yields, List.filterMap_cons]
  cases yielded? answered <;> rfl

theorem yielded_answer (elements : Array Value) (count : Nat) (ask : Ask) :
    yielded? (ask, ask.answer elements count) = if ask.takes then elements[count]? else none := by
  cases ask with
  | hasNext => rfl
  | next =>
    rw [Ask.answer]
    cases elements[count]? <;> rfl
  | step => rfl

/-- To take one more element off the front. -/
theorem take_drop_succ (elements : Array Value) (count further : Nat) :
    (elements.toList.drop count).take (further + 1) = elements[count]?.toList ++
      (elements.toList.drop (count + elements[count]?.toList.length)).take further := by
  rw [← Array.getElem?_toList]
  cases found : elements.toList[count]? with
  | none =>
    rw [List.drop_eq_nil_of_le (List.getElem?_eq_none_iff.mp found)]
    simp [List.drop_eq_nil_of_le (List.getElem?_eq_none_iff.mp found)]
  | some value =>
    obtain ⟨less, rfl⟩ := List.getElem?_eq_some_iff.mp found
    rw [List.drop_eq_getElem_cons less]
    rfl

/-- Between two stores nothing has happened to an iterator and to the elements of its container. -/
structure Undisturbed (list ref : Ref) (s t : Store) : Prop where
  items : t.items list = s.items list
  iterator : t.entity ref = s.entity ref

/-- Asks of an iterator one after the other, from a store to another one. -/
inductive Session (list ref : Ref) : Store → List Answered → Store → Prop
  | nil (store : Store) : Session list ref store [] store
  | cons {store now behind last : Store} {ask : Ask} {answer : Except Fault (Option Value)}
      {history : List Answered} (between : Undisturbed list ref store now)
      (answered : (ask.perform ref).outcome now = (answer, behind))
      (rest : Session list ref behind history last) :
      Session list ref store ((ask, answer) :: history) last

/-- An iterator can be asked anything in any order. -/
theorem exists_session (list ref : Ref) (asks : List Ask) (store : Store) :
    ∃ history last, Session list ref store history last ∧ history.map Prod.fst = asks := by
  induction asks generalizing store with
  | nil => exact ⟨[], store, .nil store, rfl⟩
  | cons ask asks ih =>
    obtain ⟨history, last, rest, same⟩ := ih ((ask.perform ref).outcome store).2
    exact ⟨_ :: history, last, .cons ⟨rfl, rfl⟩ rfl rest, congrArg (ask :: ·) same⟩

/-- A session may be cut anywhere. -/
theorem Session.split {list ref : Ref} {store last : Store} {before after : List Answered}
    (session : Session list ref store (before ++ after) last) :
    ∃ mid, Session list ref store before mid ∧ Session list ref mid after last := by
  induction before generalizing store with
  | nil => exact ⟨store, .nil store, session⟩
  | cons first before ih =>
    cases session with
    | cons between answered rest =>
      obtain ⟨mid, front, back⟩ := ih rest
      exact ⟨mid, .cons between answered front, back⟩

/-! ### The invariant -/

/-- How far the cursor of an iterator is, and what the iterator holds, when some elements have been
handed out. -/
inductive Stage (source : Value) (elements : Array Value) : Nat → Cursor → Option Value → Prop
  | between {count : Nat} (within : count ≤ elements.size) :
      Stage source elements count ⟨source, count, count, elements.size, .underWay⟩ none
  | ahead {count : Nat} {value : Value} (found : elements[count]? = some value) :
      Stage source elements count
        ⟨source, count + 1, count + 1, elements.size, .underWay⟩ (some value)
  | finished :
      Stage source elements elements.size
        ⟨source, elements.size, elements.size, elements.size, .finished⟩ none

/-- A store with an iterator, and with some elements in its container. -/
structure Holding (list ref : Ref) (elements : Array Value) (cursor : Cursor) (ahead : Option Value)
    (store : Store) : Prop where
  items : store.items list = elements
  iterator : store.entity ref = .iterator cursor ahead

/-- An iterator over a container with some elements has handed some of them out. -/
def HandedOut (source : Value) (list ref : Ref) (elements : Array Value) (count : Nat)
    (store : Store) : Prop :=
  ∃ cursor ahead, Holding list ref elements cursor ahead store ∧
    Stage source elements count cursor ahead

section Invariant

variable {kind : ObjectKind} {source : Value} {list ref : Ref} {elements : Array Value}
  {count : Nat} {store : Store} {cursor : Cursor} {ahead : Option Value}

/-- To take the element that an iterator has found. -/
theorem Stage.taken {next : Option Value} (isNext : elements[count]? = next)
    (stage : Stage source elements count cursor next) :
    Stage source elements (count + next.toList.length) cursor none := by
  cases stage with
  | between within => exact .between within
  | ahead found => exact .between (Array.getElem?_eq_some_iff.mp found).1
  | finished => exact .finished

theorem HandedOut.undisturbed {now : Store}
    (handedOut : HandedOut source list ref elements count store)
    (between : Undisturbed list ref store now) :
    HandedOut source list ref elements count now := by
  obtain ⟨cursor, ahead, holding, stage⟩ := handedOut
  exact ⟨cursor, ahead,
    ⟨between.items.trans holding.items, between.iterator.trans holding.iterator⟩, stage⟩

/-- The iterator is put elsewhere. -/
theorem Holding.update (holding : Holding list ref elements cursor ahead store) (other : Cursor)
    (value : Option Value) :
    Holding list ref elements other value (store.update ref (.iterator other value)) where
  items := (Store.items_update_iterator holding.iterator other value list).trans holding.items
  iterator := by
    have inside : ref < store.objects.size := by
      by_contra outside
      have isIterator := holding.iterator
      rw [Store.entity_outside (Nat.not_lt.mp outside)] at isIterator
      cases isIterator
    rw [Store.entity_update, if_pos ⟨rfl, inside⟩]

variable (sequence : kind = .list ∨ kind = .tuple)

include sequence

theorem overContainer (place passed size : Nat) (progress : Progress) :
    Cursor.OverContainer ⟨.object kind list, place, passed, size, progress⟩ := by
  rcases sequence with rfl | rfl <;> rintro inner ⟨⟩

/-- A step over a list or a tuple. -/
theorem step_sequence (holding : Holding list ref elements cursor ahead store)
    (place passed size : Nat) :
    Cursor.step store ⟨.object kind list, place, passed, size, .underWay⟩ =
      match elements[place]? with
      | some value =>
        (.ok (some value), ⟨.object kind list, place + 1, passed + 1, size, .underWay⟩)
      | none => (.ok none, ⟨.object kind list, place, passed, size, .finished⟩) := by
  rw [← holding.items]
  rcases sequence with rfl | rfl <;> simp only [Cursor.step, Cursor.isSized, Cursor.element?,
    Cursor.hasKeys, Bool.false_and, Bool.false_eq_true, if_false]
  all_goals cases (store.items list)[place]? <;> rfl

/-- **To look ahead** finds the first element that has not been handed out, and the iterator then
holds it. -/
theorem lookAhead_found
    (handedOut : HandedOut (.object kind list) list ref elements count store) :
    ∃ cursor behind, (lookAhead (ref + 1) ref).outcome store = (.ok elements[count]?, behind) ∧
      Holding list ref elements cursor elements[count]? behind ∧
      Stage (.object kind list) elements count cursor elements[count]? := by
  obtain ⟨cursor, ahead, holding, stage⟩ := handedOut
  cases stage with
  | between within =>
    rw [outcome_lookAhead (overContainer sequence _ _ _ _) store holding.iterator,
      step_sequence sequence holding]
    cases found : elements[count]? with
    | some value => exact ⟨_, _, rfl, holding.update _ _, .ahead found⟩
    | none =>
      have last : count = elements.size :=
        Nat.le_antisymm within (Array.getElem?_eq_none_iff.mp found)
      subst last
      exact ⟨_, _, rfl, holding.update _ _, .finished⟩
  | @ahead count value found =>
    have looked : (lookAhead (ref + 1) ref).outcome store = (.ok (some value), store) := by
      rw [lookAhead, Action.outcome_get, holding.iterator]
      rfl
    rw [looked, found]
    exact ⟨_, _, rfl, holding, .ahead found⟩
  | finished =>
    have stopped : elements[elements.size]? = none := Array.getElem?_eq_none (Nat.le_refl _)
    rw [outcome_lookAhead (overContainer sequence _ _ _ _) store holding.iterator, stopped]
    exact ⟨_, _, rfl, holding.update _ _, .finished⟩

/-- To take an element. -/
theorem take_found
    (handedOut : HandedOut (.object kind list) list ref elements count store) :
    ∃ behind, (take? ref).outcome store = (.ok elements[count]?, behind) ∧
      HandedOut (.object kind list) list ref elements
        (count + elements[count]?.toList.length) behind := by
  obtain ⟨cursor, behind, looked, holding, stage⟩ := lookAhead_found sequence handedOut
  rw [take?, Action.outcome_bind, looked]
  dsimp only
  rw [Action.outcome_get, holding.iterator]
  exact ⟨_, rfl, cursor, none, holding.update cursor none, stage.taken rfl⟩

/-- **One ask** is answered as it is to be, and keeps the invariant. -/
theorem perform_handedOut
    (handedOut : HandedOut (.object kind list) list ref elements count store) (ask : Ask) :
    ∃ behind, (ask.perform ref).outcome store = (ask.answer elements count, behind) ∧
      HandedOut (.object kind list) list ref elements
        (count + (yielded? (ask, ask.answer elements count)).toList.length) behind := by
  rw [yielded_answer]
  cases ask with
  | hasNext =>
    obtain ⟨cursor, behind, looked, holding, stage⟩ := lookAhead_found sequence handedOut
    have asked : (Host.callIterator ref "hasNext" []).outcome store =
        (.ok (.bool elements[count]?.isSome), behind) := by
      rw [Host.callIterator, hasNext, bind_assoc, Action.outcome_bind, looked]
      rfl
    have isLess : elements[count]?.isSome = decide (count < elements.size) :=
      Bool.eq_iff_iff.mpr (by simp)
    refine ⟨behind, ?_, cursor, _, holding, stage⟩
    rw [Ask.perform, Action.outcome_map, asked, isLess]
    rfl
  | next =>
    obtain ⟨behind, taken, after⟩ := take_found sequence handedOut
    refine ⟨behind, ?_, after⟩
    rw [Ask.perform, Action.outcome_map, Host.callIterator, Action.outcome_bind, taken,
      Ask.answer]
    cases elements[count]? <;> rfl
  | step =>
    obtain ⟨behind, taken, after⟩ := take_found sequence handedOut
    refine ⟨behind, ?_, after⟩
    have stepped : (Iteration.next (overIterator ref)).outcome store =
        (.ok (elements[count]?, overIterator ref), behind) := by
      change Action.outcome (take? ref >>= _) store = _
      rw [Action.outcome_bind, taken]
      rfl
    rw [Ask.perform, Action.outcome_map, stepped]
    rfl

/-- A new iterator has handed out nothing. -/
theorem handedOut_made {start : Store}
    (started : Cursor.start? start (.object kind list) = some cursor)
    (made : (newIterator cursor).outcome start = (.ok (.object .iterator ref), store)) :
    HandedOut (.object kind list) list ref (start.items list) 0 store := by
  have cursor_eq : cursor = ⟨.object kind list, 0, 0, (start.items list).size, .underWay⟩ := by
    rcases sequence with rfl | rfl <;> exact (Option.some.inj started).symm
  subst cursor_eq
  cases made
  exact ⟨_, none, ⟨Store.items_add_iterator start _ list,
    (Store.entity_add start _ _).trans (if_pos rfl)⟩, .between (Nat.zero_le _)⟩

/-- **A session** hands the elements out one after the other, to the asks that take one, and keeps
the invariant. -/
theorem session_handedOut {last : Store} {history : List Answered}
    (session : Session list ref store history last)
    (handedOut : HandedOut (.object kind list) list ref elements count store) :
    yields history = (elements.toList.drop count).take (history.countP (·.1.takes)) ∧
      HandedOut (.object kind list) list ref elements (count + (yields history).length) last := by
  induction session generalizing count with
  | nil store => exact ⟨rfl, handedOut⟩
  | @cons store now behind last ask answer history between answered rest ih =>
    obtain ⟨_, performed, kept⟩ := perform_handedOut sequence (handedOut.undisturbed between) ask
    cases performed.symm.trans answered
    obtain ⟨further, reached⟩ := ih kept
    rw [yields_cons, List.length_append, ← Nat.add_assoc, List.countP_cons]
    refine ⟨?_, reached⟩
    rw [further, yielded_answer]
    cases ask.takes with
    | false => rfl
    | true => exact (take_drop_succ elements count _).symm

/-- **The answers of an iterator** over a list or a tuple that does not change. The asks for an
element get the elements one after the other, each one once. An ask for whether there is a next one
does not count, and each answer is the right one for the elements that have been handed out so
far. -/
theorem session_answers {start last : Store} {history : List Answered}
    (started : Cursor.start? start (.object kind list) = some cursor)
    (made : (newIterator cursor).outcome start = (.ok (.object .iterator ref), store))
    (session : Session list ref store history last) :
    yields history = (start.items list).toList.take (history.countP (·.1.takes)) ∧
      ∀ before ask answer after, history = before ++ (ask, answer) :: after →
        yields before = (start.items list).toList.take (before.countP (·.1.takes)) ∧
          answer = ask.answer (start.items list) (yields before).length := by
  have fresh := handedOut_made sequence started made
  have all := (session_handedOut sequence session fresh).1
  refine ⟨all, ?_⟩
  rintro before ask answer after rfl
  obtain ⟨mid, first, second⟩ := session.split
  obtain ⟨front, reached⟩ := session_handedOut sequence first fresh
  refine ⟨front, ?_⟩
  cases second with
  | cons between answered rest =>
    obtain ⟨_, performed, -⟩ := perform_handedOut sequence (reached.undisturbed between) ask
    cases performed.symm.trans answered
    rw [Nat.zero_add]

end Invariant

/-- The store with a list of two integers. -/
def pair : Store :=
  (Store.initial.add (.items #[.int 5, .int 7])).2

/-- What an iterator over both integers answers. -/
def pairHistory : List Answered :=
  [(.hasNext, .ok (some (.bool true))), (.hasNext, .ok (some (.bool true))),
    (.step, .ok (some (.int 5))), (.next, .ok (some (.int 7))),
    (.hasNext, .ok (some (.bool false))), (.next, .error (.evaluation .noSuchElement)),
    (.step, .ok none)]

/-- An iterator over two integers hands out both of them, and nothing more. -/
theorem pair_answers :
    ∃ store last, (newIterator ⟨.object .list 1, 0, 0, 2, .underWay⟩).outcome pair =
        (.ok (.object .iterator 2), store) ∧
      Session 1 2 store pairHistory last ∧ yields pairHistory = [.int 5, .int 7] := by
  have started : Cursor.start? pair (.object .list 1) =
      some ⟨.object .list 1, 0, 0, 2, .underWay⟩ := rfl
  have session : ∃ last, Session 1 2
      (pair.add (.iterator ⟨.object .list 1, 0, 0, 2, .underWay⟩ none)).2 pairHistory last :=
    ⟨_, .cons ⟨rfl, rfl⟩ rfl <| .cons ⟨rfl, rfl⟩ rfl <| .cons ⟨rfl, rfl⟩ rfl <|
      .cons ⟨rfl, rfl⟩ rfl <| .cons ⟨rfl, rfl⟩ rfl <| .cons ⟨rfl, rfl⟩ rfl <|
      .cons ⟨rfl, rfl⟩ rfl <| .nil _⟩
  obtain ⟨last, session⟩ := session
  exact ⟨_, last, rfl, session, (session_answers (.inl rfl) started rfl session).1⟩

end Iteration

end Formulary
