/-
Iterators that look ahead.

An iterator steps its cursor when it is asked whether there is a next element, and hands out
afterwards the element that it has found by then. So the question is what reads the
container, at the moment at which an iteration without an iterator reads it.

* `outcome_next` — a step of an iteration.
* `member?_object`, `invoke_builtin` — what an object has under a name, and the methods that every
  value may have.
* `invoke_iterator` — the iterator that a value gives.
* `invoke_hasNext`, `invoke_next` — what the calls of an iterator that holds no element, or one,
  come to.
-/

import Formulary.Method
import Formulary.Proofs.RenamedActions

namespace Formulary

/-- A cursor over something that is no iterator itself. -/
def Cursor.OverContainer (cursor : Cursor) : Prop :=
  ∀ ref, cursor.source ≠ .object .iterator ref

theorem Cursor.OverContainer.step {cursor : Cursor} (container : cursor.OverContainer)
    (store : Store) : (cursor.step store).2.OverContainer := by
  intro ref
  unfold Cursor.step
  repeat' split
  all_goals exact container ref

theorem Cursor.OverContainer.rename {cursor : Cursor} (container : cursor.OverContainer)
    (σ : Renaming) : (cursor.rename σ).OverContainer := by
  intro ref same
  obtain ⟨source, place, passed, size, progress⟩ := cursor
  cases source with
  | object kind inner =>
    cases same
    exact container inner rfl
  | _ => cases same

namespace Iteration

variable {cursor : Cursor} (container : cursor.OverContainer) (store : Store)

include container

/-- A step of an iteration over a container reads the store and does not change it. -/
theorem outcome_next :
    (next cursor).outcome store =
      match cursor.step store with
      | (.ok value, after) => (.ok (value, after), store)
      | (.error fault, _) => (.error (.host fault), store) := by
  unfold next
  split
  · next ref source => exact absurd source (container ref)
  · rw [Action.outcome_get]
    rcases cursor.step store with ⟨fault | value, after⟩ <;> rfl

/-- An iterator that holds no element looks for one with a step of its cursor. -/
theorem outcome_lookAhead {ref : Ref} (held : store.entity ref = .iterator cursor none) :
    (lookAhead (ref + 1) ref).outcome store =
      match cursor.step store with
      | (.ok value, after) => (.ok value, store.update ref (.iterator after value))
      | (.error fault, after) =>
        (.error (.host fault), store.update ref (.iterator after none)) := by
  rw [lookAhead, Action.outcome_get, held]
  dsimp only
  split
  · next inner source => exact absurd source (container inner)
  · rw [Action.outcome_get]
    rcases cursor.step store with ⟨fault | value, after⟩ <;> rfl

end Iteration

namespace Method

variable {store : Store} {ref : Ref}

/-- What an object has under a name on which nothing is set. -/
theorem member?_object {kind : ObjectKind} (plain : ∀ type, kind ≠ .record type)
    (unset : ∀ name, store.setting? (.object kind ref) name = none) (name : String) :
    store.member? (.object kind ref) name =
      if kind.methods.contains name then some (.method (.object kind ref) name) else none := by
  rw [Store.member?, unset]
  · rfl
  · exact plain

/-- A method that an object has not itself is one of those that every value may have. -/
theorem invoke_builtin {kind : ObjectKind} {name : String} {args : List Value}
    {action : Action Value} (plain : ∀ type, kind ≠ .record type)
    (unset : ∀ name, store.setting? (.object kind ref) name = none)
    (foreign : kind.methods.contains name = false)
    (builtin : builtin? (.object kind ref) name args = some action) :
    (invoke (.object kind ref) name args).outcome store = action.outcome store := by
  unfold invoke
  rw [if_neg (by simp), Action.outcome_get, member?_object plain unset, foreign, builtin]
  rfl

/-- A method of an iterator on which nothing is set. -/
theorem invoke_own (unset : ∀ name, store.setting? (.object .iterator ref) name = none)
    {name : String} (own : ObjectKind.iterator.methods.contains name = true)
    (args : List Value) :
    (invoke (.object .iterator ref) name args).outcome store =
      (Host.callIterator ref name args).outcome store := by
  have found : store.member? (.object .iterator ref) name =
      some (.method (.object .iterator ref) name) := by
    rw [member?_object (by rintro _ ⟨⟩) unset, own]
    rfl
  unfold invoke
  rw [if_neg (by simp)]
  rw [Action.outcome_get, found]
  rfl

/-- **Asking an iterator** that holds no element steps its cursor. -/
theorem invoke_hasNext (unset : ∀ name, store.setting? (.object .iterator ref) name = none)
    {cursor : Cursor} (container : cursor.OverContainer)
    (held : store.entity ref = .iterator cursor none) :
    (invoke (.object .iterator ref) "hasNext" []).outcome store =
      match cursor.step store with
      | (.ok value, after) =>
        (.ok (.bool value.isSome), store.update ref (.iterator after value))
      | (.error fault, after) =>
        (.error (.host fault), store.update ref (.iterator after none)) := by
  rw [invoke_own unset (by decide)]
  have unfolded : Host.callIterator ref "hasNext" [] =
      (Iteration.lookAhead (ref + 1) ref >>= fun value =>
        pure (Value.bool value.isSome)) := by
    simp only [Host.callIterator, Iteration.hasNext, bind_assoc, pure_bind]
  rw [unfolded, Action.outcome_bind, Iteration.outcome_lookAhead container store held]
  rcases cursor.step store with ⟨fault | value, after⟩ <;> rfl

/-- **Taking the element** that an iterator holds. -/
theorem invoke_next (unset : ∀ name, store.setting? (.object .iterator ref) name = none)
    {cursor : Cursor} {value : Value}
    (held : store.entity ref = .iterator cursor (some value)) :
    (invoke (.object .iterator ref) "next" []).outcome store =
      (.ok value, store.update ref (.iterator cursor none)) := by
  rw [invoke_own unset (by decide)]
  have looked : (Iteration.lookAhead (ref + 1) ref).outcome store = (.ok (some value), store) := by
    rw [Iteration.lookAhead, Action.outcome_get, held]
    rfl
  have taken : (Iteration.take? ref).outcome store =
      (.ok (some value), store.update ref (.iterator cursor none)) := by
    rw [Iteration.take?, Action.outcome_bind, looked]
    dsimp only
    rw [Action.outcome_get, held]
    rfl
  change Action.outcome (Iteration.take? ref >>= _) store = _
  rw [Action.outcome_bind, taken]
  rfl

/-- **The iterator of a list or a tuple** on which nothing is set is a new object. -/
theorem invoke_iterator {kind : ObjectKind} (sequence : kind = .list ∨ kind = .tuple)
    (unset : ∀ name, store.setting? (.object kind ref) name = none) :
    (invoke (.object kind ref) "iterator" []).outcome store =
      (.ok (.object .iterator store.objects.size),
        (store.add (.iterator ⟨.object kind ref, 0, 0, (store.items ref).size, .underWay⟩
          none)).2) := by
  rcases sequence with rfl | rfl <;> rw [invoke_builtin (by rintro _ ⟨⟩) unset rfl rfl] <;> rfl

end Method

end Formulary
