/-
Actions under a renaming.

`Action.Alike` relates two actions that come to the same up to a renaming from
stores that are alike: to the renamed result or to the same failure, and to stores
that are alike again. It is kept by sequences, holds of every primitive of the
store, and so of every action that is built from them.

References can only be compared up to a limit where the two stores are one and the
same in the beginning, which is how a renaming also tells that a store refers to no
place that it does not have. Actions never take a place away, so that a limit that
holds in the end has held all along.
-/

import Formulary.Proofs.Machine
import Formulary.Proofs.RenamedStores

namespace Formulary

variable {σ : Renaming}

/-- How far two stores are compared: for references below `limit`, and apart from
what `rest` holds where no run of the first one could change anything: at places
that no reference is renamed to, and of members of what takes none. -/
structure Margin where
  limit : Nat
  rest : Store

/-- Two stores that are the same up to a renaming. Objects that the first one adds
below the limit have their renamed places where the second one adds them. -/
structure Store.Alike (σ : Renaming) (margin : Margin) (s t : Store) : Prop
    extends Store.Renamed σ s t where
  bound : ∀ r, σ.ref r < t.objects.size ↔ r < s.objects.size
  fresh : ∀ i, s.objects.size + i < margin.limit →
    σ.ref (s.objects.size + i) = t.objects.size + i
  marks : ∀ i, σ.mark (s.nextMark + i) = t.nextMark + i
  besideEntity : ∀ r, (∀ q, σ.ref q ≠ r) → t.entity r = margin.rest.entity r
  besideSetting : ∀ holder name,
    ((∀ value : Value, value.rename σ ≠ holder) ∨ holder.isOpen = false) →
      t.setting? holder name = margin.rest.setting? holder name

namespace Store

/-! ### Stores that change -/

theorem entity_update (store : Store) (r q : Ref) (entity : Entity) :
    (store.update r entity).entity q =
      if q = r ∧ r < store.objects.size then entity else store.entity q := by
  simp only [Store.entity, Store.update, Array.getD_eq_getD_getElem?,
    Array.getElem?_setIfInBounds]
  by_cases same : r = q
  · subst same
    by_cases inside : r < store.objects.size <;> simp [inside]
  · simp [same, Ne.symm same]

theorem entity_add (store : Store) (r : Ref) (entity : Entity) :
    (store.add entity).2.entity r =
      if r = store.objects.size then entity else store.entity r := by
  simp only [Store.entity, Store.add, Array.getD_eq_getD_getElem?, Array.getElem?_push]
  split <;> rfl

@[simp]
theorem size_update (store : Store) (r : Ref) (entity : Entity) :
    (store.update r entity).objects.size = store.objects.size := by
  simp [Store.update]

@[simp]
theorem size_add (store : Store) (entity : Entity) :
    (store.add entity).2.objects.size = store.objects.size + 1 := by
  simp [Store.add]

theorem setting?_set (store : Store) (holder other : Value) (name otherName : String)
    (value : Value) :
    (store.set holder name value).setting? other otherName =
      if other = holder ∧ otherName = name then some value
      else store.setting? other otherName := by
  simp only [Store.setting?, Store.set, List.lookup_cons]
  by_cases same : (other, otherName) = (holder, name)
  · simp_all
  · have differs : ((other, otherName) == (holder, name)) = false := by
      simpa using same
    have differs' : ¬(other = holder ∧ otherName = name) := by
      simpa using same
    simp [differs, differs']

namespace Alike

variable {margin : Margin} {s t : Store} (alike : Alike σ margin s t)

include alike

theorem update (r : Ref) (entity : Entity) :
    Alike σ margin (s.update r entity) (t.update (σ.ref r) (entity.rename σ)) where
  entity q := by
    simp only [entity_update, Renaming.ref_inj, alike.bound, alike.entity]
    split <;> rfl
  setting := alike.setting
  bound q := by simpa using alike.bound q
  fresh q := by simpa using alike.fresh q
  marks := alike.marks
  besideEntity q beside := by
    simp only [entity_update, Ne.symm (beside r), false_and, if_false]
    exact alike.besideEntity q beside
  besideSetting := alike.besideSetting

theorem add (below : s.objects.size < margin.limit) (entity : Entity) :
    (t.add (entity.rename σ)).1 = σ.ref (s.add entity).1 ∧
      Alike σ margin (s.add entity).2 (t.add (entity.rename σ)).2 := by
  have place : σ.ref s.objects.size = t.objects.size := alike.fresh 0 below
  refine ⟨place.symm, ⟨?_, alike.setting⟩, ?_, ?_, alike.marks, ?_, alike.besideSetting⟩
  · intro r
    simp only [entity_add, ← place, Renaming.ref_inj, alike.entity]
    split <;> rfl
  · intro r
    rw [size_add, size_add, ← place, Nat.lt_succ_iff, Nat.lt_succ_iff]
    exact σ.ref_strictMono.le_iff_le
  · intro i
    rw [size_add, size_add, Nat.add_assoc, Nat.add_assoc]
    exact alike.fresh (1 + i)
  · intro r beside
    rw [entity_add, if_neg fun same => beside _ (place.trans same.symm)]
    exact alike.besideEntity r beside

theorem set {holder : Value} (opened : holder.isOpen = true) (name : String)
    (value : Value) :
    Alike σ margin (s.set holder name value)
      (t.set (holder.rename σ) name (value.rename σ)) where
  entity := alike.entity
  setting other otherName := by
    simp only [setting?_set, Value.rename_inj, alike.setting]
    split <;> rfl
  bound := alike.bound
  fresh := alike.fresh
  marks := alike.marks
  besideEntity := alike.besideEntity
  besideSetting other otherName beside := by
    have other_ne : other ≠ holder.rename σ := by
      rintro rfl
      rcases beside with outside | closed
      · exact outside holder rfl
      · rw [Value.isOpen_rename, opened] at closed
        cases closed
    rw [setting?_set, if_neg fun same => other_ne same.1]
    exact alike.besideSetting other otherName beside

theorem mark :
    Alike σ margin { s with nextMark := s.nextMark + 1 }
      { t with nextMark := t.nextMark + 1 } where
  entity := alike.entity
  setting := alike.setting
  bound := alike.bound
  fresh := alike.fresh
  marks i := by
    have shifted := alike.marks (1 + i)
    rw [← Nat.add_assoc, ← Nat.add_assoc] at shifted
    exact shifted
  besideEntity := alike.besideEntity
  besideSetting := alike.besideSetting

end Alike

end Store

/-! ### Actions that do the same -/

namespace Action

variable {α β γ δ : Type} {margin : Margin}

/-- Two actions that come to the same up to a renaming. -/
structure Alike (σ : Renaming) (margin : Margin) (f : α → β) (a : Action α)
    (b : Action β) : Prop where
  grows : ∀ s, s.objects.size ≤ (a.outcome s).2.objects.size
  maps : ∀ s t, Store.Alike σ margin s t → (a.outcome s).2.objects.size ≤ margin.limit →
    (b.outcome t).1 = f <$> (a.outcome s).1 ∧
      Store.Alike σ margin (a.outcome s).2 (b.outcome t).2

namespace Alike

theorem pure {f : α → β} {x : α} {y : β} (same : f x = y) :
    Alike σ margin f (pure x) (pure y) where
  grows _ := Nat.le_refl _
  maps _ _ alike _ := by
    subst same
    exact ⟨rfl, alike⟩

theorem throw {f : α → β} (fault : Fault) :
    Alike σ margin f (throw fault) (throw fault) where
  grows _ := Nat.le_refl _
  maps _ _ alike _ := ⟨rfl, alike⟩

theorem bind {f : α → β} {g : γ → δ} {a : Action α} {b : Action β}
    {next : α → Action γ} {next' : β → Action δ} (first : Alike σ margin f a b)
    (second : ∀ x, Alike σ margin g (next x) (next' (f x))) :
    Alike σ margin g (a >>= next) (b >>= next') where
  grows s := by
    have grown := first.grows s
    rw [outcome_bind]
    rcases ended : outcome a s with ⟨fault | x, behind⟩
    · rw [ended] at grown
      exact grown
    · rw [ended] at grown
      exact grown.trans ((second x).grows behind)
  maps s t alike bounded := by
    have firsts := first.maps s t alike
    rw [outcome_bind] at bounded ⊢
    rw [outcome_bind]
    rcases ended : outcome a s with ⟨fault | x, behind⟩
    · rw [ended] at bounded firsts
      obtain ⟨same, alike⟩ := firsts bounded
      rcases ended' : outcome b t with ⟨result, behind'⟩
      rw [ended'] at same alike
      cases same
      exact ⟨rfl, alike⟩
    · rw [ended] at bounded firsts
      obtain ⟨same, alike⟩ := firsts (((second x).grows behind).trans bounded)
      rcases ended' : outcome b t with ⟨result, behind'⟩
      rw [ended'] at same alike
      cases same
      exact (second x).maps behind behind' alike bounded

/-- What is read off the store may go into what is done next. -/
theorem get {g : γ → δ} {next next' : Store → _}
    (second : ∀ s t, Store.Renamed σ s t → Alike σ margin g (next s) (next' t)) :
    Alike σ margin g (get >>= next) (get >>= next') where
  grows s := by
    obtain ⟨t, renamed⟩ := Store.exists_renamed σ s
    exact (second s t renamed).grows s
  maps s t alike bounded := (second s t alike.toRenamed).maps s t alike bounded

theorem ofExcept {f : α → β} {x : Except Fault α} {y : Except Fault β}
    (same : y = f <$> x) : Alike σ margin f (ofExcept x) (ofExcept y) := by
  subst same
  cases x with
  | ok x => exact .pure rfl
  | error fault => exact .throw fault

theorem read {f : α → β} {view : Store → α} {view' : Store → β}
    (same : ∀ s t, Store.Renamed σ s t → view' t = f (view s)) :
    Alike σ margin f (read view) (read view') :=
  .get fun s t renamed => .pure (same s t renamed).symm

theorem consult {f : α → β} {view : Store → Except Fault α}
    {view' : Store → Except Fault β}
    (same : ∀ s t, Store.Renamed σ s t → view' t = f <$> view s) :
    Alike σ margin f (consult view) (consult view') :=
  .get fun s t renamed => .ofExcept (same s t renamed)

theorem write (r : Ref) (entity : Entity) :
    Alike σ margin id (write r entity) (write (σ.ref r) (entity.rename σ)) where
  grows s := (Store.size_update s r entity).ge
  maps _ _ alike _ := ⟨rfl, alike.update r entity⟩

theorem setMember {holder : Value} (opened : holder.isOpen = true) (name : String)
    (value : Value) :
    Alike σ margin id (modify fun store => store.set holder name value)
      (modify fun store => store.set (holder.rename σ) name (value.rename σ)) where
  grows _ := Nat.le_refl _
  maps _ _ alike _ := ⟨rfl, alike.set opened name value⟩

/-- A new object, and what is done with its place. -/
theorem add {g : γ → δ} (entity : Entity) {k l : Ref → _}
    (second : ∀ r, Alike σ margin g (k r) (l (σ.ref r))) :
    Alike σ margin g
      (do
        let store ← MonadState.get
        set (store.add entity).2
        k (store.add entity).1)
      (do
        let store ← MonadState.get
        set (store.add (entity.rename σ)).2
        l (store.add (entity.rename σ)).1) where
  grows s := by
    have grown := (second s.objects.size).grows (s.add entity).2
    rw [Store.size_add] at grown
    exact (Nat.le_succ _).trans grown
  maps s t alike bounded := by
    have grown := (second s.objects.size).grows (s.add entity).2
    rw [Store.size_add] at grown
    have below : s.objects.size < margin.limit := grown.trans bounded
    obtain ⟨place, added⟩ := alike.add below entity
    have after := (second s.objects.size).maps _ _ added bounded
    have placed : σ.ref s.objects.size = t.objects.size := place.symm
    rw [placed] at after
    exact after

theorem create (kind : ObjectKind) (entity : Entity) :
    Alike σ margin (Value.rename σ) (create kind entity) (create kind (entity.rename σ)) :=
  .add (g := Value.rename σ) entity (k := fun r => Pure.pure (Value.object kind r))
    (l := fun r => Pure.pure (Value.object kind r)) fun _ => .pure rfl

theorem newList (values : Array Value) :
    Alike σ margin (Value.rename σ) (newList values)
      (newList (values.map (·.rename σ))) :=
  .create .list (.items values)

theorem newTuple (values : Array Value) :
    Alike σ margin (Value.rename σ) (newTuple values)
      (newTuple (values.map (·.rename σ))) := by
  unfold Action.newTuple
  rw [isEmpty_rename]
  split
  · refine .pure ?_
    rw [Store.emptyTuple, Value.rename, σ.ref_zero]
  · exact .create .tuple (.items values)

/-- A result that is no number and gets a mark of its own. -/
theorem marked {rebuild : Double → Value}
    (natural : ∀ x : Double, (rebuild x).rename σ = rebuild (x.rename σ)) :
    Alike σ margin (Value.rename σ)
      (do
        let store ← MonadState.get
        set { store with nextMark := store.nextMark + 1 }
        return rebuild (.nan store.nextMark))
      (do
        let store ← MonadState.get
        set { store with nextMark := store.nextMark + 1 }
        return rebuild (.nan store.nextMark)) where
  grows _ := Nat.le_refl _
  maps s t alike _ := by
    refine ⟨?_, alike.mark⟩
    have next := alike.marks 0
    rw [Nat.add_zero, Nat.add_zero] at next
    change (.ok (rebuild (.nan t.nextMark)) : Except Fault Value) =
      .ok ((rebuild (.nan s.nextMark)).rename σ)
    rw [natural, Double.rename_nan, next]

theorem settle (value : Value) :
    Alike σ margin (Value.rename σ) (settle value) (settle (value.rename σ)) := by
  have kept : Alike σ margin (Value.rename σ) (Pure.pure value)
      (Pure.pure (value.rename σ)) := .pure rfl
  cases value with
  | double x =>
    cases x with
    | nan mark =>
      simp only [Value.rename, Double.rename_nan, Action.settle, Renaming.mark_eq_fresh]
      split
      · exact marked fun _ => rfl
      · exact kept
    | signed negative index => exact kept
  | single x =>
    cases x with
    | nan mark =>
      simp only [Value.rename, Double.rename_nan, Action.settle, Renaming.mark_eq_fresh]
      split
      · exact marked fun _ => rfl
      · exact kept
    | signed negative index => exact kept
  | _ => exact kept

theorem ofResult {x y : Except Fault Value} (same : y = Value.rename σ <$> x) :
    Alike σ margin (Value.rename σ) (ofResult x) (ofResult y) :=
  .bind (.ofExcept same) settle

end Alike

end Action

end Formulary
