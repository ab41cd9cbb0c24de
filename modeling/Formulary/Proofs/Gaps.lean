/-
Gaps between references.

Leaving a place free moves the references behind it up by one. What holds references in front of
the gap only does not notice; and since a run that is moved in that way comes to the same, a run never comes by a
reference to a place that its store does not have.

* `Renaming.gap` — the renaming that leaves a place free.
* `Value.Below`, `Entity.Below`, `Kind.Below` — what holds references to the first places only, which is what
  a gap behind them leaves as it is.
* `State.Closed` — a state that holds references to places of its store only.
* `Machine.Alike.closed` — steps keep that.
-/

import Formulary.Proofs.RenamedRuns

namespace Formulary

/-- A place with another one left free in front of it or behind it. -/
def around (free place : Nat) : Nat := if place < free then place else place + 1

theorem around_strictMono (free : Nat) : StrictMono (around free) := by
  intro a b less
  unfold around
  split <;> split <;> omega

theorem Renaming.reserved_id (m : Nat) (_ : m ≤ Double.freshMark) : id m = m := rfl

/-- The renaming that leaves a place free, but for the first one. -/
def Renaming.gap (place : Nat) (proper : 0 < place) : Renaming where
  ref := around place
  mark := id
  ref_strictMono := around_strictMono place
  ref_zero := if_pos proper
  mark_injective := Function.injective_id
  mark_reserved := Renaming.reserved_id

/-! ### What is in front of a gap -/

/-- A value that refers to the first `n` places only. -/
def Value.Below (n : Nat) : Value → Prop
  | .object _ ref => ref < n
  | .method receiver _ => receiver.Below n
  | _ => True

/-- An object that refers to the first `n` places only. -/
def Entity.Below (n : Nat) : Entity → Prop
  | .items values => ∀ value ∈ values, value.Below n
  | .entries table => ∀ pair ∈ table.pairs, pair.1.Below n ∧ pair.2.Below n
  | .elements values => ∀ value ∈ values, value.Below n
  | .keysOf map => map < n
  | .iterator cursor ahead => cursor.source.Below n ∧ ∀ value ∈ ahead, value.Below n
  | .record members => ∀ entry ∈ members, entry.2.Below n
  | .bare => True

/-- A kind that refers to the first `n` places only. -/
def Kind.Below (n : Nat) : Kind → Prop
  | .host _ target _ => target.Below n
  | _ => True

/-- A variable whose kind and value refer to the first `n` places only. -/
def Binding.Below (n : Nat) (binding : Binding) : Prop :=
  binding.kind.Below n ∧ ∀ value ∈ binding.value, value.Below n

section Gap

variable {n : Nat} {proper : 0 < n}

theorem Renaming.gap_of_lt {r : Ref} (less : r < n) : (gap n proper).ref r = r :=
  if_pos less

theorem Renaming.gap_of_le {r : Ref} (le : n ≤ r) : (gap n proper).ref r = r + 1 :=
  if_neg (Nat.not_lt.mpr le)

theorem Renaming.gap_eq_self {r : Ref} : (gap n proper).ref r = r ↔ r < n := by
  constructor
  · intro same
    by_contra behind
    rw [gap_of_le (Nat.not_lt.mp behind)] at same
    exact Nat.succ_ne_self r same
  · exact gap_of_lt

theorem Renaming.gap_ne (proper : 0 < n) (r : Ref) : (gap n proper).ref r ≠ n := by
  intro same
  by_cases less : r < n
  · rw [gap_of_lt less] at same
    exact Nat.ne_of_lt less same
  · rw [gap_of_le (Nat.not_lt.mp less)] at same
    exact less (same ▸ Nat.lt_succ_self r)

/-- Leaving the place free behind `n` objects makes room for one more. -/
theorem Renaming.gap_lt_succ (proper : 0 < n) (r : Ref) :
    (gap n proper).ref r < n + 1 ↔ r < n := by
  constructor
  · intro less
    by_contra outside
    rw [gap_of_le (Nat.not_lt.mp outside)] at less
    exact outside (Nat.lt_of_succ_lt_succ less)
  · intro less
    rw [gap_of_lt less]
    exact Nat.lt_succ_of_lt less

theorem Renaming.gap_add (proper : 0 < n) (i : Nat) :
    (gap n proper).ref (n + i) = n + 1 + i := by
  rw [gap_of_le (Nat.le_add_right n i)]
  exact Nat.add_right_comm n i 1

theorem Double.rename_gap (x : Double) : x.rename (.gap n proper) = x := by
  cases x <;> rfl

theorem Value.rename_gap {value : Value} :
    value.rename (.gap n proper) = value ↔ value.Below n := by
  induction value with
  | object kind ref =>
    rw [Value.rename, Value.object.injEq, Renaming.gap_eq_self]
    exact and_iff_right rfl
  | method receiver name ih =>
    rw [Value.rename, Value.method.injEq, ih]
    exact and_iff_left rfl
  | double x => simp [Below, Double.rename_gap]
  | single x => simp [Below, Double.rename_gap]
  | _ => simp [Below]

theorem Kind.rename_gap {kind : Kind} :
    kind.rename (.gap n proper) = kind ↔ kind.Below n := by
  cases kind with
  | host name target isAbstract =>
    rw [Kind.rename, Kind.host.injEq, Value.rename_gap]
    simp [Below]
  | core type => simp [Below]
  | number => simp [Below]

/-- A list that a change leaves as it is, is one of elements that it leaves as they are. -/
theorem map_eq_self {α : Type} {f : α → α} {parts : List α} :
    parts.map f = parts ↔ ∀ part ∈ parts, f part = part := by
  induction parts with
  | nil => simp
  | cons part rest ih => simp [ih]

theorem Entity.rename_gap {entity : Entity} :
    entity.rename (.gap n proper) = entity ↔ entity.Below n := by
  cases entity with
  | items values =>
    rw [Entity.rename, Entity.items.injEq, ← Array.toList_inj, Array.toList_map, map_eq_self]
    simp [Below, Value.rename_gap]
  | entries table =>
    obtain ⟨pairs, places, next⟩ := table
    simp [Entity.rename, Table.rename, map_eq_self, Below, Prod.ext_iff, renamePair,
      Value.rename_gap]
  | elements values => simp [Entity.rename, map_eq_self, Below, Value.rename_gap]
  | keysOf map =>
    rw [Entity.rename, Entity.keysOf.injEq, Renaming.gap_eq_self]
    rfl
  | iterator cursor ahead =>
    obtain ⟨source, place, passed, size, progress⟩ := cursor
    cases ahead <;> simp [Entity.rename, Cursor.rename, Below, Value.rename_gap]
  | record members =>
    simp [Entity.rename, map_eq_self, Below, Prod.ext_iff, renameMember, Value.rename_gap]
  | bare => simp [Entity.rename, Below]

theorem Binding.rename_gap {binding : Binding} :
    binding.rename (.gap n proper) = binding ↔ binding.Below n := by
  obtain ⟨kind, value⟩ := binding
  cases value <;> simp [Binding.rename, Below, Kind.rename_gap, Value.rename_gap]

end Gap

theorem Value.Below.mono {m n : Nat} (le : m ≤ n) {value : Value} (h : value.Below m) :
    value.Below n := by
  induction value with
  | object kind ref => exact Nat.lt_of_lt_of_le h le
  | method receiver name ih => exact ih h
  | _ => trivial

theorem Kind.Below.mono {m n : Nat} (le : m ≤ n) {kind : Kind} (h : kind.Below m) :
    kind.Below n := by
  cases kind with
  | host name target isAbstract => exact Value.Below.mono le h
  | _ => trivial

theorem Entity.Below.mono {m n : Nat} (le : m ≤ n) {entity : Entity} (h : entity.Below m) :
    entity.Below n := by
  cases entity with
  | items values => exact fun value isIn => (h value isIn).mono le
  | entries table => exact fun pair isIn => (h pair isIn).imp (.mono le) (.mono le)
  | elements values => exact fun value isIn => (h value isIn).mono le
  | keysOf map => exact Nat.lt_of_lt_of_le h le
  | iterator cursor ahead => exact h.imp (.mono le) fun all value isIn => (all value isIn).mono le
  | record members => exact fun entry isIn => (h entry isIn).mono le
  | bare => trivial

/-! ### States without references to places that they do not have -/

/-- A store that holds references to its own places only, and among them the empty tuple, and
that has members set only on what takes them. -/
structure Store.Closed (store : Store) : Prop where
  proper : 0 < store.objects.size
  entity : ∀ r, (store.entity r).Below store.objects.size
  setting : ∀ holder name value, store.setting? holder name = some value →
    holder.Below store.objects.size ∧ value.Below store.objects.size
  opened : ∀ holder name, holder.isOpen = false → store.setting? holder name = none

/-- Variables that refer to the first `n` places only. -/
def Environment.Below (n : Nat) (E : Environment) : Prop :=
  ∀ frame ∈ E, ∀ entry ∈ frame, entry.2.Below n

/-- A state that holds references to places of its store only. -/
structure State.Closed (state : State) : Prop where
  store : state.store.Closed
  environment : state.environment.Below state.store.objects.size

theorem Store.entity_outside {store : Store} {r : Ref} (outside : store.objects.size ≤ r) :
    store.entity r = .bare := by
  have absent : store.objects[r]? = none := Array.getElem?_eq_none outside
  rw [Store.entity, Array.getD_eq_getD_getElem?, absent]
  rfl

/-- A value behind a gap is a renamed one if it does not refer to the gap itself. -/
theorem Value.exists_before {n : Nat} (proper : 0 < n) {value : Value}
    (behind : ¬value.Below (n + 1)) :
    ∃ earlier : Value, earlier.rename (.gap n proper) = value ∧ ¬earlier.Below n ∧
      ∀ k, value.Below (k + 1) → earlier.Below k := by
  induction value with
  | object kind ref =>
    have le : n + 1 ≤ ref := Nat.not_lt.mp behind
    obtain ⟨r, rfl⟩ := Nat.exists_eq_add_of_le' (Nat.le_trans (Nat.le_add_left 1 n) le)
    have from_n : n ≤ r := Nat.le_of_succ_le_succ le
    refine ⟨.object kind r, ?_, Nat.not_lt.mpr from_n, fun k => Nat.lt_of_succ_lt_succ⟩
    rw [rename, Renaming.gap_of_le from_n]
  | method receiver name ih =>
    obtain ⟨earlier, rfl, further, moved⟩ := ih behind
    exact ⟨.method earlier name, rfl, further, moved⟩
  | _ => exact absurd trivial behind

/-- A value that refers to the gap itself is no renamed one. -/
theorem Value.rename_gap_ne {n : Nat} (proper : 0 < n) {value : Value}
    (within : value.Below (n + 1)) (behind : ¬value.Below n) (other : Value) :
    other.rename (.gap n proper) ≠ value := by
  induction value generalizing other with
  | object kind ref =>
    have gap : ref = n := Nat.le_antisymm (Nat.le_of_lt_succ within) (Nat.not_lt.mp behind)
    subst gap
    intro same
    cases other with
    | object kind' r => exact Renaming.gap_ne proper r (Value.object.inj same).2
    | _ => cases same
  | method receiver name ih =>
    intro same
    cases other with
    | method receiver' name' => exact ih within behind receiver' (Value.method.inj same).1
    | _ => cases same
  | _ => exact absurd trivial behind

/-- What a value refers to is below some place. -/
theorem Value.exists_below (value : Value) : ∃ n, value.Below n := by
  induction value with
  | object kind ref => exact ⟨ref + 1, Nat.lt_succ_self ref⟩
  | method receiver name ih => exact ih
  | _ => exact ⟨0, trivial⟩

namespace Store

variable {store : Store} {n : Nat} (proper : 0 < n)

/-- **A closed store does not notice a gap** behind its places. -/
theorem Closed.alike (closed : store.Closed) (within : store.objects.size ≤ n) :
    Alike (.gap n proper) ⟨n, store⟩ store store where
  entity r := by
    by_cases less : r < n
    · rw [Renaming.gap_of_lt less, Entity.rename_gap.mpr ((closed.entity r).mono within)]
    · have outside := Nat.le_trans within (Nat.not_lt.mp less)
      rw [Renaming.gap_of_le (Nat.not_lt.mp less), entity_outside outside,
        entity_outside (Nat.le_succ_of_le outside)]
      rfl
  setting holder name := by
    by_cases below : holder.Below n
    · rw [Value.rename_gap.mpr below]
      cases found : store.setting? holder name with
      | none => rfl
      | some value =>
        have kept := (closed.setting holder name value found).2.mono within
        rw [Option.map_some, Value.rename_gap.mpr kept]
    · have none_of {other : Value} (outside : ¬other.Below n) :
          store.setting? other name = none := by
        by_contra some
        obtain ⟨value, found⟩ := Option.ne_none_iff_exists'.mp some
        exact outside ((closed.setting other name value found).1.mono within)
      have moved : ¬(holder.rename (.gap n proper)).Below n := by
        intro inside
        have same : (holder.rename (.gap n proper)).rename (.gap n proper) =
          holder.rename (.gap n proper) := Value.rename_gap.mpr inside
        exact below (Value.rename_gap.mp ((Value.rename_inj _).mp same))
      rw [none_of below, none_of moved]
      rfl
  bound r := by
    by_cases less : r < n
    · rw [Renaming.gap_of_lt less]
    · have outside := Nat.le_trans within (Nat.not_lt.mp less)
      rw [Renaming.gap_of_le (Nat.not_lt.mp less)]
      exact ⟨fun h => absurd h (Nat.not_lt.mpr (Nat.le_succ_of_le outside)),
        fun h => absurd h (Nat.not_lt.mpr outside)⟩
  fresh _ less := Renaming.gap_of_lt less
  marks _ := rfl
  besideEntity _ _ := rfl
  besideSetting _ _ _ := rfl

/-- **A store that does not notice a gap behind its places is closed**, if what it has set on the
gap is what a closed store has set there. -/
theorem Alike.closed {start : Store} (closed : start.Closed) (within : start.objects.size ≤ n)
    (alike : Alike (.gap n proper) ⟨n, start⟩ store store) (size : store.objects.size = n) :
    store.Closed where
  proper := size ▸ proper
  entity r := by
    rw [size]
    by_cases less : r < n
    · have kept := alike.entity r
      rw [Renaming.gap_of_lt less] at kept
      exact Entity.rename_gap.mp kept.symm
    · rw [entity_outside (size ▸ Nat.not_lt.mp less)]
      trivial
  setting holder name value found := by
    rw [size]
    -- Nothing is set behind the places: not on the gap, and so on nothing that is moved from there.
    have nothing (k : Nat) : ∀ other : Value, other.Below k → ¬other.Below n →
        store.setting? other name = none := by
      induction k with
      | zero => exact fun other below behind => absurd (below.mono (Nat.zero_le n)) behind
      | succ k ih =>
        intro other below behind
        by_cases gap : other.Below (n + 1)
        · rw [alike.besideSetting other name (.inl (Value.rename_gap_ne proper gap behind))]
          by_contra some
          obtain ⟨value, found⟩ := Option.ne_none_iff_exists'.mp some
          exact behind ((closed.setting other name value found).1.mono within)
        · obtain ⟨earlier, rfl, further, moved⟩ := Value.exists_before proper gap
          rw [alike.setting, ih earlier (moved k below) further]
          rfl
    have below : holder.Below n := by
      by_contra behind
      obtain ⟨k, bounded⟩ := holder.exists_below
      rw [nothing k holder bounded behind] at found
      cases found
    have kept := alike.setting holder name
    rw [Value.rename_gap.mpr below, found, Option.map_some, Option.some_inj] at kept
    exact ⟨below, Value.rename_gap.mp kept.symm⟩
  opened holder name shut := by
    rw [alike.besideSetting holder name (.inr shut)]
    exact closed.opened holder name shut

end Store

theorem Entity.rename_identity (entity : Entity) : entity.rename .identity = entity := by
  have pairs : renamePair .identity = id := by
    funext pair
    simp [renamePair]
  have members : renameMember .identity = id := by
    funext entry
    simp [renameMember]
  cases entity with
  | iterator cursor ahead => simp [Entity.rename, Cursor.rename]
  | keysOf map => rfl
  | _ => simp [Entity.rename, Table.rename, pairs, members]

/-- A store is like itself. -/
theorem Store.alike_identity (store : Store) (limit : Nat) :
    Alike .identity ⟨limit, store⟩ store store where
  entity r := (Entity.rename_identity _).symm
  setting holder name := by
    rw [Value.rename_identity]
    cases store.setting? holder name with
    | none => rfl
    | some value => rw [Option.map_some, Value.rename_identity]
  bound _ := Iff.rfl
  fresh _ _ := rfl
  marks _ := rfl
  besideEntity _ _ := rfl
  besideSetting _ _ _ := rfl

/-- Stores that are alike without a renaming have the same objects. -/
theorem Store.Alike.objects_eq {margin : Margin} {s t : Store}
    (alike : Alike .identity margin s t) : t.objects = s.objects := by
  have bound (r : Ref) : r < t.objects.size ↔ r < s.objects.size := alike.bound r
  have size : t.objects.size = s.objects.size :=
    Nat.le_antisymm (Nat.le_of_not_lt fun less => Nat.lt_irrefl _ ((bound _).mp less))
      (Nat.le_of_not_lt fun less => Nat.lt_irrefl _ ((bound _).mpr less))
  refine Array.ext size fun r inside inside' => ?_
  have same : t.entity r = s.entity r := (alike.entity r).trans (Entity.rename_identity _)
  simpa [Store.entity, inside, inside'] using same

/-- They have the same members that have been set. -/
theorem Store.Alike.setting_eq {margin : Margin} {s t : Store}
    (alike : Alike .identity margin s t) (holder : Value) (name : String) :
    t.setting? holder name = s.setting? holder name := by
  have kept := alike.setting holder name
  rw [Value.rename_identity] at kept
  rw [kept]
  cases s.setting? holder name with
  | none => rfl
  | some value => exact congrArg some (Value.rename_identity value)

/-! ### Steps from closed states -/

/-- The transfer that renames references and marks, adds variables, and changes nothing else. -/
def Transfer.around (σ : Renaming) (margin : Margin) (extra : Environment) : Transfer :=
  ⟨σ, margin, id, id, Function.injective_id, extra⟩

theorem Transfer.frames_gap {n : Nat} {proper : 0 < n} {margin : Margin}
    {extra : Environment} {E : Environment} :
    E.map (around (.gap n proper) margin extra).frame = E ↔ E.Below n := by
  have entry (named : String × Binding) :
      (around (.gap n proper) margin extra).entry named = named ↔ named.2.Below n := by
    rw [Transfer.entry, around, Prod.ext_iff, Binding.rename_gap]
    exact and_iff_right rfl
  simp only [map_eq_self, Environment.Below, Transfer.frame, entry]

theorem Halt.relabel_id (halt : Halt) : halt.relabel id = halt := by
  cases halt with
  | failure error => cases error <;> rfl
  | _ => rfl

theorem Transfer.result_around {α β : Type} {σ : Renaming} {margin : Margin}
    {extra : Environment} (f : α → β) (result : Except Halt α) :
    (around σ margin extra).result f result = f <$> result := by
  cases result with
  | ok a => rfl
  | error halt => exact congrArg Except.error halt.relabel_id

namespace Machine

variable {α : Type} {n : Nat} {proper : 0 < n} {state : State} {step : Machine α}
  {f : α → α}

/-- **A step that does not notice a gap behind the places that it leaves keeps a state closed**,
and gives no reference to another place. -/
theorem Alike.closed (closed : state.Closed) (size : sizeBehind step state = n)
    (same : Alike (.around (.gap n proper) ⟨n, state.store⟩ []) 0 f step step) :
    (outcome step state).2.Closed ∧
      f <$> (outcome step state).1 = (outcome step state).1 := by
  have grown : state.store.objects.size ≤ n := size ▸ same.grows state
  have states : Transfer.States (.around (.gap n proper) ⟨n, state.store⟩ []) 0 state state := by
    refine ⟨⟨[], state.environment, rfl, rfl, ?_⟩, closed.store.alike proper grown⟩
    refine (Transfer.frames_gap.mpr fun frame isIn entry inFrame => ?_).symm
    have below := closed.environment frame isIn entry inFrame
    exact ⟨below.1.mono grown, fun value isIn => (below.2 value isIn).mono grown⟩
  obtain ⟨result, behind⟩ := same.maps state state states (Nat.le_of_eq size)
  rw [Transfer.result_around] at result
  have closed' := Store.Alike.closed proper closed.store grown behind.store size
  refine ⟨⟨closed', ?_⟩, result.symm⟩
  obtain ⟨top, below, depth, whole, moved⟩ := behind.environment
  rw [List.length_eq_zero_iff.mp depth] at whole moved
  have kept : below.map (Transfer.around (.gap n proper) ⟨n, state.store⟩ []).frame = below :=
    moved.symm.trans whole
  have size' : (outcome step state).2.store.objects.size = n := size
  rw [whole, size']
  exact Transfer.frames_gap.mp kept

end Machine

end Formulary
