/-
Host calls under a renaming.

Iterating over values, calling what can be called, and the texts, members, elements
and methods of values: each takes renamed values to the renamed result.
-/

import Formulary.Proofs.RenamedActions

namespace Formulary

open Action (Alike)

variable {σ : Renaming} {margin : Margin}

/-! ### Iterating -/

namespace Iteration

/-- Fuel beyond the reference of an iterator changes nothing. -/
theorem lookAhead_fuel (ref fuel : Nat) (enough : ref < fuel) :
    lookAhead fuel ref = lookAhead (ref + 1) ref := by
  induction ref using Nat.strongRecOn generalizing fuel with
  | ind ref ih =>
    obtain ⟨fuel, rfl⟩ := Nat.exists_eq_add_one_of_ne_zero (Nat.ne_zero_of_lt enough)
    simp only [lookAhead]
    refine bind_congr fun store => ?_
    cases store.entity ref with
    | iterator cursor ahead =>
      cases ahead with
      | some value => rfl
      | none =>
        obtain ⟨source, place, passed, size, progress⟩ := cursor
        cases source with
        | object kind inner =>
          cases kind with
          | iterator =>
            simp only
            split
            · next older =>
              rw [ih inner older fuel (older.trans_le (Nat.lt_succ_iff.mp enough)),
                ih inner older ref older]
            · rfl
          | _ => rfl
        | _ => rfl
    | _ => rfl

theorem chainLength_fuel (store : Store) (ref fuel : Nat) (enough : ref < fuel) :
    chainLength store fuel ref = chainLength store (ref + 1) ref := by
  induction ref using Nat.strongRecOn generalizing fuel with
  | ind ref ih =>
    obtain ⟨fuel, rfl⟩ := Nat.exists_eq_add_one_of_ne_zero (Nat.ne_zero_of_lt enough)
    simp only [chainLength]
    cases store.entity ref with
    | iterator cursor ahead =>
      obtain ⟨source, place, passed, size, progress⟩ := cursor
      cases source with
      | object kind inner =>
        cases kind with
        | iterator =>
          simp only
          split
          · next older =>
            rw [ih inner older fuel (older.trans_le (Nat.lt_succ_iff.mp enough)),
                ih inner older ref older]
          · rfl
        | _ => rfl
      | _ => rfl
    | _ => rfl

/-- A step of a cursor that an iterator stores behind the step. -/
theorem steppedAhead_alike (cursor : Cursor) (r : Ref) :
    Alike σ margin (Option.map (·.rename σ))
      (do
        let (result, after) := cursor.step (← get)
        match result with
        | .error fault =>
          Action.write r (.iterator after none)
          Action.refuse fault
        | .ok value =>
          Action.write r (.iterator after value)
          return value)
      (do
        let (result, after) := (cursor.rename σ).step (← get)
        match result with
        | .error fault =>
          Action.write (σ.ref r) (.iterator after none)
          Action.refuse fault
        | .ok value =>
          Action.write (σ.ref r) (.iterator after value)
          return value) := by
  refine .get fun s t renamed => ?_
  rw [renamed.step]
  rcases cursor.step s with ⟨fault | value, after⟩
  · exact .bind (.write r (.iterator after none)) fun _ => .throw _
  · exact .bind (.write r (.iterator after value)) fun _ => .pure rfl

theorem lookAhead_alike (fuel : Nat) (r : Ref) :
    Alike σ margin (Option.map (·.rename σ)) (lookAhead fuel r)
      (lookAhead fuel (σ.ref r)) := by
  induction fuel generalizing r with
  | zero => exact .pure rfl
  | succ fuel ih =>
    refine .get fun s t renamed => ?_
    rw [renamed.entity]
    cases s.entity r with
    | iterator cursor ahead =>
      cases ahead with
      | some value => exact .pure rfl
      | none =>
        have stepped : Alike σ margin _ _ _ := steppedAhead_alike cursor r
        obtain ⟨source, place, passed, size, progress⟩ := cursor
        cases source with
        | object kind inner =>
          cases kind with
          | iterator =>
            simp only [Entity.rename, Cursor.rename, Value.rename, Renaming.ref_lt,
              Option.map_none]
            split
            · refine .bind (ih inner) fun value => .get fun s t renamed => ?_
              rw [renamed.entity]
              cases s.entity inner with
              | iterator innerCursor ahead =>
                exact .bind (.write inner (.iterator innerCursor none)) fun _ =>
                  .bind (.write r (.iterator _ value)) fun _ => .pure rfl
              | _ =>
                exact .bind (.write r (.iterator _ value)) fun _ => .pure rfl
            · exact .pure rfl
          | _ => exact stepped
        | _ => exact stepped
    | _ => exact .pure rfl

theorem lookAheadAll_alike (r : Ref) :
    Alike σ margin (Option.map (·.rename σ)) (lookAhead (r + 1) r)
      (lookAhead (σ.ref r + 1) (σ.ref r)) := by
  have further : r ≤ σ.ref r := σ.le_ref r
  rw [← lookAhead_fuel r (σ.ref r + 1) (Nat.lt_succ_of_le further)]
  exact lookAhead_alike _ r

theorem hasNext_alike (r : Ref) :
    Alike σ margin id (hasNext r) (hasNext (σ.ref r)) :=
  .bind (lookAheadAll_alike r) fun value => .pure (by cases value <;> rfl)

theorem take?_alike (r : Ref) :
    Alike σ margin (Option.map (·.rename σ)) (take? r) (take? (σ.ref r)) := by
  refine .bind (lookAheadAll_alike r) fun value => .get fun s t renamed => ?_
  rw [renamed.entity]
  cases s.entity r with
  | iterator cursor ahead =>
    exact .bind (.write r (.iterator cursor none)) fun _ => .pure rfl
  | _ => exact .pure rfl

theorem newIterator_alike (cursor : Cursor) :
    Alike σ margin (Value.rename σ) (newIterator cursor) (newIterator (cursor.rename σ)) :=
  .create .iterator (.iterator cursor none)

/-- What an iteration has come to: an element, and the cursor behind it. -/
def renamePassed (σ : Renaming) (passed : Option Value × Cursor) : Option Value × Cursor :=
  (passed.1.map (·.rename σ), passed.2.rename σ)

/-- A step of a cursor that is handed on behind the step. -/
theorem stepped_alike (cursor : Cursor) :
    Alike σ margin (renamePassed σ)
      (do
        let (result, after) := cursor.step (← get)
        match result with
        | .ok value => return (value, after)
        | .error fault => Action.refuse fault)
      (do
        let (result, after) := (cursor.rename σ).step (← get)
        match result with
        | .ok value => return (value, after)
        | .error fault => Action.refuse fault) := by
  refine .get fun s t renamed => ?_
  rw [renamed.step]
  rcases cursor.step s with ⟨fault | value, after⟩
  · exact .throw _
  · exact .pure rfl

theorem next_alike (cursor : Cursor) :
    Alike σ margin (renamePassed σ) (next cursor) (next (cursor.rename σ)) := by
  have stepped : Alike σ margin (renamePassed σ) _ _ := stepped_alike cursor
  obtain ⟨source, place, passed, size, progress⟩ := cursor
  cases source with
  | object kind r =>
    cases kind with
    | iterator => exact .bind (take?_alike r) fun value => .pure rfl
    | _ => exact stepped
  | _ => exact stepped

theorem rest_alike (fuel : Nat) (cursor : Cursor) :
    Alike σ margin (List.map (·.rename σ)) (rest fuel cursor)
      (rest fuel (cursor.rename σ)) := by
  induction fuel generalizing cursor with
  | zero => exact .pure rfl
  | succ fuel ih =>
    refine .bind (next_alike cursor) fun passed => ?_
    rcases passed with ⟨_ | value, after⟩
    · exact .pure rfl
    · exact .bind (ih after) fun values => .pure rfl

theorem length_rename {s t : Store} (renamed : Store.Renamed σ s t) (value : Value) :
    length t (value.rename σ) = length s value := by
  have counted := renamed.count value
  cases value with
  | object kind r =>
    cases kind with
    | iterator =>
      have further : r ≤ σ.ref r := σ.le_ref r
      simp only [Value.rename, length]
      rw [renamed.chainLength, chainLength_fuel s r _ (Nat.lt_succ_of_le further)]
    | _ => exact counted
  | _ => exact counted

theorem all_alike (value : Value) :
    Alike σ margin (List.map (·.rename σ)) (all value) (all (value.rename σ)) := by
  refine .get fun s t renamed => ?_
  rw [renamed.start?, length_rename renamed]
  cases Cursor.start? s value with
  | none => exact .throw _
  | some cursor => exact rest_alike _ cursor

end Iteration

/-! ### Maps and sets -/

namespace Mapping

theorem find?_alike (r : Ref) (key : Value) :
    Alike σ margin (Option.map (·.rename σ)) (find? r key)
      (find? (σ.ref r) (key.rename σ)) := by
  refine .bind (f := id) (.consult fun s t renamed => ?_) fun _ =>
    .consult fun s t renamed => ?_
  · rw [renamed.checkKey, id_map]
  · rw [renamed.entries, Store.valueAt?_rename renamed.same]

theorem put_alike (r : Ref) (key value : Value) :
    Alike σ margin id (put r key value)
      (put (σ.ref r) (key.rename σ) (value.rename σ)) := by
  refine .bind (f := id) (.consult fun s t renamed => ?_) fun _ =>
    .bind (f := List.map (renamePair σ)) (.consult fun s t renamed => ?_) fun pairs =>
      .get fun s t renamed => ?_
  · rw [renamed.checkKey, id_map]
  · rw [renamed.entries, assigned_rename renamed.same]
  · rw [renamed.table, Table.update_rename]
    exact .write r (.entries ((s.table r).update pairs))

theorem pop?_alike (r : Ref) (key : Value) :
    Alike σ margin (Option.map (·.rename σ)) (pop? r key)
      (pop? (σ.ref r) (key.rename σ)) := by
  refine .get fun s t renamed => ?_
  simp only [renamed.table, Table.pairs_rename, List.isEmpty_map]
  split
  · exact .pure rfl
  · refine .bind (find?_alike r key) fun value =>
      .bind (f := id) (.consult fun s' t' renamed' => ?_) fun index => ?_
    · rw [index?_rename renamed'.same, id_map]
    · cases index with
      | none => exact .pure rfl
      | some index =>
        simp only [Table.erase_rename]
        exact .bind (.write r (.entries ((s.table r).erase index))) fun _ => .pure rfl

theorem call_alike (r : Ref) (name : String) (args : List Value) :
    Alike σ margin (Value.rename σ) (call r name args)
      (call (σ.ref r) name (args.map (·.rename σ))) := by
  unfold call
  split
  · next key =>
    exact .bind (find?_alike r key) fun found => .pure (by cases found <;> rfl)
  · next key otherwise =>
    exact .bind (find?_alike r key) fun found => .pure (by cases found <;> rfl)
  · next key =>
    refine .bind (pop?_alike r key) fun found => ?_
    cases found with
    | some value => exact .pure rfl
    | none => exact .throw _
  · next key otherwise =>
    exact .bind (pop?_alike r key) fun found => .pure (by cases found <;> rfl)
  · exact .bind (.write r (.entries .empty)) fun _ => .pure rfl
  · exact .create .keys (.keysOf r)
  · next get getOr pop popOr clear keys =>
    rcases args with _ | ⟨first, _ | ⟨second, _ | ⟨third, rest⟩⟩⟩ <;> simp_all <;>
      exact .throw _

end Mapping

namespace SetOf

theorem contains_alike (r : Ref) (element : Value) :
    Alike σ margin id (contains r element) (contains (σ.ref r) (element.rename σ)) := by
  refine .bind (f := id) (.consult fun s t renamed => ?_) fun _ =>
    .consult fun s t renamed => ?_
  · rw [renamed.checkKey, id_map]
  · rw [renamed.elements, Store.holds_rename renamed.same, id_map]

theorem asks_alike (r : Ref) (element : Value) :
    Alike σ margin id (asks r element) (asks (σ.ref r) (element.rename σ)) := by
  have inside : Alike σ margin id (contains r element)
      (contains (σ.ref r) (element.rename σ)) := contains_alike r element
  cases element with
  | object kind inner =>
    cases kind with
    | set => exact .pure rfl
    | _ => exact inside
  | _ => exact inside

theorem add_alike (r : Ref) (element : Value) :
    Alike σ margin id (add r element) (add (σ.ref r) (element.rename σ)) := by
  refine .bind (contains_alike r element) fun found => ?_
  cases found with
  | true => exact .pure rfl
  | false =>
    refine .get fun s t renamed => ?_
    have added : t.elements (σ.ref r) ++ [element.rename σ] =
        (s.elements r ++ [element]).map (·.rename σ) := by
      rw [renamed.elements, List.map_append]
      rfl
    simp only [added]
    exact .write r (.elements (s.elements r ++ [element]))

theorem discard_alike (r : Ref) (element : Value) :
    Alike σ margin id (discard r element) (discard (σ.ref r) (element.rename σ)) := by
  refine .bind (asks_alike r element) fun found => ?_
  cases found with
  | false => exact .pure rfl
  | true =>
    refine .bind (f := List.map (·.rename σ)) (.consult fun s t renamed => ?_)
      fun elements => ?_
    · rw [renamed.elements, without_rename renamed.same]
    · exact .bind (.write r (.elements elements)) fun _ => .pure rfl

theorem call_alike (r : Ref) (name : String) (args : List Value) :
    Alike σ margin (Value.rename σ) (call r name args)
      (call (σ.ref r) name (args.map (·.rename σ))) := by
  unfold call
  split
  · next element => exact .bind (add_alike r element) fun _ => .pure rfl
  · next element => exact .bind (discard_alike r element) fun _ => .pure rfl
  · next element =>
    refine .bind (discard_alike r element) fun found => ?_
    cases found with
    | true => exact .pure rfl
    | false => exact .throw _
  · rcases args with _ | ⟨first, _ | ⟨second, rest⟩⟩ <;> simp_all <;> exact .throw _

end SetOf

/-! ### Lists and tuples -/

namespace Sequence

theorem index_alike (r : Ref) (value : Value) (bounds : List Value) :
    Alike σ margin (Value.rename σ) (index r value bounds)
      (index (σ.ref r) (value.rename σ) (bounds.map (·.rename σ))) := by
  refine .get fun s t renamed => ?_
  simp only [renamed.items, Array.toList_map, List.length_map]
  refine .bind (f := id) (.ofExcept ?_) fun range => ?_
  · match bounds with
    | [] | _ :: _ :: _ :: _ => rfl
    | [start] => simp
    | [start, stop] => simp
  · refine .bind (f := id) (.consult fun s' t' renamed' => ?_) fun found => ?_
    · rw [← List.map_drop, ← List.map_take, place?_rename renamed'.same, id_map]
      rfl
    · cases found with
      | none => exact .throw _
      | some place => exact .pure rfl

theorem pop_alike (r : Ref) (place : Int) :
    Alike σ margin (Value.rename σ) (pop r place) (pop (σ.ref r) place) := by
  refine .get fun s t renamed => ?_
  simp only [renamed.items, Array.size_map, Array.getElem?_map]
  generalize (if place < 0 then place + (s.items r).size else place) = place
  cases (s.items r)[place.toNat]? with
  | none => exact .throw _
  | some value =>
    simp only [Option.map_some, eraseIdxIfInBounds_rename]
    split
    · exact .throw _
    · exact .bind (.write r (.items _)) fun _ => .pure rfl

theorem remove_alike (r : Ref) (value : Value) :
    Alike σ margin id (remove r value) (remove (σ.ref r) (value.rename σ)) := by
  refine .get fun s t renamed => ?_
  simp only [renamed.items, Array.toList_map]
  refine .bind (f := id) (.consult fun s' t' renamed' => ?_) fun found => ?_
  · rw [place?_rename renamed'.same, id_map]
  · cases found with
    | none => exact .throw _
    | some place =>
      simp only [id, eraseIdxIfInBounds_rename]
      exact .write r (.items _)

theorem call_alike (r : Ref) (name : String) (args : List Value) :
    Alike σ margin (Value.rename σ) (call r name args)
      (call (σ.ref r) name (args.map (·.rename σ))) := by
  have cleared : Alike σ margin id (Action.write r (.items #[]))
      (Action.write (σ.ref r) (.items #[])) := by
    have written : Alike σ margin id _ _ := .write r (.items #[])
    rwa [Entity.rename, Array.map_empty] at written
  unfold call
  refine .get fun s t renamed => ?_
  simp only [renamed.items]
  split
  · next value =>
    simp only [List.map_cons, List.map_nil, ← Array.map_push]
    exact .bind (.write r (.items _)) fun _ => .pure rfl
  · exact .bind cleared fun _ => .pure rfl
  · next value =>
    refine .bind (f := id) (.consult fun s' t' renamed' => ?_) fun count => .pure rfl
    rw [Array.toList_map, occurrences_rename renamed'.same, id_map]
  · next source =>
    refine .bind (Iteration.all_alike source) fun more => .get fun s' t' renamed' => ?_
    rw [renamed'.items, ← List.map_toArray, ← Array.map_append]
    exact .bind (.write r (.items _)) fun _ => .pure rfl
  · next value bounds => exact index_alike r value bounds
  · next place value =>
    refine .bind (f := id) (.ofExcept ?_) fun i => ?_
    · rw [Argument.machineInteger_rename, id_map]
    · simp only [Array.size_map, insertIdxIfInBounds_rename]
      exact .bind (.write r (.items _)) fun _ => .pure rfl
  · exact pop_alike r (-1)
  · next place =>
    refine .bind (f := id) (.ofExcept ?_) fun i => pop_alike r i
    rw [Argument.machineInteger_rename, id_map]
  · next value => exact .bind (remove_alike r value) fun _ => .pure rfl
  · simp only [List.map_nil, ← Array.map_reverse]
    exact .bind (.write r (.items _)) fun _ => .pure rfl
  · refine .get fun s' t' renamed' => ?_
    rw [Array.toList_map, Sorting.sort_rename renamed'.before]
    refine .bind (.write r (.items _)) fun _ => ?_
    cases (Sorting.sort s'.before (s.items r).toList).2 with
    | none => exact .pure rfl
    | some fault => exact .throw fault
  · rcases args with _ | ⟨first, _ | ⟨second, _ | ⟨third, rest⟩⟩⟩ <;> simp_all <;>
      exact .throw _

end Sequence

/-! ### Texts -/

theorem TextMethod.call_alike (receiver : Value) (text : Codes) (name : String)
    (args : List Value) :
    Alike σ margin (Value.rename σ) (call receiver text name args)
      (call (receiver.rename σ) text name (args.map (·.rename σ))) := by
  unfold call
  split
  · exact .bind (f := id) (.ofExcept (by simp)) fun count => .pure rfl
  · refine .bind (f := id) (.ofExcept (by simp)) fun found => ?_
    cases found with
    | none => exact .pure rfl
    | some place => exact .pure rfl
  · refine .bind (f := id) (.ofExcept (by simp)) fun found => ?_
    cases found with
    | none => exact .throw _
    | some place => exact .pure rfl
  · exact .pure rfl
  · next values =>
    exact .bind (Iteration.all_alike values) fun all =>
      .bind (f := id) (.ofExcept (by simp)) fun texts => .pure rfl
  · exact .pure rfl
  · exact .pure rfl
  · exact .bind (f := id) (.ofExcept (by simp)) fun text => .pure rfl
  · refine .bind (f := List.map (·.rename σ)) (.ofExcept (pieces_rename σ _ _ _))
      fun pieces => ?_
    rw [← List.map_toArray]
    exact .newList _
  · refine .bind (f := id) (.consult fun s t renamed => ?_) fun found => .pure rfl
    rw [renamed.begins, id_map]
  · exact .bind (f := id) (.ofExcept (by simp)) fun text => .pure rfl
  · rcases args with _ | ⟨first, _ | ⟨second, rest⟩⟩ <;> simp_all <;> exact .throw _

/-! ### Sums and new objects -/

namespace Host

theorem sum_alike (a b : Value) :
    Alike σ margin (Value.rename σ) (sum a b) (sum (a.rename σ) (b.rename σ)) := by
  have combined : Alike σ margin (Value.rename σ)
      (Action.ofResult (combine (· + ·) (· + ·) Double.add a b))
      (Action.ofResult (combine (· + ·) (· + ·) Double.add (a.rename σ) (b.rename σ))) :=
    .ofResult (combine_rename σ _ _ _ (Double.add_rename σ) a b)
  unfold sum
  simp only [Value.text?_rename]
  split
  · exact .pure rfl
  · cases a with
    | object kind r =>
      cases b with
      | object kind' r' =>
        cases kind with
        | list =>
          cases kind' with
          | list =>
            refine .get fun s t renamed => ?_
            simp only [renamed.items, ← Array.map_append]
            exact .newList _
          | _ => exact combined
        | tuple =>
          cases kind' with
          | tuple =>
            refine .get fun s t renamed => ?_
            simp only [renamed.items, isEmpty_rename, ← Array.map_append]
            split
            · exact .pure rfl
            · split
              · exact .pure rfl
              · exact .newTuple _
          | _ => exact combined
        | _ => exact combined
      | _ =>
        cases kind <;> exact combined
    | _ => exact combined

theorem heldText_alike (receiver : Value) :
    Alike σ margin (Value.rename σ) (heldText receiver) (heldText (receiver.rename σ)) := by
  refine .get fun s t renamed => ?_
  rw [renamed.member?]
  cases s.member? receiver "text" with
  | none => exact .throw _
  | some value => exact .pure rfl

theorem entryOf_alike (value : Value) :
    Alike σ margin (renamePair σ) (entryOf value) (entryOf (value.rename σ)) := by
  refine .bind (Iteration.all_alike value) fun values => ?_
  match values with
  | [] | [_] | _ :: _ :: _ :: _ => exact .throw _
  | [key, value] => exact .pure rfl

theorem putAll_alike (r : Ref) (values : List Value) :
    Alike σ margin id (putAll r values) (putAll (σ.ref r) (values.map (·.rename σ))) := by
  induction values with
  | nil => exact .pure rfl
  | cons value rest ih =>
    exact .bind (entryOf_alike value) fun entry =>
      .bind (Mapping.put_alike r entry.1 entry.2) fun _ => ih

theorem addAll_alike (r : Ref) (values : List Value) :
    Alike σ margin id (addAll r values) (addAll (σ.ref r) (values.map (·.rename σ))) := by
  induction values with
  | nil => exact .pure rfl
  | cons value rest ih => exact .bind (SetOf.add_alike r value) fun _ => ih

theorem newMap_alike (source : Option Value) :
    Alike σ margin (Value.rename σ) (newMap source) (newMap (source.map (·.rename σ))) := by
  have filled (source : Value) :
      Alike σ margin (Value.rename σ)
        (do
          let values ← Iteration.all source
          let added := (← get).add (.entries .empty)
          set added.2
          putAll added.1 values
          return .object .map added.1)
        (do
          let values ← Iteration.all (source.rename σ)
          let added := (← get).add (.entries .empty)
          set added.2
          putAll added.1 values
          return .object .map added.1) :=
    .bind (Iteration.all_alike source) fun values =>
      .add (g := Value.rename σ) (.entries .empty)
        (k := fun r => do
          putAll r values
          return .object .map r)
        (l := fun r => do
          putAll r (values.map (·.rename σ))
          return .object .map r)
        fun r => .bind (putAll_alike r values) fun _ => .pure rfl
  cases source with
  | none => exact .create .map (.entries .empty)
  | some source =>
    cases source with
    | object kind r =>
      cases kind with
      | map =>
        refine .get fun s t renamed => ?_
        simp only [renamed.entries, ← Table.rename_ofPairs]
        exact .create .map (.entries _)
      | _ => exact filled _
    | _ => exact filled _

theorem newSet_alike (source : Option Value) :
    Alike σ margin (Value.rename σ) (newSet source) (newSet (source.map (·.rename σ))) := by
  have filled (values : List Value) :
      Alike σ margin (Value.rename σ)
        (do
          let added := (← get).add (.elements [])
          set added.2
          addAll added.1 values
          return .object .set added.1)
        (do
          let added := (← get).add (.elements [])
          set added.2
          addAll added.1 (values.map (·.rename σ))
          return .object .set added.1) :=
    .add (g := Value.rename σ) (.elements [])
      (k := fun r => do
        addAll r values
        return .object .set r)
      (l := fun r => do
        addAll r (values.map (·.rename σ))
        return .object .set r)
      fun r => .bind (addAll_alike r values) fun _ => .pure rfl
  cases source with
  | none => exact .bind (f := List.map (·.rename σ)) (.pure rfl) filled
  | some source => exact .bind (Iteration.all_alike source) filled

theorem instantiate_alike (type : HostClass) (args : List Value) :
    Alike σ margin (Value.rename σ) (instantiate type args)
      (instantiate type (args.map (·.rename σ))) := by
  have empty : Alike σ margin (Value.rename σ) (Action.newList #[]) (Action.newList #[]) := by
    have created : Alike σ margin (Value.rename σ) _ _ := .newList #[]
    rwa [Array.map_empty] at created
  unfold instantiate
  split
  · exact empty
  · next source =>
    refine .bind (Iteration.all_alike source) fun values => ?_
    rw [← List.map_toArray]
    exact .newList _
  · exact newMap_alike none
  · next source => exact newMap_alike (some source)
  · exact newSet_alike none
  · next source => exact newSet_alike (some source)
  · next x y => exact .create (.record .point) (.record [("x", x), ("y", y)])
  · next text => exact .create (.record .label) (.record [("text", text)])
  · exact .create (.record .limits) (.record [])
  · exact .create (.record .math) (.record [])
  · exact .create (.record .number) (.record [])
  · rcases args with _ | ⟨first, _ | ⟨second, _ | ⟨third, rest⟩⟩⟩ <;> simp_all <;>
      exact .throw _

/-! ### Calling -/

theorem callFunction_alike (function : HostFunction) (args : List Value) :
    Alike σ margin (Value.rename σ) (callFunction function args)
      (callFunction function (args.map (·.rename σ))) := by
  unfold callFunction
  split
  · next f => exact .ofResult (MathFunction.apply_rename σ f args)
  · next value => exact .ofResult (combine_rename σ _ _ _ (Double.mul_rename σ) value value)
  · exact .pure rfl
  · exact .throw _
  · next value => exact sum_alike value value
  · next receiver =>
    refine .bind (heldText_alike receiver) fun text =>
      .bind (f := id) (.ofExcept ?_) fun text => .pure rfl
    rw [Argument.text_rename, id_map]
  · next receiver other =>
    exact .bind (heldText_alike receiver) fun text =>
      .bind (heldText_alike other) fun more =>
        .bind (sum_alike text more) fun joined => instantiate_alike .label [joined]
  · rcases args with _ | ⟨first, _ | ⟨second, rest⟩⟩ <;> simp_all <;> exact .throw _

theorem callIterator_alike (r : Ref) (name : String) (args : List Value) :
    Alike σ margin (Value.rename σ) (callIterator r name args)
      (callIterator (σ.ref r) name (args.map (·.rename σ))) := by
  unfold callIterator
  split
  · exact .bind (Iteration.hasNext_alike r) fun found => .pure rfl
  · refine .bind (Iteration.take?_alike r) fun value => ?_
    cases value with
    | none => exact .throw _
    | some value => exact .pure rfl
  · cases args <;> simp_all <;> exact .throw _

theorem callMethod_alike (receiver : Value) (name : String) (args : List Value) :
    Alike σ margin (Value.rename σ) (callMethod receiver name args)
      (callMethod (receiver.rename σ) name (args.map (·.rename σ))) := by
  have number : Alike σ margin (Value.rename σ)
      (Action.ofExcept (callNumber receiver name args))
      (Action.ofExcept (callNumber (receiver.rename σ) name (args.map (·.rename σ)))) :=
    .ofExcept (callNumber_rename σ receiver name args)
  cases receiver with
  | str codes => exact TextMethod.call_alike (.str codes) codes name args
  | char codes => exact TextMethod.call_alike (.char codes) codes name args
  | object kind r =>
    cases kind with
    | list | tuple => exact Sequence.call_alike r name args
    | map => exact Mapping.call_alike r name args
    | set => exact SetOf.call_alike r name args
    | iterator => exact callIterator_alike r name args
    | record type =>
      refine .get fun s t renamed => ?_
      rw [renamed.classMember?]
      cases s.classMember? type name with
      | none => exact .throw _
      | some value =>
        cases value with
        | hostFunction function =>
          exact callFunction_alike function (.object (.record type) r :: args)
        | _ => exact .throw _
    | _ => exact number
  | _ => exact number

theorem call_alike (callee : Value) (args : List Value) :
    Alike σ margin (Value.rename σ) (call callee args)
      (call (callee.rename σ) (args.map (·.rename σ))) := by
  cases callee with
  | hostClass type => exact instantiate_alike type args
  | hostFunction function => exact callFunction_alike function args
  | method receiver name => exact callMethod_alike receiver name args
  | _ => exact .throw _

end Host

/-- A value that may hold a way of its own to be shown. -/
theorem Display.ownText_alike (value : Value) :
    Alike σ margin id
      (do
        match (← get).member? value "toString" with
        | some method =>
          if method.isCallable then
            let result ← Host.call method []
            Action.consult fun store => store.plainText result
          else Action.consult fun store => store.plainText value
        | none => Action.consult fun store => store.plainText value)
      (do
        match (← get).member? (value.rename σ) "toString" with
        | some method =>
          if method.isCallable then
            let result ← Host.call method []
            Action.consult fun store => store.plainText result
          else Action.consult fun store => store.plainText (value.rename σ)
        | none => Action.consult fun store => store.plainText (value.rename σ)) := by
  have written (value : Value) : Alike σ margin id
      (Action.consult fun store => store.plainText value)
      (Action.consult fun store => store.plainText (value.rename σ)) :=
    .consult fun s t renamed => by rw [renamed.plainText, id_map]
  refine .get fun s t renamed => ?_
  rw [renamed.member?]
  cases s.member? value "toString" with
  | none => exact written value
  | some method =>
    simp only [Option.map_some, Value.isCallable_rename]
    split
    · exact .bind (Host.call_alike method []) written
    · exact written value

theorem Display.text_alike (value : Value) :
    Alike σ margin id (text value) (text (value.rename σ)) := by
  have own : Alike σ margin id _ _ := ownText_alike value
  cases value with
  | null | bool | char | str => exact .pure rfl
  | single x => exact .pure (by rw [writeSingle_rename]; rfl)
  | double x => exact .pure (by rw [Layout.write_rename]; rfl)
  | _ => exact own

end Formulary
