/-
Stores under a renaming.

`Store.Renamed` relates a store with another one that holds the renamed objects,
perhaps among others. What can be asked of a store is then answered alike: what an
object holds, how values compare, hash and are written, and which members they
have.
-/

import Formulary.Kind.Dispatch
import Formulary.Proofs.RenamedHosts

namespace Formulary

/-- The second store holds at renamed places what the first one holds, renamed. -/
structure Store.Renamed (σ : Renaming) (s t : Store) : Prop where
  entity : ∀ r, t.entity (σ.ref r) = (s.entity r).rename σ
  setting : ∀ holder name,
    t.setting? (holder.rename σ) name = (s.setting? holder name).map (·.rename σ)

/-- Every store can be renamed. -/
theorem Store.exists_renamed (σ : Renaming) (s : Store) : ∃ t, Renamed σ s t := by
  let place : Ref → Entity :=
    Function.extend σ.ref (fun r => (s.entity r).rename σ) fun _ => .bare
  let setting (entry : (Value × String) × Value) : (Value × String) × Value :=
    ((entry.1.1.rename σ, entry.1.2), entry.2.rename σ)
  refine ⟨⟨Array.ofFn fun i : Fin (σ.ref s.objects.size) => place i,
    s.settings.map setting, 0⟩, ?_, ?_⟩
  · intro r
    by_cases inside : r < s.objects.size
    · have moved : σ.ref r < σ.ref s.objects.size := (σ.ref_lt).mpr inside
      have placed : place (σ.ref r) = (s.entity r).rename σ :=
        σ.ref_strictMono.injective.extend_apply ..
      rw [← placed]
      simp [Store.entity, moved]
    · have moved : ¬σ.ref r < σ.ref s.objects.size := mt (σ.ref_lt).mp inside
      simp [Store.entity, moved, inside, Entity.rename]
  · intro holder name
    simp only [Store.setting?]
    induction s.settings with
    | nil => rfl
    | cons entry rest ih =>
      obtain ⟨⟨other, otherName⟩, value⟩ := entry
      have same : ((holder.rename σ, name) == (other.rename σ, otherName)) =
          ((holder, name) == (other, otherName)) := by
        rw [Bool.eq_iff_iff]
        simp
      simp only [List.map_cons, setting, List.lookup_cons, same, ih]
      split <;> rfl

variable {σ : Renaming}

/-! ### Elements of arrays -/

theorem insertIdxIfInBounds_rename (values : Array Value) (place : Nat) (value : Value) :
    (values.map (·.rename σ)).insertIdxIfInBounds place (value.rename σ) =
      (values.insertIdxIfInBounds place value).map (·.rename σ) := by
  simp only [Array.insertIdxIfInBounds, Array.size_map]
  split
  · apply Array.toList_inj.mp
    simp [Array.toList_insertIdx, List.map_insertIdx]
  · rfl

theorem eraseIdxIfInBounds_rename (values : Array Value) (place : Nat) :
    (values.map (·.rename σ)).eraseIdxIfInBounds place =
      (values.eraseIdxIfInBounds place).map (·.rename σ) := by
  simp only [Array.eraseIdxIfInBounds, Array.size_map]
  split
  · apply Array.toList_inj.mp
    simp [Array.toList_eraseIdx, List.eraseIdx_map]
  · rfl

@[simp]
theorem getD_rename (values : Array Value) (place : Nat) :
    (values.map (·.rename σ)).getD place .null = (values.getD place .null).rename σ := by
  simp only [Array.getD_eq_getD_getElem?, Array.getElem?_map]
  cases values[place]? <;> rfl

@[simp]
theorem isEmpty_rename (values : Array Value) :
    (values.map (·.rename σ)).isEmpty = values.isEmpty := by
  simp [Array.isEmpty]

/-! ### Searching with a renamed comparison -/

section Comparison

variable {same same' : Value → Value → Except Fault Bool}
  (agrees : ∀ a b : Value, same' (a.rename σ) (b.rename σ) = same a b)

include agrees

namespace Store

theorem agree_rename (xs ys : List Value) :
    agree same' (xs.map (·.rename σ)) (ys.map (·.rename σ)) = agree same xs ys := by
  induction xs generalizing ys with
  | nil => cases ys <;> rfl
  | cons x xs ih =>
    cases ys with
    | nil => rfl
    | cons y ys => simp [agree, agrees, ih]

theorem holds_rename (value : Value) (xs : List Value) :
    holds same' (value.rename σ) (xs.map (·.rename σ)) = holds same value xs := by
  induction xs with
  | nil => rfl
  | cons x xs ih => simp [holds, agrees, ih]

theorem valueAt?_rename (key : Value) (pairs : List (Value × Value)) :
    valueAt? same' (key.rename σ) (pairs.map (renamePair σ)) =
      Option.map (·.rename σ) <$> valueAt? same key pairs := by
  induction pairs with
  | nil => rfl
  | cons pair rest ih =>
    obtain ⟨other, value⟩ := pair
    simp only [List.map_cons, renamePair_mk, valueAt?, agrees, ih, map_bind]
    refine bind_congr fun found => ?_
    cases found <;> rfl

theorem within_rename (others xs : List Value) :
    within same' (others.map (·.rename σ)) (xs.map (·.rename σ)) =
      within same others xs := by
  induction xs with
  | nil => rfl
  | cons x xs ih => simp [within, holds_rename agrees, ih]

theorem entriesWithin_rename (others pairs : List (Value × Value)) :
    entriesWithin same' (others.map (renamePair σ)) (pairs.map (renamePair σ)) =
      entriesWithin same others pairs := by
  induction pairs with
  | nil => rfl
  | cons pair rest ih =>
    obtain ⟨key, value⟩ := pair
    simp only [List.map_cons, renamePair_mk, entriesWithin, valueAt?_rename agrees, ih,
      bind_map_left]
    refine bind_congr fun found => ?_
    cases found with
    | none => rfl
    | some other => simp [agrees]

theorem difference?_rename (xs ys : List Value) :
    difference? same' (xs.map (·.rename σ)) (ys.map (·.rename σ)) =
      Option.map (renamePair σ) <$> difference? same xs ys := by
  induction xs generalizing ys with
  | nil => cases ys <;> rfl
  | cons x xs ih =>
    cases ys with
    | nil => rfl
    | cons y ys =>
      simp only [List.map_cons, difference?, agrees, ih, map_bind]
      refine bind_congr fun equal => ?_
      cases equal <;> rfl

end Store

theorem Mapping.assigned_rename (key value : Value) (pairs : List (Value × Value)) :
    assigned same' (key.rename σ) (value.rename σ) (pairs.map (renamePair σ)) =
      List.map (renamePair σ) <$> assigned same key value pairs := by
  induction pairs with
  | nil => rfl
  | cons pair rest ih =>
    obtain ⟨other, old⟩ := pair
    simp only [List.map_cons, renamePair_mk, assigned, agrees, ih, map_bind, bind_map_left]
    refine bind_congr fun found => ?_
    cases found
    · simp
    · rfl

theorem Mapping.index?_rename (key : Value) (pairs : List (Value × Value)) :
    index? same' (key.rename σ) (pairs.map (renamePair σ)) = index? same key pairs := by
  induction pairs with
  | nil => rfl
  | cons pair rest ih =>
    obtain ⟨other, old⟩ := pair
    simp [index?, agrees, ih]

theorem SetOf.without_rename (element : Value) (xs : List Value) :
    without same' (element.rename σ) (xs.map (·.rename σ)) =
      List.map (·.rename σ) <$> without same element xs := by
  induction xs with
  | nil => rfl
  | cons x xs ih =>
    simp only [List.map_cons, without, agrees, ih, map_bind, bind_map_left]
    refine bind_congr fun found => ?_
    cases found
    · simp
    · rfl

namespace Sequence

theorem place?_rename (value : Value) (xs : List Value) :
    place? same' (value.rename σ) (xs.map (·.rename σ)) = place? same value xs := by
  induction xs with
  | nil => rfl
  | cons x xs ih => simp [place?, agrees, ih]

theorem occurrences_rename (value : Value) (xs : List Value) :
    occurrences same' (value.rename σ) (xs.map (·.rename σ)) =
      occurrences same value xs := by
  induction xs with
  | nil => rfl
  | cons x xs ih => simp [occurrences, agrees, ih]

end Sequence

namespace Sorting

theorem runLength_rename (falling : Bool) (last : Value) (xs : List Value) :
    runLength same' falling (last.rename σ) (xs.map (·.rename σ)) =
      runLength same falling last xs := by
  induction xs generalizing last with
  | nil => rfl
  | cons x xs ih => simp [runLength, agrees, ih]

theorem firstRun_rename (xs : List Value) :
    firstRun same' (xs.map (·.rename σ)) = firstRun same xs := by
  match xs with
  | [] | [_] => rfl
  | first :: second :: rest => simp [firstRun, agrees, runLength_rename agrees]

theorem placeAmong_rename (sorted : Array Value) (value : Value) (fuel low high : Nat) :
    placeAmong same' (sorted.map (·.rename σ)) (value.rename σ) fuel low high =
      placeAmong same sorted value fuel low high := by
  induction fuel generalizing low high with
  | zero => rfl
  | succ fuel ih => simp only [placeAmong, getD_rename, agrees, ih]

theorem insertAll_rename (sorted : Array Value) (xs : List Value) :
    insertAll same' (sorted.map (·.rename σ)) (xs.map (·.rename σ)) =
      ((insertAll same sorted xs).1.map (·.rename σ), (insertAll same sorted xs).2) := by
  induction xs generalizing sorted with
  | nil => rfl
  | cons x xs ih =>
    simp only [List.map_cons, insertAll, Array.size_map, placeAmong_rename agrees]
    cases placeAmong same sorted x sorted.size 0 sorted.size with
    | error fault => simp
    | ok place =>
      simp only [insertIdxIfInBounds_rename, ih]

theorem sort_rename (xs : List Value) :
    sort same' (xs.map (·.rename σ)) =
      ((sort same xs).1.map (·.rename σ), (sort same xs).2) := by
  simp only [sort, firstRun_rename agrees]
  cases firstRun same xs with
  | error fault => simp
  | ok run =>
    obtain ⟨length, falling⟩ := run
    have start : (if falling then ((xs.map (·.rename σ)).take length).reverse
          else (xs.map (·.rename σ)).take length).toArray =
        (if falling then (xs.take length).reverse else xs.take length).toArray.map
          (·.rename σ) := by
      cases falling <;> simp [List.map_take]
    simp only [start, ← List.map_drop, insertAll_rename agrees]

end Sorting

end Comparison

theorem Store.codesOfAll_rename {code code' : Value → Except Fault Int}
    (agrees : ∀ value : Value, code' (value.rename σ) = code value) (values : List Value) :
    Store.codesOfAll code' (values.map (·.rename σ)) = Store.codesOfAll code values := by
  induction values with
  | nil => rfl
  | cons value rest ih => simp [Store.codesOfAll, agrees, ih]

namespace Written

variable {write write' : Value → Except Fault Codes}
  (agrees : ∀ value : Value, write' (value.rename σ) = write value)

include agrees

theorem each_rename (values : List Value) :
    each write' (values.map (·.rename σ)) = each write values := by
  induction values with
  | nil => rfl
  | cons value rest ih => simp [each, agrees, ih]

theorem eachEntry_rename (pairs : List (Value × Value)) :
    eachEntry write' (pairs.map (renamePair σ)) = eachEntry write pairs := by
  induction pairs with
  | nil => rfl
  | cons pair rest ih =>
    obtain ⟨key, value⟩ := pair
    simp [eachEntry, agrees, ih]

end Written

/-! ### What a store holds -/

namespace Store.Renamed

variable {s t : Store} (renamed : Renamed σ s t)

include renamed

theorem items (r : Ref) : t.items (σ.ref r) = (s.items r).map (·.rename σ) := by
  simp only [Store.items, renamed.entity]
  cases s.entity r <;> simp [Entity.rename]

theorem table (r : Ref) : t.table (σ.ref r) = (s.table r).rename σ := by
  simp only [Store.table, renamed.entity]
  cases s.entity r <;> rfl

theorem entries (r : Ref) : t.entries (σ.ref r) = (s.entries r).map (renamePair σ) := by
  rw [Store.entries, renamed.table]
  rfl

theorem elements (r : Ref) : t.elements (σ.ref r) = (s.elements r).map (·.rename σ) := by
  simp only [Store.elements, renamed.entity]
  cases s.entity r <;> rfl

theorem viewed (r : Ref) : t.viewed (σ.ref r) = σ.ref (s.viewed r) := by
  simp only [Store.viewed, renamed.entity]
  cases s.entity r <;> rfl

theorem members (r : Ref) : t.members (σ.ref r) = (s.members r).map (renameMember σ) := by
  simp only [Store.members, renamed.entity]
  cases s.entity r <;> rfl

theorem keys (r : Ref) :
    (t.entries (σ.ref r)).map Prod.fst = ((s.entries r).map Prod.fst).map (·.rename σ) := by
  simp [renamed.entries, Function.comp_def, renamePair]

theorem elementsOfView (kind : ObjectKind) (r : Ref) :
    t.elementsOfView kind (σ.ref r) = (s.elementsOfView kind r).map (·.rename σ) := by
  cases kind with
  | keys => simp only [Store.elementsOfView, renamed.viewed, renamed.keys]
  | _ => exact renamed.elements r

theorem coordinates (r : Ref) :
    t.coordinates (σ.ref r) = (s.coordinates r).map (·.rename σ) := by
  have coordinate (name : String) :
      ((t.members (σ.ref r)).lookup name).getD .null =
        (((s.members r).lookup name).getD .null).rename σ := by
    rw [renamed.members, lookup_rename]
    cases (s.members r).lookup name <;> rfl
  simp only [Store.coordinates, coordinate, List.map_cons, List.map_nil]

theorem isTruthy (value : Value) : t.isTruthy (value.rename σ) = s.isTruthy value := by
  cases value with
  | object kind ref =>
    cases kind <;> simp [Store.isTruthy, renamed.items, renamed.entries, renamed.elements,
      renamed.viewed]
  | double x | single x => simp [Store.isTruthy]
  | _ => rfl

/-! ### Comparing values -/

theorem equalUpTo (fuel : Nat) (a b : Value) :
    Store.equalUpTo fuel t (a.rename σ) (b.rename σ) = Store.equalUpTo fuel s a b := by
  induction fuel generalizing a b with
  | zero => rfl
  | succ fuel ih =>
    have same (x y : Value) :
        (fun x y => if x = y then .ok true else Store.equalUpTo fuel t x y)
          (x.rename σ) (y.rename σ) =
        (fun x y => if x = y then .ok true else Store.equalUpTo fuel s x y) x y := by
      simp only [Value.rename_inj, ih]
    have plain : (.ok (decide (a.rename σ = b.rename σ)) : Except Fault Bool) =
        .ok (decide (a = b)) := by
      simp only [Value.rename_inj]
    unfold Store.equalUpTo
    simp only [Value.isQuantity_rename, Value.compareQuantities?_rename, Value.text?_rename]
    split
    · rfl
    · split
      · rfl
      · cases a with
        | object kind r =>
          cases b with
          | object kind' r' =>
            simp only [Value.rename, Renaming.ref_inj, renamed.elementsOfView, renamed.items,
              renamed.entries, renamed.coordinates, List.length_map, Array.toList_map]
            generalize (fun x y => if x = y then Except.ok true
              else Store.equalUpTo fuel t x y) = inner' at same ⊢
            generalize (fun x y => if x = y then Except.ok true
              else Store.equalUpTo fuel s x y) = inner at same ⊢
            simp only [Store.within_rename same, Store.agree_rename same,
              Store.entriesWithin_rename same]
          | _ => exact plain
        | _ => exact plain

theorem equal (a b : Value) : t.equal (a.rename σ) (b.rename σ) = s.equal a b :=
  renamed.equalUpTo _ a b

theorem same (a b : Value) : t.same (a.rename σ) (b.rename σ) = s.same a b := by
  simp only [Store.same, Value.rename_inj, renamed.equal]

/-- The order of two lists, by the first elements in which they differ. -/
theorem listsBefore {fuel : Nat}
    (ih : ∀ a b : Value,
      Store.beforeUpTo fuel t (a.rename σ) (b.rename σ) = Store.beforeUpTo fuel s a b)
    (xs ys : List Value) :
    (do
      match ← Store.difference? t.same (xs.map (·.rename σ)) (ys.map (·.rename σ)) with
      | some (x, y) => Store.beforeUpTo fuel t x y
      | none => return xs.length < ys.length) =
    (do
      match ← Store.difference? s.same xs ys with
      | some (x, y) => Store.beforeUpTo fuel s x y
      | none => return xs.length < ys.length) := by
  simp only [Store.difference?_rename renamed.same, bind_map_left]
  refine bind_congr fun found => ?_
  cases found with
  | none => rfl
  | some pair => exact ih pair.1 pair.2

theorem beforeUpTo (fuel : Nat) (a b : Value) :
    Store.beforeUpTo fuel t (a.rename σ) (b.rename σ) = Store.beforeUpTo fuel s a b := by
  induction fuel generalizing a b with
  | zero => rfl
  | succ fuel ih =>
    unfold Store.beforeUpTo
    simp only [Value.isQuantity_rename, Value.compareQuantities?_rename, Value.text?_rename]
    split
    · rfl
    · split
      · rfl
      · cases a with
        | object kind r =>
          cases b with
          | object kind' r' =>
            have lists := renamed.listsBefore ih (s.items r).toList (s.items r').toList
            simp only [Value.rename, renamed.elementsOfView, renamed.items, List.length_map,
              Array.toList_map, Store.within_rename renamed.same]
            split
            · rfl
            · cases kind <;> cases kind' <;> first | exact lists | rfl
          | _ => rfl
        | _ => rfl

theorem before (a b : Value) : t.before (a.rename σ) (b.rename σ) = s.before a b :=
  renamed.beforeUpTo _ a b

theorem equals (a b : Value) : t.equals (a.rename σ) (b.rename σ) = s.equals a b := by
  have general := renamed.equal a b
  cases a <;> cases b <;> first | rfl | exact general

/-! ### Hash codes -/

theorem hashUpTo (fuel : Nat) (value : Value) :
    Store.hashUpTo fuel t (value.rename σ) = Store.hashUpTo fuel s value := by
  induction fuel generalizing value with
  | zero => rfl
  | succ fuel ih =>
    cases value with
    | object kind r =>
      cases kind with
      | tuple =>
        simp only [Value.rename, Store.hashUpTo, renamed.items, Array.toList_map,
          Store.codesOfAll_rename ih]
      | record type => cases type <;> rfl
      | _ => rfl
    | double x | single x => simp [Store.hashUpTo, Hash.ofDouble]
    | _ => rfl

theorem hash (value : Value) : t.hash (value.rename σ) = s.hash value :=
  renamed.hashUpTo _ value

theorem checkKey (key : Value) : t.checkKey (key.rename σ) = s.checkKey key := by
  simp only [Store.checkKey, renamed.hash]

/-! ### Texts -/

theorem writeUpTo (fuel : Nat) (path : List Ref) (value : Value) :
    Written.writeUpTo fuel t (path.map σ.ref) (value.rename σ) =
      Written.writeUpTo fuel s path value := by
  induction fuel generalizing path value with
  | zero => rfl
  | succ fuel ih =>
    cases value with
    | object kind r =>
      have inside (value : Value) :
          Written.writeUpTo fuel t (σ.ref r :: path.map σ.ref) (value.rename σ) =
            Written.writeUpTo fuel s (r :: path) value :=
        ih (r :: path) value
      have met : (path.map σ.ref).contains (σ.ref r) = path.contains r := by
        simp
      simp only [Value.rename, Written.writeUpTo, met]
      split
      · rfl
      · cases kind with
        | record type =>
          cases type with
          | point => simp only [renamed.coordinates, Written.each_rename inside]
          | _ => rfl
        | iterator | bare => rfl
        | _ =>
          simp only [renamed.items, renamed.entries, renamed.elements, renamed.elementsOfView,
            Array.toList_map, Written.each_rename inside, Written.eachEntry_rename inside]
    | double x | single x => simp [Written.writeUpTo]
    | type type =>
      cases type with
      | boxed type =>
        let entries := type.constants.map fun entry =>
          (Value.str (codesOfString entry.1), entry.2)
        have constants : entries.map (renamePair σ) = entries := by
          have kept := Primitive.constants_rename σ type
          simp only [entries]
          rw [List.map_map]
          conv_rhs => rw [← kept, List.map_map]
          rfl
        have shown := Written.eachEntry_rename (ih path) entries
        rw [constants] at shown
        simp only [Value.rename, Written.writeUpTo]
        exact congrArg (· >>= _) shown
      | _ => rfl
    | method receiver name =>
      have typeName := Value.typeName_rename σ (.method receiver name)
      simp only [Value.rename] at typeName
      simp only [Value.rename, Written.writeUpTo, typeName]
    | _ => rfl

theorem written (value : Value) : t.written (value.rename σ) = s.written value :=
  renamed.writeUpTo _ [] value

theorem plainText (value : Value) : t.plainText (value.rename σ) = s.plainText value := by
  have general := renamed.written value
  cases value with
  | char codes | str codes | fraction q => rfl
  | _ => exact general

theorem alternatives (value : Value) :
    TextMethod.alternatives t (value.rename σ) = TextMethod.alternatives s value := by
  cases value with
  | object kind r =>
    cases kind <;> simp [TextMethod.alternatives, renamed.items, Argument.text, Value.text?]
  | _ => rfl

theorem begins (text : Codes) (args : List Value) :
    TextMethod.begins t text (args.map (·.rename σ)) = TextMethod.begins s text args := by
  cases args <;> simp [TextMethod.begins, renamed.alternatives]

theorem ends (text : Codes) (value : Value) :
    TextMethod.ends t text (value.rename σ) = TextMethod.ends s text value := by
  simp [TextMethod.ends, renamed.alternatives]

/-! ### Templates -/

theorem fill (directive : Directive) (value : Value) :
    Template.fill t directive (value.rename σ) = Template.fill s directive value := by
  unfold Template.fill
  split <;> simp [renamed.plainText, renamed.written, Template.toDouble_rename]

omit renamed in
theorem takeValue_rename (values : List Value) :
    Template.takeValue (values.map (·.rename σ)) =
      Prod.map (·.rename σ) (List.map (·.rename σ)) <$> Template.takeValue values := by
  cases values <;> rfl

omit renamed in
theorem takeStar_rename (limit : Int) (values : List Value) :
    Template.takeStar limit (values.map (·.rename σ)) =
      Prod.map id (List.map (·.rename σ)) <$> Template.takeStar limit values := by
  simp only [Template.takeStar, takeValue_rename, bind_map_left, map_bind, Prod.map,
    Argument.integer_rename]
  refine bind_congr fun taken => bind_congr fun i => ?_
  split <;> rfl

omit renamed in
theorem readWidth_rename (directive : Directive) (text : List Nat) (values : List Value) :
    Template.readWidth directive text (values.map (·.rename σ)) =
      Prod.map id (Prod.map id (List.map (·.rename σ))) <$>
        Template.readWidth directive text values := by
  unfold Template.readWidth
  split <;> simp [takeStar_rename, Prod.map]

omit renamed in
theorem readPrecision_rename (directive : Directive) (text : List Nat)
    (values : List Value) :
    Template.readPrecision directive text (values.map (·.rename σ)) =
      Prod.map id (Prod.map id (List.map (·.rename σ))) <$>
        Template.readPrecision directive text values := by
  unfold Template.readPrecision
  split <;> simp [takeStar_rename, Prod.map]

theorem directive (text : List Nat) (values : List Value) :
    Template.directive t text (values.map (·.rename σ)) =
      Prod.map id (Prod.map id (List.map (·.rename σ))) <$>
        Template.directive s text values := by
  unfold Template.directive
  split
  · rfl
  · rfl
  · simp only [readWidth_rename, readPrecision_rename, bind_map_left, map_bind, Prod.map, id]
    refine bind_congr fun width => bind_congr fun precision => ?_
    split
    · rfl
    · simp only [takeValue_rename, bind_map_left, map_bind, Prod.map, renamed.fill, map_pure,
        id]

theorem template (fuel : Nat) (text : List Nat) (values : List Value) :
    Template.writeUpTo fuel t text (values.map (·.rename σ)) =
      Template.writeUpTo fuel s text values := by
  induction fuel generalizing text values with
  | zero => cases text <;> cases values <;> rfl
  | succ fuel ih =>
    cases text with
    | nil => cases values <;> rfl
    | cons code rest =>
      simp only [Template.writeUpTo, renamed.directive, ih, bind_map_left, Prod.map, id]

/-! ### Iterations -/

theorem count (value : Value) : Cursor.count t (value.rename σ) = Cursor.count s value := by
  cases value with
  | object kind r =>
    cases kind <;> simp [Cursor.count, renamed.items, renamed.entries, renamed.elements,
      renamed.viewed]
  | _ => rfl

theorem element? (place : Nat) (value : Value) :
    Cursor.element? t place (value.rename σ) =
      (Cursor.element? s place value).map fun found => (found.1.rename σ, found.2) := by
  cases value with
  | object kind r =>
    cases kind <;> simp [Cursor.element?, renamed.items, renamed.table, renamed.elements,
      renamed.viewed, Table.keyFrom?_rename, Function.comp_def]
  | _ => simp [Cursor.element?, Function.comp_def]

theorem start? (value : Value) :
    Cursor.start? t (value.rename σ) = (Cursor.start? s value).map (·.rename σ) := by
  simp only [Cursor.start?, Cursor.isIterable_rename, renamed.count]
  split <;> rfl

theorem step (cursor : Cursor) :
    (cursor.rename σ).step t =
      (Option.map (·.rename σ) <$> (cursor.step s).1, (cursor.step s).2.rename σ) := by
  obtain ⟨source, place, passed, size, progress⟩ := cursor
  cases progress with
  | finished | broken => rfl
  | underWay =>
    simp only [Cursor.rename, Cursor.step, Cursor.isSized_rename, Cursor.hasKeys_rename,
      renamed.count, renamed.element?]
    split
    · rfl
    · cases Cursor.element? s place source with
      | none => rfl
      | some found =>
        simp only [Option.map_some]
        split <;> rfl

theorem size? (value : Value) : Method.size? t (value.rename σ) = Method.size? s value := by
  have counted := renamed.count value
  cases value with
  | object kind r =>
    cases kind with
    | iterator => rfl
    | _ => simp only [Value.rename] at counted; simp [Method.size?, counted, Cursor.isIterable]
  | str codes | char codes => rfl
  | _ => rfl

theorem elements? (value : Value) :
    Place.elements? t (value.rename σ) =
      (Place.elements? s value).map (Array.map (·.rename σ)) := by
  cases value with
  | object kind r => cases kind <;> simp [Place.elements?, renamed.items]
  | str codes | char codes => simp [Place.elements?, Function.comp_def]
  | _ => rfl

theorem chainLength (fuel : Nat) (r : Ref) :
    Iteration.chainLength t fuel (σ.ref r) = Iteration.chainLength s fuel r := by
  induction fuel generalizing r with
  | zero => rfl
  | succ fuel ih =>
    simp only [Iteration.chainLength, renamed.entity]
    cases s.entity r with
    | iterator cursor ahead =>
      obtain ⟨source, place, passed, size, progress⟩ := cursor
      have counted := renamed.count source
      simp only [Entity.rename, Cursor.rename]
      cases source with
      | object kind inner =>
        cases kind with
        | iterator => simp only [Value.rename, Renaming.ref_lt, ih]
        | _ => exact congrArg (· + 1) counted
      | _ => exact congrArg (· + 1) counted
    | _ => rfl

/-! ### Members -/

theorem classMember? (type : HostClass) (name : String) :
    t.classMember? type name = (s.classMember? type name).map (·.rename σ) := by
  have set := renamed.setting (.hostClass type) name
  rw [Value.rename] at set
  rw [Store.classMember?, Store.classMember?, set]
  cases s.setting? (.hostClass type) name with
  | none => exact (HostClass.member?_rename σ type name).symm
  | some value => rfl

theorem boundMember? (type : HostClass) (owner : Value) (name : String) :
    t.boundMember? type (owner.rename σ) name =
      (s.boundMember? type owner name).map (·.rename σ) := by
  have set := renamed.setting (.hostClass type) name
  have own := HostClass.member?_rename σ type name
  rw [Value.rename] at set
  unfold Store.boundMember?
  rw [set]
  cases s.setting? (.hostClass type) name with
  | some value => cases value <;> rfl
  | none =>
    simp only [Option.map_none]
    cases found : type.member? name with
    | none => rfl
    | some value =>
      rw [found] at own
      cases value with
      | hostFunction function => cases function <;> rfl
      | _ => exact own.symm

theorem member? (value : Value) (name : String) :
    t.member? (value.rename σ) name = (s.member? value name).map (·.rename σ) := by
  have set := renamed.setting value name
  have number := numberMember?_rename σ value name
  cases value with
  | object kind r =>
    cases kind with
    | record type =>
      have bound := renamed.boundMember? type (.object (.record type) r) name
      simp only [Value.rename] at bound
      simp only [Value.rename, Store.member?, renamed.members, lookup_rename, bound]
      cases (s.members r).lookup name <;> rfl
    | _ =>
      simp only [Value.rename] at set
      simp only [Value.rename, Store.member?, set]
      cases s.setting? _ name with
      | some value => rfl
      | none =>
        simp only [Option.map_none]
        split <;> rfl
  | hostClass type => exact renamed.classMember? type name
  | hostModule module =>
    simp only [Value.rename] at set
    simp only [Value.rename, Store.member?, set]
    cases s.setting? _ name with
    | some value => rfl
    | none => exact (HostModule.member?_rename σ module name).symm
  | hostFunction function => exact set
  | type type => exact set
  | str codes | char codes =>
    simp only [Value.rename, Store.member?]
    split <;> rfl
  | null | bool | int | long | double | single | fraction | method =>
    exact number

theorem getStatic (kind : Kind) (name : String) :
    (kind.rename σ).getStatic t name = Value.rename σ <$> kind.getStatic s name := by
  have member := renamed.member? kind.toValue name
  cases kind with
  | core type =>
    cases type with
    | boxed type =>
      have constant := Primitive.constant?_rename σ type name
      simp only [Kind.rename_core, Kind.getStatic]
      cases found : type.constant? name with
      | none => rfl
      | some value =>
        rw [found, Option.map_some, Option.some_inj] at constant
        exact congrArg Except.ok constant.symm
    | _ => rfl
  | number | host =>
    rw [← Kind.toValue_rename] at member
    simp only [Kind.rename_number, Kind.rename_host] at member
    simp only [Kind.rename_number, Kind.rename_host, Kind.getStatic, member]
    cases s.member? _ name <;> rfl

theorem override? (kind : Kind) (operation : KindOperation) :
    (kind.rename σ).override? t operation =
      (kind.override? s operation).map (·.rename σ) := by
  have set := renamed.setting kind.toValue operation.name
  have isOpen : (kind.rename σ).isOpen = kind.isOpen := by
    cases kind <;> rfl
  simp only [Kind.override?, isOpen, Kind.toValue_rename, set]
  split <;> rfl

end Store.Renamed

end Formulary
