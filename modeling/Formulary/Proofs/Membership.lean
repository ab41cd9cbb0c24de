/-
Membership and the equality of the method.

Containers look for a value with an equality of their own. It differs from the one of the method
`equals` on two kinds of pairs only: a truth value and a number of its size, and a result that is
no number with itself. Outside these, `contains` and `indexOf` tell the same about a list or a
tuple, and a map answers about the keys that equal the one that has been put as after an update.

* `Value.Confused` — the pairs that containers take for the same and the method does not.
* `Store.same_of_confused`, `Store.equals_of_confused`, `Store.same_eq_equals` — the two equalities.
* `Sequence.place?_eq_some`, `Sequence.holds_eq_place?` — the first place of a value.
* `Mapping.lookup_renewed_alike`, `Mapping.lookup_renewed_apart` — a lookup behind an update.
* `Method.elementsAnswer`, `Method.keysAnswer`, `Method.membership_agrees` — what the methods answer.
-/

import Formulary.Proofs.Iterators
import Formulary.Proofs.KeyEquality

namespace Formulary

/-! ### The two equalities -/

/-- Two values that containers take for the same and the method `equals` does not: the very same
result that is no number, or a truth value and a number of its size. -/
def Value.Confused (a b : Value) : Prop :=
  (a = b ∧ ∃ mark, a.extreme? = some (.nan mark)) ∨
    (a.isTruth ≠ b.isTruth ∧ a.compareQuantities? b = some .eq)

namespace Value

variable {a b : Value}

/-- One of two values is a truth value, so one of them is a quantity. -/
theorem isQuantity_of_mixed (mixed : a.isTruth ≠ b.isTruth) :
    a.isQuantity = true ∨ b.isQuantity = true := by
  have truth {v : Value} (truth : v.isTruth = true) : v.isQuantity = true := by
    cases v <;> first | rfl | cases truth
  cases left : a.isTruth with
  | true => exact .inl (truth left)
  | false =>
    rw [left] at mixed
    exact .inr (truth (Bool.eq_true_of_not_eq_false mixed.symm))

end Value

namespace Store

variable {store : Store} {a b : Value} {fuel : Nat}

/-- A value equals itself, unless it is a result that is no number. -/
theorem equalUpTo_self (number : ∀ mark, a.extreme? ≠ some (.nan mark)) :
    equalUpTo (fuel + 1) store a a = .ok true := by
  cases quantity : a.isQuantity with
  | true =>
    have sized : a.face ≠ .itself a := fun itself => by
      cases exact : a.exactValue? with
      | some q => cases (Value.face_of_exact exact).symm.trans itself
      | none =>
        obtain ⟨mark, extreme, -⟩ | ⟨negative, -, face⟩ := Value.extreme?_cases quantity exact
        · exact number mark extreme
        · cases face.symm.trans itself
    rw [equalUpTo_quantities quantity quantity,
      (Value.compareQuantities?_eq_iff quantity quantity).mpr ⟨rfl, sized⟩]
    rfl
  | false =>
    unfold equalUpTo
    rw [if_neg (by simp [quantity])]
    split
    · next s t left right =>
      obtain rfl := Option.some.inj (left.symm.trans right)
      simp
    · split
      · simp
      · simp

/-- The method keeps truth values apart from everything else. -/
theorem equals_of_mixed (mixed : a.isTruth ≠ b.isTruth) : store.equals a b = .ok false := by
  unfold equals
  split
  · exact absurd rfl mixed
  · rfl
  · rfl
  · next left right _ =>
    have other {v : Value} (noTruth : ∀ x, v = .bool x → False) : v.isTruth = false := by
      cases v <;> first | rfl | exact (noTruth _ rfl).elim
    exact absurd ((other left).trans (other right).symm) mixed

theorem equals_of_alike (alike : a.isTruth = b.isTruth) :
    store.equals a b = store.equal a b := by
  unfold equals
  split
  · next x y =>
    cases x <;> cases y <;> simp [equal, nestingLimit, equalUpTo, Value.isQuantity,
      Value.compareQuantities?, Value.exactValue?]
  · next noTruth => cases b <;> first | exact (noTruth _ rfl).elim | cases alike
  · next noTruth => cases a <;> first | exact (noTruth _ rfl).elim | cases alike
  · rfl

/-- Containers take confused values for the same. -/
theorem same_of_confused (confused : a.Confused b) : store.same a b = .ok true := by
  obtain ⟨rfl, -⟩ | ⟨mixed, compares⟩ := confused
  · exact sameUpTo_self ..
  · have different : a ≠ b := fun one => mixed (congrArg _ one)
    obtain ⟨quantity, -⟩ := Value.isQuantity_of_compare compares
    have same := (Value.compareQuantities?_eq_iff_of_ne different quantity).mp compares
    rw [same_eq_upTo, nestingLimit, sameUpTo_plain (.inl (Value.plain_of_isQuantity quantity)),
      decide_eq_true same]

/-- The method tells confused values apart. -/
theorem equals_of_confused (confused : a.Confused b) : store.equals a b = .ok false := by
  obtain ⟨rfl, mark, extreme⟩ | ⟨mixed, -⟩ := confused
  · cases a with
    | double x | single x =>
      obtain rfl : x = .nan mark := Option.some.inj extreme
      rfl
    | _ => cases extreme
  · exact equals_of_mixed mixed

/-- Outside these pairs the two equalities are one. -/
theorem same_eq_equals (clear : ¬a.Confused b) : store.same a b = store.equals a b := by
  by_cases one : a = b
  · subst one
    rw [equals_of_alike rfl, same_eq_upTo, sameUpTo_self, equal, nestingLimit, equalUpTo_self]
    exact fun mark extreme => clear (.inl ⟨rfl, mark, extreme⟩)
  · by_cases alike : a.isTruth = b.isTruth
    · rw [equals_of_alike alike, same, if_neg one]
    · have quantity := Value.isQuantity_of_mixed alike
      have different : a.face ≠ b.face := fun face => by
        obtain one' | ⟨left, right⟩ | ⟨codes, left, right⟩ := Value.kind_of_face face
        · exact one one'
        · exact clear (.inr ⟨alike, (Value.compareQuantities?_eq_iff_of_ne one left).mpr face⟩)
        · obtain quantity | quantity := quantity
          · cases (Value.text?_of_isQuantity quantity).symm.trans left
          · cases (Value.text?_of_isQuantity quantity).symm.trans right
      have plain := quantity.imp Value.plain_of_isQuantity Value.plain_of_isQuantity
      rw [equals_of_mixed alike, same_eq_upTo, nestingLimit, sameUpTo_plain plain,
        decide_eq_false different]

end Store

/-! ### Lists and tuples -/

namespace Sequence

variable {same same' : Value → Value → Except Fault Bool} {value : Value} {values : List Value}

/-- Whether a place is that of the first element that is the same as a value. -/
structure IsFirst (same : Value → Value → Except Fault Bool) (value : Value)
    (values : List Value) (place : Nat) : Prop where
  /-- The element there is the same. -/
  found : ∃ element, values[place]? = some element ∧ same element value = .ok true
  /-- The elements before it are not. -/
  before : ∀ element ∈ values.take place, same element value = .ok false

theorem isFirst_zero {first : Value} {rest : List Value} :
    IsFirst same value (first :: rest) 0 ↔ same first value = .ok true :=
  ⟨fun ⟨⟨_, here, found⟩, _⟩ => Option.some.inj here ▸ found,
    fun found => ⟨⟨first, rfl, found⟩, fun _ mem => nomatch mem⟩⟩

theorem isFirst_succ {first : Value} {rest : List Value} {place : Nat} :
    IsFirst same value (first :: rest) (place + 1) ↔
      same first value = .ok false ∧ IsFirst same value rest place :=
  ⟨fun ⟨found, before⟩ =>
      ⟨before first (by simp), found, fun element mem => before element (by simp [mem])⟩,
    fun ⟨here, found, before⟩ => ⟨found, by simpa using ⟨here, before⟩⟩⟩

/-- The place of a value is that of the first element, or one behind its place in the rest. -/
theorem place?_cons {first : Value} {rest : List Value} {found : Option Nat} :
    place? same value (first :: rest) = .ok found ↔
      (same first value = .ok true ∧ found = some 0) ∨
        (same first value = .ok false ∧
          ∃ behind, place? same value rest = .ok behind ∧ found = behind.map (· + 1)) := by
  rw [place?]
  rcases same first value with fault | _ | _
  · simp [bind, Except.bind]
  · rcases place? same value rest with fault | behind <;>
      simp [bind, Except.bind, pure, Except.pure, eq_comm]
  · simp [bind, Except.bind, pure, Except.pure, eq_comm]

/-- The place that is looked for is the first one. -/
theorem place?_eq_some {place : Nat} :
    place? same value values = .ok (some place) ↔ IsFirst same value values place := by
  induction values generalizing place with
  | nil => exact ⟨fun ended => (nomatch ended), fun ⟨⟨_, absent, _⟩, _⟩ => nomatch absent⟩
  | cons first rest ih =>
    rw [place?_cons]
    cases place with
    | zero =>
      rw [isFirst_zero]
      simp [eq_comm]
    | succ place =>
      rw [isFirst_succ, ← ih]
      simp [eq_comm]

theorem place?_eq_none :
    place? same value values = .ok none ↔ ∀ element ∈ values, same element value = .ok false := by
  induction values with
  | nil => simp [place?]
  | cons first rest ih =>
    rw [place?_cons, List.forall_mem_cons, ← ih]
    simp [eq_comm]

/-- A value is held when it has a place. -/
theorem holds_eq_place? :
    Store.holds same value values = Option.isSome <$> place? same value values := by
  induction values with
  | nil => rfl
  | cons first rest ih =>
    rw [place?, Store.holds, ih]
    rcases same first value with fault | _ | _
    · rfl
    · cases place? same value rest with
      | error fault => rfl
      | ok place => cases place <;> rfl
    · rfl

theorem holds_eq_true :
    Store.holds same value values = .ok true ↔
      ∃ place, place? same value values = .ok (some place) := by
  rw [holds_eq_place?]
  rcases place? same value values with fault | _ | place <;> simp [Functor.map, Except.map]

theorem holds_eq_false :
    Store.holds same value values = .ok false ↔ place? same value values = .ok none := by
  rw [holds_eq_place?]
  rcases place? same value values with fault | _ | place <;> simp [Functor.map, Except.map]

theorem holds_congr (alike : ∀ element ∈ values, same element value = same' element value) :
    Store.holds same value values = Store.holds same' value values := by
  induction values with
  | nil => rfl
  | cons first rest ih =>
    obtain ⟨here, others⟩ := List.forall_mem_cons.mp alike
    rw [Store.holds, Store.holds, here, ih others]

end Sequence

/-! ### Maps -/

namespace Mapping

section Pairs

variable {same : Value → Value → Except Fault Bool} {key other value : Value}
  {pairs pairs' : List (Value × Value)}

/-- The update of a list of entries: of the first one, or of the rest. -/
theorem assigned_cons {first : Value × Value} :
    assigned same key value (first :: pairs) = .ok pairs' ↔
      (same first.1 key = .ok true ∧ pairs' = (first.1, value) :: pairs) ∨
        (same first.1 key = .ok false ∧
          ∃ behind, assigned same key value pairs = .ok behind ∧ pairs' = first :: behind) := by
  rw [assigned]
  rcases same first.1 key with fault | _ | _
  · simp [bind, Except.bind]
  · rcases assigned same key value pairs with fault | behind <;>
      simp [bind, Except.bind, pure, Except.pure, eq_comm]
  · simp [bind, Except.bind, pure, Except.pure, eq_comm]

theorem assigned_ok (decides : ∀ first, ∃ found, same first key = .ok found) (value : Value)
    (pairs : List (Value × Value)) : ∃ pairs', assigned same key value pairs = .ok pairs' := by
  induction pairs with
  | nil => exact ⟨_, rfl⟩
  | cons first rest ih =>
    obtain ⟨behind, ended⟩ := ih
    obtain ⟨_ | _, here⟩ := decides first.1
    · exact ⟨_, assigned_cons.mpr (.inr ⟨here, behind, ended, rfl⟩)⟩
    · exact ⟨_, assigned_cons.mpr (.inl ⟨here, rfl⟩)⟩

theorem valueAt?_ok (decides : ∀ first, ∃ found, same first key = .ok found)
    (pairs : List (Value × Value)) : ∃ found, Store.valueAt? same key pairs = .ok found := by
  induction pairs with
  | nil => exact ⟨_, rfl⟩
  | cons first rest ih =>
    obtain ⟨_ | _, here⟩ := decides first.1
    · rw [Store.valueAt?, here]
      exact ih
    · rw [Store.valueAt?, here]
      exact ⟨_, rfl⟩

theorem valueAt?_congr {same' : Value → Value → Except Fault Bool}
    (alike : ∀ first, same' first key = same first key) (pairs : List (Value × Value)) :
    Store.valueAt? same' key pairs = Store.valueAt? same key pairs := by
  induction pairs with
  | nil => rfl
  | cons first rest ih => rw [Store.valueAt?, Store.valueAt?, alike, ih]

/-- After an update there is the new value under what is the same as the key. -/
theorem valueAt?_assigned_alike (itself : same key key = .ok true)
    (alike : ∀ first, same first other = same first key)
    (updates : assigned same key value pairs = .ok pairs') :
    Store.valueAt? same other pairs' = .ok (some value) := by
  induction pairs generalizing pairs' with
  | nil =>
    cases updates
    rw [Store.valueAt?, alike, itself]
    rfl
  | cons first rest ih =>
    obtain ⟨here, rfl⟩ | ⟨here, behind, ended, rfl⟩ := assigned_cons.mp updates
    · rw [Store.valueAt?, alike, here]
      rfl
    · rw [Store.valueAt?, alike, here]
      exact ih ended

/-- After an update there is the old value under what is not the same as the key. -/
theorem valueAt?_assigned_apart (apart : same key other = .ok false)
    (alike : ∀ first, same first key = .ok true → same first other = same key other)
    (updates : assigned same key value pairs = .ok pairs') :
    Store.valueAt? same other pairs' = Store.valueAt? same other pairs := by
  induction pairs generalizing pairs' with
  | nil =>
    cases updates
    rw [Store.valueAt?, Store.valueAt?, apart]
    rfl
  | cons first rest ih =>
    obtain ⟨here, rfl⟩ | ⟨here, behind, ended, rfl⟩ := assigned_cons.mp updates
    · rw [Store.valueAt?, Store.valueAt?, alike _ here, apart]
      rfl
    · rw [Store.valueAt?, Store.valueAt?, ih ended]

end Pairs

section Update

variable {store : Store} {ref : Ref} {table : Table} {key other value : Value}
  {pairs : List (Value × Value)}

/-- What is under a key of a map, as a store tells. -/
def lookup (store : Store) (ref : Ref) (key : Value) : Except Fault (Option Value) := do
  store.checkKey key
  Store.valueAt? store.same key (store.entries ref)

theorem lookup_key (isKey : store.checkKey key = .ok ()) :
    lookup store ref key = Store.valueAt? store.same key (store.entries ref) := by
  rw [lookup, isKey]
  rfl

theorem lookup_noKey {fault : Fault} (noKey : store.checkKey key = .error fault) :
    lookup store ref key = .error fault := by
  rw [lookup, noKey]
  rfl

/-- The store in which the entries of a map have become others. -/
def renewed (store : Store) (ref : Ref) (pairs : List (Value × Value)) : Store :=
  store.update ref (.entries ((store.table ref).update pairs))

theorem entity_renewed (isMap : store.entity ref = .entries table)
    (pairs : List (Value × Value)) (r : Ref) :
    (renewed store ref pairs).entity r =
      if r = ref then .entries (table.update pairs) else store.entity r := by
  have inside : ref < store.objects.size := by
    by_contra outside
    rw [Store.entity, Array.getD, dif_neg outside] at isMap
    cases isMap
  rw [renewed, Store.entity_update, Store.table, isMap]
  simp [inside]

theorem items_renewed (isMap : store.entity ref = .entries table)
    (pairs : List (Value × Value)) (r : Ref) :
    (renewed store ref pairs).items r = store.items r := by
  rw [Store.items, Store.items, entity_renewed isMap]
  by_cases same : r = ref
  · rw [if_pos same, same, isMap]
  · rw [if_neg same]

theorem entries_renewed (isMap : store.entity ref = .entries table)
    (pairs : List (Value × Value)) : (renewed store ref pairs).entries ref = pairs := by
  have kept : (table.update pairs).pairs = pairs := by
    unfold Table.update
    split <;> rfl
  rw [Store.entries, Store.table, entity_renewed isMap, if_pos rfl]
  exact kept

theorem lookup_renewed (isMap : store.entity ref = .entries table)
    (isKey : store.checkKey other = .ok ()) (pairs : List (Value × Value)) :
    lookup (renewed store ref pairs) ref other = Store.valueAt? store.same other pairs := by
  have items := items_renewed isMap pairs
  have isKey' : (renewed store ref pairs).checkKey other = .ok () := by
    rw [Store.checkKey_of_items items, isKey]
  rw [lookup_key isKey', entries_renewed isMap]
  exact valueAt?_congr (fun first => (Store.checkKey_iff.mp isKey).of_items items first) pairs

/-- **A lookup behind an update:** there is the new value under what is the same as the key. -/
theorem lookup_renewed_alike (isMap : store.entity ref = .entries table)
    (isKey : store.checkKey key = .ok ()) (alike : store.same key other = .ok true)
    (updates : assigned store.same key value (store.entries ref) = .ok pairs) :
    lookup (renewed store ref pairs) ref other = .ok (some value) := by
  have keys := Store.checkKey_iff.mp isKey
  have back : store.same other key = .ok true := (keys.comm other).trans alike
  have others := keys.of_same back
  rw [lookup_renewed isMap (Store.checkKey_iff.mpr others)]
  refine valueAt?_assigned_alike (Store.sameUpTo_self ..) (fun first => ?_) updates
  calc store.same first other
      = store.same other first := others.comm first
    _ = store.same key first := keys.congr back first
    _ = store.same first key := (keys.comm first).symm

/-- **A lookup behind an update:** under any other key it finds what it has found before. -/
theorem lookup_renewed_apart (isMap : store.entity ref = .entries table)
    (isKey : store.checkKey key = .ok ()) (apart : store.same key other = .ok false)
    (updates : assigned store.same key value (store.entries ref) = .ok pairs) :
    lookup (renewed store ref pairs) ref other = lookup store ref other := by
  rcases isKey' : store.checkKey other with fault | ⟨⟩
  · have noKey : (renewed store ref pairs).checkKey other = .error fault := by
      rw [Store.checkKey_of_items (items_renewed isMap pairs), isKey']
    rw [lookup_noKey noKey, lookup_noKey isKey']
  · have keys := Store.checkKey_iff.mp isKey
    have alike (first : Value) (back : store.same first key = .ok true) :
        store.same first other = store.same key other := keys.congr back other
    rw [lookup_renewed isMap isKey', lookup_key isKey']
    exact valueAt?_assigned_apart apart alike updates

end Update

end Mapping

/-! ### The methods -/

namespace Method

variable {store : Store} {kind : ObjectKind} {ref : Ref}

theorem outcome_placeOf (sequence : kind = .list ∨ kind = .tuple) (value : Value) :
    (placeOf (.object kind ref) value).outcome store =
      ((fun found => found.elim (-1) Int.ofNat) <$>
        Sequence.place? store.equals value (store.items ref).toList, store) := by
  obtain rfl | rfl := sequence
  all_goals
    change Action.outcome (Action.consult _ >>= _) store = _
    rw [Action.outcome_bind, Action.outcome_consult]
    rcases Sequence.place? store.equals value (store.items ref).toList with fault | _ | place
    all_goals rfl

theorem outcome_contains (sequence : kind = .list ∨ kind = .tuple) (value : Value) :
    (contains (.object kind ref) value).outcome store =
      (Store.holds store.same value (store.items ref).toList, store) := by
  obtain rfl | rfl := sequence <;> exact Action.outcome_consult ..

theorem outcome_find? (key : Value) :
    (Mapping.find? ref key).outcome store = (Mapping.lookup store ref key, store) := by
  unfold Mapping.find? Mapping.lookup
  rw [Action.outcome_bind, Action.outcome_consult]
  rcases store.checkKey key with fault | ⟨⟩
  · rfl
  · exact Action.outcome_consult ..

/-- What `indexOf` answers: the first place, or -1. -/
theorem invoke_indexOf (sequence : kind = .list ∨ kind = .tuple)
    (unset : ∀ name, store.setting? (.object kind ref) name = none) (value : Value) :
    (invoke (.object kind ref) "indexOf" [value]).outcome store =
      ((fun found => .int (found.elim (-1) Int.ofNat)) <$>
        Sequence.place? store.equals value (store.items ref).toList, store) := by
  have asks : (invoke (.object kind ref) "indexOf" [value]).outcome store =
      Action.outcome (do return .int (← placeOf (.object kind ref) value)) store := by
    obtain rfl | rfl := sequence <;> exact invoke_builtin (by rintro _ ⟨⟩) unset rfl rfl
  rw [asks, Action.outcome_bind, outcome_placeOf sequence]
  rcases Sequence.place? store.equals value (store.items ref).toList with fault | place <;> rfl

/-- What `contains` answers. -/
theorem invoke_contains (sequence : kind = .list ∨ kind = .tuple)
    (unset : ∀ name, store.setting? (.object kind ref) name = none) (value : Value) :
    (invoke (.object kind ref) "contains" [value]).outcome store =
      (.bool <$> Store.holds store.same value (store.items ref).toList, store) := by
  have asks : (invoke (.object kind ref) "contains" [value]).outcome store =
      Action.outcome (do return .bool (← contains (.object kind ref) value)) store := by
    obtain rfl | rfl := sequence <;> exact invoke_builtin (by rintro _ ⟨⟩) unset rfl rfl
  rw [asks, Action.outcome_bind, outcome_contains sequence]
  rcases Store.holds store.same value (store.items ref).toList with fault | found <;> rfl

/-- What `containsKey` answers. -/
theorem invoke_containsKey (unset : ∀ name, store.setting? (.object .map ref) name = none)
    (key : Value) :
    (invoke (.object .map ref) "containsKey" [key]).outcome store =
      ((fun found => .bool found.isSome) <$> Mapping.lookup store ref key, store) := by
  have asks : (invoke (.object .map ref) "containsKey" [key]).outcome store =
      Action.outcome (do return .bool (← Mapping.find? ref key).isSome) store :=
    invoke_builtin (by rintro _ ⟨⟩) unset rfl rfl
  rw [asks, Action.outcome_bind, outcome_find?]
  rcases Mapping.lookup store ref key with fault | found <;> rfl

/-- What `getOrDefault` answers. -/
theorem invoke_getOrDefault (unset : ∀ name, store.setting? (.object .map ref) name = none)
    (key otherwise : Value) :
    (invoke (.object .map ref) "getOrDefault" [key, otherwise]).outcome store =
      ((fun found => found.getD otherwise) <$> Mapping.lookup store ref key, store) := by
  have asks : (invoke (.object .map ref) "getOrDefault" [key, otherwise]).outcome store =
      Action.outcome (do return (← Mapping.find? ref key).getD otherwise) store :=
    invoke_builtin (by rintro _ ⟨⟩) unset rfl rfl
  rw [asks, Action.outcome_bind, outcome_find?]
  rcases Mapping.lookup store ref key with fault | found <;> rfl

/-- What `put` leaves: a value that can be a key is always taken. -/
theorem invoke_put (unset : ∀ name, store.setting? (.object .map ref) name = none)
    {key : Value} (isKey : store.checkKey key = .ok ()) (value : Value) :
    ∃ previous pairs,
      Mapping.assigned store.same key value (store.entries ref) = .ok pairs ∧
        (invoke (.object .map ref) "put" [key, value]).outcome store =
          (.ok previous, Mapping.renewed store ref pairs) := by
  have decides (first : Value) : ∃ found, store.same first key = .ok found :=
    (Store.checkKey_iff.mp isKey).decides first
  obtain ⟨found, looked⟩ := Mapping.valueAt?_ok decides (store.entries ref)
  obtain ⟨pairs, updates⟩ := Mapping.assigned_ok decides value (store.entries ref)
  have puts : (Mapping.put ref key value).outcome store =
      (.ok (), Mapping.renewed store ref pairs) := by
    unfold Mapping.put
    rw [Action.outcome_bind, Action.outcome_consult, isKey]
    dsimp only
    rw [Action.outcome_bind, Action.outcome_consult, updates]
    rfl
  have asks : (invoke (.object .map ref) "put" [key, value]).outcome store =
      Action.outcome (do
        let previous ← Mapping.find? ref key
        Mapping.put ref key value
        return previous.getD .null) store :=
    invoke_builtin (by rintro _ ⟨⟩) unset rfl rfl
  refine ⟨found.getD .null, pairs, updates, ?_⟩
  rw [asks, Action.outcome_bind, outcome_find?, Mapping.lookup_key isKey, looked]
  dsimp only
  rw [Action.outcome_bind, puts]
  rfl

/-- A method answers with a value and leaves the store as it is. -/
def Answers (store : Store) (receiver : Value) (name : String) (args : List Value)
    (answer : Value) : Prop :=
  (invoke receiver name args).outcome store = (.ok answer, store)

/-- How `contains` and `indexOf` answer about the elements of a list or a tuple. -/
structure ElementsAnswer (store : Store) (receiver : Value) (elements : List Value)
    (value : Value) : Prop where
  /-- A place that is not below zero is that of the first element that equals the value. -/
  place : ∀ place : Nat, Answers store receiver "indexOf" [value] (.int place) ↔
    Sequence.IsFirst store.equals value elements place
  /-- The place is -1 where no element equals the value. -/
  noPlace : Answers store receiver "indexOf" [value] (.int (-1)) ↔
    ∀ element ∈ elements, store.equals element value = .ok false
  /-- A value that is confused with no element is contained where it has a place. -/
  contained : (∀ element ∈ elements, ¬element.Confused value) →
    (Answers store receiver "contains" [value] (.bool true) ↔
      ∃ place : Nat, Answers store receiver "indexOf" [value] (.int place))
  notContained : (∀ element ∈ elements, ¬element.Confused value) →
    (Answers store receiver "contains" [value] (.bool false) ↔
      Answers store receiver "indexOf" [value] (.int (-1)))
  /-- A value that is confused with an element is never said to be missing. -/
  confused : (∃ element ∈ elements, element.Confused value) →
    ¬Answers store receiver "contains" [value] (.bool false)

/-- How a map answers about a key behind the update of another one. -/
structure KeysAnswer (before behind : Store) (receiver key value other : Value) : Prop where
  /-- What equals the key that has been put, or is confused with it, leads to the value. -/
  alike : before.equals key other = .ok true ∨ key.Confused other →
    Answers behind receiver "containsKey" [other] (.bool true) ∧
      ∀ otherwise, Answers behind receiver "getOrDefault" [other, otherwise] value
  /-- About any other key the map answers as before, with a failure if it has been one. -/
  apart : before.equals key other = .ok false → ¬key.Confused other →
    (invoke receiver "containsKey" [other]).outcome behind =
        (((invoke receiver "containsKey" [other]).outcome before).1, behind) ∧
      ∀ otherwise, (invoke receiver "getOrDefault" [other, otherwise]).outcome behind =
        (((invoke receiver "getOrDefault" [other, otherwise]).outcome before).1, behind)

theorem elementsAnswer (sequence : kind = .list ∨ kind = .tuple)
    (unset : ∀ name, store.setting? (.object kind ref) name = none) (value : Value) :
    ElementsAnswer store (.object kind ref) (store.items ref).toList value := by
  have place (place : Nat) :
      Answers store (.object kind ref) "indexOf" [value] (.int place) ↔
        Sequence.place? store.equals value (store.items ref).toList = .ok (some place) := by
    rw [Answers, invoke_indexOf sequence unset]
    rcases Sequence.place? store.equals value (store.items ref).toList with fault | _ | found <;>
      simp [Functor.map, Except.map]
  have noPlace : Answers store (.object kind ref) "indexOf" [value] (.int (-1)) ↔
      Sequence.place? store.equals value (store.items ref).toList = .ok none := by
    rw [Answers, invoke_indexOf sequence unset]
    rcases Sequence.place? store.equals value (store.items ref).toList with fault | _ | found <;>
      simp [Functor.map, Except.map]
  have contains (answer : Bool) :
      Answers store (.object kind ref) "contains" [value] (.bool answer) ↔
        Store.holds store.same value (store.items ref).toList = .ok answer := by
    rw [Answers, invoke_contains sequence unset]
    rcases Store.holds store.same value (store.items ref).toList with fault | found <;>
      simp [Functor.map, Except.map]
  have one (clear : ∀ element ∈ (store.items ref).toList, ¬element.Confused value) :
      Store.holds store.same value (store.items ref).toList =
        Store.holds store.equals value (store.items ref).toList :=
    Sequence.holds_congr fun element mem => Store.same_eq_equals (clear element mem)
  constructor
  case place => exact fun p => (place p).trans Sequence.place?_eq_some
  case noPlace => exact noPlace.trans Sequence.place?_eq_none
  case contained =>
    intro clear
    rw [contains, one clear, Sequence.holds_eq_true]
    exact exists_congr fun p => (place p).symm
  case notContained =>
    intro clear
    rw [contains, one clear, Sequence.holds_eq_false, noPlace]
  case confused =>
    rintro ⟨element, mem, confused⟩ missing
    rw [contains, Sequence.holds_eq_false, Sequence.place?_eq_none] at missing
    cases (missing element mem).symm.trans (Store.same_of_confused confused)

theorem keysAnswer {table : Table} {key value : Value} {pairs : List (Value × Value)}
    (isMap : store.entity ref = .entries table)
    (unset : ∀ name, store.setting? (.object .map ref) name = none)
    (isKey : store.checkKey key = .ok ())
    (updates : Mapping.assigned store.same key value (store.entries ref) = .ok pairs)
    (other : Value) :
    KeysAnswer store (Mapping.renewed store ref pairs) (.object .map ref) key value other := by
  have unset' (name : String) :
      (Mapping.renewed store ref pairs).setting? (.object .map ref) name = none := unset name
  constructor
  case alike =>
    intro alike
    have same : store.same key other = .ok true := by
      by_cases confused : key.Confused other
      · exact Store.same_of_confused confused
      · rw [Store.same_eq_equals confused]
        exact alike.resolve_right confused
    have looked := Mapping.lookup_renewed_alike isMap isKey same updates
    constructor
    · rw [Answers, invoke_containsKey unset', looked]
      rfl
    · intro otherwise
      rw [Answers, invoke_getOrDefault unset', looked]
      rfl
  case apart =>
    intro apart clear
    have same : store.same key other = .ok false := by rw [Store.same_eq_equals clear, apart]
    have looked := Mapping.lookup_renewed_apart isMap isKey same updates
    constructor
    · rw [invoke_containsKey unset', invoke_containsKey unset, looked]
    · intro otherwise
      rw [invoke_getOrDefault unset', invoke_getOrDefault unset, looked]

/-- **Membership goes by the equality of the method,** but for confused values. -/
theorem membership_agrees (store : Store) :
    (∀ kind ref value, kind = .list ∨ kind = .tuple →
      (∀ name, store.setting? (.object kind ref) name = none) →
      ElementsAnswer store (.object kind ref) (store.items ref).toList value) ∧
    (∀ ref table key value, store.entity ref = .entries table →
      (∀ name, store.setting? (.object .map ref) name = none) →
      store.checkKey key = .ok () →
      ∃ previous behind,
        (invoke (.object .map ref) "put" [key, value]).outcome store = (.ok previous, behind) ∧
          ∀ other, KeysAnswer store behind (.object .map ref) key value other) := by
  constructor
  · intro kind ref value sequence unset
    exact elementsAnswer sequence unset value
  · intro ref table key value isMap unset isKey
    obtain ⟨previous, pairs, updates, puts⟩ := invoke_put unset isKey value
    exact ⟨previous, _, puts, keysAnswer isMap unset isKey updates⟩

/-- A store with a list of two numbers at the place 1 and a map without entries at the place 2. -/
def shelves : Store :=
  ⟨#[.items #[], .items #[.int 3, .int 1], .entries .empty], [], Double.freshMark + 1⟩

/-- The list contains the number 1, at the second place, and behind an update of the map at the key
1 the fraction 1 is a key of it and the number 3 is none. -/
theorem numbers_agree :
    shelves.entity 2 = .entries .empty ∧ shelves.checkKey (.int 1) = .ok () ∧
      Answers shelves (.object .list 1) "indexOf" [.int 1] (.int 1) ∧
      Answers shelves (.object .list 1) "contains" [.int 1] (.bool true) ∧
      ∃ previous behind,
        (invoke (.object .map 2) "put" [.int 1, .str [97]]).outcome shelves =
            (.ok previous, behind) ∧
          Answers behind (.object .map 2) "containsKey" [.int 3] (.bool false) ∧
          Answers behind (.object .map 2) "containsKey" [.fraction 1] (.bool true) := by
  have absent : ((invoke (.object .map 2) "containsKey" [.int 3]).outcome shelves).1 =
      .ok (.bool false) := by cbv
  have number (i : Int) (b : Value) (noTruth : b.isTruth = false) : ¬(Value.int i).Confused b := by
    rintro (⟨-, mark, nan⟩ | ⟨mixed, -⟩)
    · cases nan
    · exact mixed noTruth.symm
  have apart : shelves.equals (.int 3) (.int 1) = .ok false := rfl
  have apart' : shelves.equals (.int 1) (.int 3) = .ok false := rfl
  have itself : shelves.equals (.int 1) (.int 1) = .ok true := rfl
  have alike : shelves.equals (.int 1) (.fraction 1) = .ok true := rfl
  have isKey : shelves.checkKey (.int 1) = .ok () := rfl
  obtain ⟨lists, maps⟩ := membership_agrees shelves
  have answers := lists .list 1 (.int 1) (.inl rfl) fun _ => rfl
  obtain ⟨previous, behind, puts, keys⟩ :=
    maps 2 .empty (.int 1) (.str [97]) rfl (fun _ => rfl) isKey
  have first : Sequence.IsFirst shelves.equals (.int 1) (shelves.items 1).toList 1 := by
    refine ⟨⟨.int 1, rfl, itself⟩, fun element mem => ?_⟩
    obtain rfl : element = .int 3 := List.mem_singleton.mp mem
    exact apart
  have clear : ∀ element ∈ (shelves.items 1).toList, ¬element.Confused (.int 1) := by
    intro element mem
    obtain rfl | rfl : element = .int 3 ∨ element = .int 1 := List.mem_pair.mp mem
    · exact number _ _ rfl
    · exact number _ _ rfl
  have place := (answers.place 1).mpr first
  refine ⟨rfl, isKey, place, (answers.contained clear).mpr ⟨1, place⟩, previous, behind, puts, ?_,
    ((keys (.fraction 1)).alike (.inl alike)).1⟩
  rw [Answers, ((keys (.int 3)).apart apart' (number _ _ rfl)).1, absent]

/-- The list contains `true` and has no place for it, and with the number 1 the map gets the key
`true`. -/
theorem truths_confused :
    let behind := ((invoke (.object .map 2) "put" [.int 1, .str [97]]).outcome shelves).2
    shelves.equals (.int 1) (.bool true) = .ok false ∧
      (invoke (.object .list 1) "contains" [.bool true]).outcome shelves =
        (.ok (.bool true), shelves) ∧
      (invoke (.object .list 1) "indexOf" [.bool true]).outcome shelves =
        (.ok (.int (-1)), shelves) ∧
      ((invoke (.object .map 2) "containsKey" [.bool true]).outcome shelves).1 =
        .ok (.bool false) ∧
      ((invoke (.object .map 2) "containsKey" [.bool true]).outcome behind).1 =
        .ok (.bool true) := by
  exact ⟨by cbv, by cbv, by cbv, by cbv, by cbv⟩

end Method

end Formulary
