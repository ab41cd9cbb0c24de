/-
The uses of an index.

An element of a list is read with brackets or with `get`, and another one is put in its place with
brackets or with `set`. The checks of the index are alike, and a store makes them before it changes
anything: so all four uses are good for the same indexes, and one that is refused leaves everything
as it is. Tuples and texts can be read in the same way, and refuse every store.

* `Place.Within` — the indexes that are good: integers from zero to below the length.
* `Place.Refusal` — how the others are refused. The report shows the index, and the host does not
  write out integers of more than `maxDigits` digits.
* `Place.load_within`, `Method.set_within` and the like — each use, with an index of either kind.
* `IndexUse.uses_agree` — the uses of an index beside each other.
-/

import Formulary.Proofs.Evaluation
import Formulary.Proofs.Gaps
import Formulary.Proofs.Iterators

namespace Formulary

/-! ### Places -/

namespace Place

variable {index : Value} {length place : Nat}

/-- A place that an index stands for: the index is an integer from zero to below the length. Truth
values are no integers. -/
def Within (index : Value) (length place : Nat) : Prop :=
  (index = .int place ∨ index = .long place) ∧ place < length

/-- An index is an integer of too many digits to be written. -/
def Overlong (index : Value) : Prop :=
  ∃ i, (index = .int i ∨ index = .long i) ∧ isTooLong i = true

/-- How an index that stands for no place is refused: with a cause that the body language knows,
unless the report would have to show too many digits. -/
structure Refusal (index : Value) (fault : Fault) : Prop where
  reported : ¬Overlong index → ∃ error, fault = .evaluation error
  overlong : Overlong index → fault = .wrongValue

theorem integer?_eq_some {i : Int} :
    index.integer? = some i ↔ index = .int i ∨ index = .long i := by
  cases index <;> simp [Value.integer?]

/-- An index that stands for a place passes the check. -/
theorem check_within (within : Within index length place)
    (range : Int → Nat → EvaluationError) : check range length index = .ok place := by
  obtain ⟨isInteger, less⟩ := within
  rw [check, integer?_eq_some.mpr isInteger]
  simp [less]

/-- An index that stands for no place is refused. -/
theorem check_refused (without : ∀ place, ¬Within index length place)
    (range : Int → Nat → EvaluationError) :
    ∃ fault, check range length index = .error fault ∧ Refusal index fault := by
  rw [check]
  cases found : index.integer? with
  | none =>
    refine ⟨_, rfl, fun _ => ⟨_, rfl⟩, ?_⟩
    rintro ⟨i, isInteger, -⟩
    rw [integer?_eq_some.mpr isInteger] at found
    cases found
  | some i =>
    have isInteger := integer?_eq_some.mp found
    have outside : ¬(0 ≤ i ∧ i < (length : Int)) := by
      rintro ⟨nonneg, less⟩
      obtain ⟨place, rfl⟩ := Int.eq_ofNat_of_zero_le nonneg
      exact without place ⟨isInteger, Int.ofNat_lt.mp less⟩
    have overlong : Overlong index ↔ isTooLong i = true := by
      refine ⟨?_, fun long => ⟨i, isInteger, long⟩⟩
      rintro ⟨j, isInteger', long⟩
      rw [integer?_eq_some.mpr isInteger'] at found
      rwa [← Option.some.inj found]
    simp only [Bool.and_eq_true, decide_eq_true_eq, outside, if_false]
    by_cases long : isTooLong i = true
    · rw [if_pos long]
      exact ⟨_, rfl, fun short => absurd (overlong.mpr long) short, fun _ => rfl⟩
    · rw [if_neg long]
      exact ⟨_, rfl, fun _ => ⟨_, rfl⟩, fun overlong' => absurd (overlong.mp overlong') long⟩

/-- Behind the check of an index that stands for a place. -/
theorem checked_within {α : Type} (within : Within index length place)
    (range : Int → Nat → EvaluationError) (next : Nat → Action α) (store : Store) :
    Action.outcome (Action.ofExcept (check range length index) >>= next) store =
      (next place).outcome store := by
  rw [check_within within]
  rfl

/-- Behind the check of an index that stands for no place nothing is done. -/
theorem checked_refused {α : Type} (without : ∀ place, ¬Within index length place)
    (range : Int → Nat → EvaluationError) (next : Nat → Action α) (store : Store) :
    ∃ fault, Action.outcome (Action.ofExcept (check range length index) >>= next) store =
      (.error fault, store) ∧ Refusal index fault := by
  obtain ⟨fault, refused, refusal⟩ := check_refused without range
  exact ⟨fault, by rw [refused]; rfl, refusal⟩

end Place

/-- The store in which an element of a list is another one. -/
def Store.withElement (store : Store) (ref : Ref) (place : Nat) (value : Value) : Store :=
  store.update ref (.items ((store.items ref).setIfInBounds place value))

/-- Behind a store nothing is different but one element of one list. -/
structure Store.OnlyElement (ref : Ref) (place : Nat) (value : Value) (before behind : Store) :
    Prop where
  elements : ∀ k, (behind.items ref)[k]? = if k = place then some value else (before.items ref)[k]?
  others : ∀ other, other ≠ ref → behind.entity other = before.entity other
  size : behind.objects.size = before.objects.size
  settings : behind.settings = before.settings
  mark : behind.nextMark = before.nextMark

theorem Store.withElement_only {store : Store} {ref : Ref} {place : Nat} (value : Value)
    (less : place < (store.items ref).size) :
    store.OnlyElement ref place value (store.withElement ref place value) where
  elements k := by
    have inside : ref < store.objects.size := by
      by_contra outside
      rw [items, entity_outside (Nat.not_lt.mp outside)] at less
      cases less
    have stored : (store.withElement ref place value).items ref =
        (store.items ref).setIfInBounds place value := by
      rw [items, withElement, entity_update, if_pos ⟨rfl, inside⟩]
    rw [stored, Array.getElem?_setIfInBounds]
    by_cases here : place = k
    · rw [if_pos here, if_pos here.symm, if_pos less]
    · rw [if_neg here, if_neg (Ne.symm here)]
  others other different := by
    rw [withElement, entity_update, if_neg fun here => different here.1]
  size := size_update ..
  settings := rfl
  mark := rfl

/-! ### Reading and storing -/

section Sequence

open Place (Within Refusal)

variable {store : Store} {container index : Value} {values : Array Value} {place : Nat}

theorem Place.elements?_list (store : Store) (ref : Ref) :
    elements? store (.object .list ref) = some (store.items ref) := rfl

theorem Place.ne_null (elements : elements? store container = some values) :
    container ≠ .null := by
  rintro rfl
  cases elements

/-- A list, a tuple or a text has no method of its own to get or to set an element. -/
theorem Method.member?_element (elements : Place.elements? store container = some values)
    (unset : ∀ name, store.setting? container name = none) {name : String}
    (isElement : name = "get" ∨ name = "set") : store.member? container name = none := by
  cases container with
  | str codes | char codes => obtain rfl | rfl := isElement <;> rfl
  | object kind ref =>
    cases kind with
    | list | tuple =>
      rw [member?_object (by rintro _ ⟨⟩) unset]
      obtain rfl | rfl := isElement <;> rfl
    | _ => cases elements
  | _ => cases elements

/-- Getting or setting an element is the method that every value may have. -/
theorem Method.invoke_element (elements : Place.elements? store container = some values)
    (unset : ∀ name, store.setting? container name = none) {name : String}
    (isElement : name = "get" ∨ name = "set") {args : List Value} {action : Action Value}
    (builtin : builtin? container name args = some action) :
    (invoke container name args).outcome store = action.outcome store := by
  rw [invoke, if_neg (Place.ne_null elements), Action.outcome_get,
    member?_element elements unset isElement, builtin]
  rfl

theorem Place.load_within (elements : elements? store container = some values)
    (within : Within index values.size place) :
    (load container index).outcome store = (.ok (values.getD place .null), store) := by
  rw [load, if_neg (ne_null elements), Action.outcome_get, elements]
  exact checked_within within ..

theorem Place.load_refused (elements : elements? store container = some values)
    (without : ∀ place, ¬Within index values.size place) :
    ∃ fault, (load container index).outcome store = (.error fault, store) ∧
      Refusal index fault := by
  rw [load, if_neg (ne_null elements), Action.outcome_get, elements]
  exact checked_refused without ..

theorem Method.get_within (elements : Place.elements? store container = some values)
    (unset : ∀ name, store.setting? container name = none)
    (within : Within index values.size place) :
    (invoke container "get" [index]).outcome store = (.ok (values.getD place .null), store) := by
  rw [invoke_element elements unset (.inl rfl) rfl, element, Action.outcome_get, elements]
  exact Place.checked_within within ..

theorem Method.get_refused (elements : Place.elements? store container = some values)
    (unset : ∀ name, store.setting? container name = none)
    (without : ∀ place, ¬Within index values.size place) :
    ∃ fault, (invoke container "get" [index]).outcome store = (.error fault, store) ∧
      Refusal index fault := by
  rw [invoke_element elements unset (.inl rfl) rfl, element, Action.outcome_get, elements]
  exact Place.checked_refused without ..

/-- A store in brackets asks for the element first. -/
theorem Place.store_refused (elements : elements? store container = some values)
    (without : ∀ place, ¬Within index values.size place) (value : Value) :
    ∃ fault, (Place.store container index value).outcome store = (.error fault, store) ∧
      Refusal index fault := by
  obtain ⟨fault, refused, refusal⟩ := load_refused elements without
  refine ⟨fault, ?_, refusal⟩
  unfold Place.store
  rw [Action.outcome_bind, refused]

theorem Place.store_within {ref : Ref} (within : Within index (store.items ref).size place)
    (value : Value) :
    (Place.store (.object .list ref) index value).outcome store =
      (.ok (), store.withElement ref place value) := by
  unfold Place.store
  rw [Action.outcome_bind, load_within (elements?_list store ref) within,
    integer?_eq_some.mpr within.1]
  rfl

theorem Place.store_fixed (elements : elements? store container = some values)
    (fixed : ∀ ref, container ≠ .object .list ref) (within : Within index values.size place)
    (value : Value) :
    (Place.store container index value).outcome store =
      (.error (.evaluation (.fixedContainer container.typeName)), store) := by
  unfold Place.store
  rw [Action.outcome_bind, load_within elements within]
  dsimp only
  split
  · next ref _ _ => exact absurd rfl (fixed ref)
  · rfl

theorem Method.set_within {ref : Ref}
    (unset : ∀ name, store.setting? (.object .list ref) name = none)
    (within : Within index (store.items ref).size place) (value : Value) :
    (invoke (.object .list ref) "set" [index, value]).outcome store =
      (.ok ((store.items ref).getD place .null), store.withElement ref place value) := by
  rw [invoke_element (Place.elements?_list store ref) unset (.inr rfl) rfl, replace,
    Action.outcome_get]
  exact Place.checked_within within ..

theorem Method.set_refused {ref : Ref}
    (unset : ∀ name, store.setting? (.object .list ref) name = none)
    (without : ∀ place, ¬Within index (store.items ref).size place) (value : Value) :
    ∃ fault, (invoke (.object .list ref) "set" [index, value]).outcome store =
        (.error fault, store) ∧ Refusal index fault := by
  rw [invoke_element (Place.elements?_list store ref) unset (.inr rfl) rfl, replace,
    Action.outcome_get]
  exact Place.checked_refused without ..

theorem Method.set_fixed (elements : Place.elements? store container = some values)
    (unset : ∀ name, store.setting? container name = none)
    (fixed : ∀ ref, container ≠ .object .list ref) (value : Value) :
    (invoke container "set" [index, value]).outcome store =
      (.error (.evaluation (.noMethod "set" container.typeName)), store) := by
  rw [invoke_element elements unset (.inr rfl) rfl]
  unfold replace
  split
  · next ref => exact absurd rfl (fixed ref)
  · rfl

end Sequence

/-! ### Uses of an index -/

/-- The ways to use an index of a container. -/
inductive IndexUse where
  /-- The element in brackets. -/
  | read
  /-- The element by `get`. -/
  | get
  /-- An assignment to the element in brackets. -/
  | store
  /-- An assignment to the element by `set`. -/
  | set
deriving DecidableEq, Repr

namespace IndexUse

open Machine (outcome)
open Place (Within Overlong Refusal)

/-- A use as a body has it, of a container and an index, and of a value to store. -/
def expr (p q : Position) (container index value : CheckedExpr) : IndexUse → CheckedExpr
  | read => .index p container index
  | get => .methodCall p container "get" [index]
  | store => .assign p none (.index q container index) value
  | set => .methodCall p container "set" [index, value]

/-- What a use does when its operands have been evaluated. -/
def action (container index value : Value) : IndexUse → Action Value
  | read => Place.load container index
  | get => Method.invoke container "get" [index]
  | store => do
    Place.store container index value
    return value
  | set => Method.invoke container "set" [index, value]

/-- The operands of a use, each of which gives a value and changes nothing. -/
structure Operands (state : State) (C I V : CheckedExpr) (container index value : Value) :
    Prop where
  container : outcome (Eval.expression C) state = (.ok container, state)
  index : outcome (Eval.expression I) state = (.ok index, state)
  value : outcome (Eval.expression V) state = (.ok value, state)
  /-- A method of a type is not a method of the value that the type stands for. -/
  noType : ¬Eval.IsType C

section Operands

variable {state : State} {C I V : CheckedExpr} {container index value : Value}

/-- A use does its action when the operands have been evaluated. -/
theorem outcome_expr (operands : Operands state C I V container index value) (p q : Position)
    (use : IndexUse) :
    outcome (Eval.expression (use.expr p q C I V)) state =
      outcome (Machine.act (use.action container index value)) state := by
  have one : outcome (Eval.expressions [I]) state = (.ok [index], state) := by
    rw [Eval.expressions, Machine.outcome_bind_ok operands.index]
    rfl
  have two : outcome (Eval.expressions [I, V]) state = (.ok [index, value], state) := by
    rw [Eval.expressions, Machine.outcome_bind_ok operands.index, Eval.expressions,
      bind_assoc, Machine.outcome_bind_ok operands.value]
    rfl
  cases use with
  | read =>
    rw [expr, Eval.expression, Machine.outcome_bind_ok operands.container,
      Machine.outcome_bind_ok operands.index]
    rfl
  | get =>
    rw [expr, Eval.expression_methodCall operands.noType,
      Machine.outcome_bind_ok operands.container, Machine.outcome_bind_ok one]
    rfl
  | store =>
    -- The element is located before the value to store is evaluated.
    have located : outcome (Eval.locate (.index q C I)) state =
        (.ok (.element container index), state) := by
      rw [Eval.locate, Machine.outcome_bind_ok operands.container,
        Machine.outcome_bind_ok operands.index]
      rfl
    rw [expr, Eval.expression, Machine.outcome_bind_ok located,
      Machine.outcome_bind_ok operands.value, action, Machine.act_bind]
    rfl
  | set =>
    rw [expr, Eval.expression_methodCall operands.noType,
      Machine.outcome_bind_ok operands.container, Machine.outcome_bind_ok two]
    rfl

end Operands

/-- The assignments put another element at a place of a list and leave the same state. What `set`
gives is the element that was there, as it is read. -/
def Replaces (state : State) (ref : Ref) (place : Nat) (value : Value)
    (run : IndexUse → Except Halt Value × State) : Prop :=
  ∃ old behind, (state.store.items ref)[place]? = some old ∧
    run .read = (.ok old, state) ∧ run .get = (.ok old, state) ∧
    run .store = (.ok value, { state with store := behind }) ∧
    run .set = (.ok old, { state with store := behind }) ∧
    state.store.OnlyElement ref place value behind

/-- How the uses of an index of a list come out, where `run` is what each of them comes to. -/
structure OfList (state : State) (ref : Ref) (index value : Value)
    (run : IndexUse → Except Halt Value × State) : Prop where
  /-- All uses are good for the same indexes: for those that stand for a place. -/
  succeeds : ∀ use, (∃ result, (run use).1 = .ok result) ↔
    ∃ place, Within index (state.store.items ref).size place
  replaces : ∀ place, Within index (state.store.items ref).size place →
    Replaces state ref place value run
  /-- A use that is refused changes nothing. -/
  refused : (∀ place, ¬Within index (state.store.items ref).size place) → ∀ use,
    ∃ fault, run use = (.error (.fault fault), state) ∧ Refusal index fault

/-- How the assignments come out for a container of some length that is no list. -/
structure OfFixed (state : State) (length : Nat) (index : Value)
    (run : IndexUse → Except Halt Value × State) : Prop where
  /-- An assignment in brackets is refused: for an index without a place as reading is. -/
  store : ∃ fault, run .store = (.error (.fault fault), state) ∧
    ((∃ place, Within index length place) → ∃ error, fault = .evaluation error) ∧
    ((∀ place, ¬Within index length place) → Refusal index fault)
  set : ∃ error, run .set = (.error (.fault (.evaluation error)), state)

section Actions

variable {state : State} {container index : Value} {values : Array Value} {place : Nat} {ref : Ref}

theorem outcome_error {action : Action Value} {fault : Fault}
    (refused : action.outcome state.store = (.error fault, state.store)) :
    outcome (Machine.act action) state = (.error (.fault fault), state) := by
  rw [Machine.outcome_act, refused]

/-- The uses of an index of a list that stands for a place. -/
theorem replaces_within (unset : ∀ name, state.store.setting? (.object .list ref) name = none)
    (within : Within index (state.store.items ref).size place) (value : Value) :
    Replaces state ref place value fun use =>
      outcome (Machine.act (use.action (.object .list ref) index value)) state := by
  have elements := Place.elements?_list state.store ref
  have found : (state.store.items ref)[place]? =
      some ((state.store.items ref).getD place .null) := by
    rw [Array.getElem?_eq_getElem within.2]
    simp [within.2]
  have stored : (action (.object .list ref) index value .store).outcome state.store =
      (.ok value, state.store.withElement ref place value) := by
    rw [action, Action.outcome_bind, Place.store_within within]
    rfl
  exact ⟨_, state.store.withElement ref place value, found,
    Machine.act_ok.mpr ⟨_, Place.load_within elements within, rfl⟩,
    Machine.act_ok.mpr ⟨_, Method.get_within elements unset within, rfl⟩,
    Machine.act_ok.mpr ⟨_, stored, rfl⟩,
    Machine.act_ok.mpr ⟨_, Method.set_within unset within value, rfl⟩,
    Store.withElement_only value within.2⟩

/-- The uses of an index of a list that stands for no place. -/
theorem refused_without (unset : ∀ name, state.store.setting? (.object .list ref) name = none)
    (without : ∀ place, ¬Within index (state.store.items ref).size place) (value : Value)
    (use : IndexUse) :
    ∃ fault, (use.action (.object .list ref) index value).outcome state.store =
        (.error fault, state.store) ∧ Refusal index fault := by
  have elements := Place.elements?_list state.store ref
  cases use with
  | read => exact Place.load_refused elements without
  | get => exact Method.get_refused elements unset without
  | store =>
    obtain ⟨fault, refused, refusal⟩ := Place.store_refused elements without value
    refine ⟨fault, ?_, refusal⟩
    rw [action, Action.outcome_bind, refused]
  | set => exact Method.set_refused unset without value

theorem ofList (unset : ∀ name, state.store.setting? (.object .list ref) name = none)
    (value : Value) :
    OfList state ref index value fun use =>
      outcome (Machine.act (use.action (.object .list ref) index value)) state := by
  have refused (without : ∀ place, ¬Within index (state.store.items ref).size place)
      (use : IndexUse) : ∃ fault,
        outcome (Machine.act (use.action (.object .list ref) index value)) state =
          (.error (.fault fault), state) ∧ Refusal index fault := by
    obtain ⟨fault, refused, refusal⟩ := refused_without unset without value use
    exact ⟨fault, outcome_error refused, refusal⟩
  refine ⟨fun use => ⟨?_, ?_⟩, fun place within => replaces_within unset within value, refused⟩
  · -- Without a place every use is refused, so one that ends with a value has a place.
    rintro ⟨result, ended⟩
    by_contra without
    obtain ⟨fault, halted, -⟩ := refused (not_exists.mp without) use
    rw [halted] at ended
    cases ended
  · rintro ⟨place, within⟩
    obtain ⟨old, behind, -, read, get, store, set, -⟩ := replaces_within unset within value
    cases use with
    | read => exact ⟨old, congrArg Prod.fst read⟩
    | get => exact ⟨old, congrArg Prod.fst get⟩
    | store => exact ⟨value, congrArg Prod.fst store⟩
    | set => exact ⟨old, congrArg Prod.fst set⟩

theorem ofFixed (elements : Place.elements? state.store container = some values)
    (unset : ∀ name, state.store.setting? container name = none)
    (fixed : ∀ ref, container ≠ .object .list ref) (value : Value) :
    OfFixed state values.size index fun use =>
      outcome (Machine.act (use.action container index value)) state where
  store := by
    have stored {fault : Fault} (refused : (Place.store container index value).outcome
        state.store = (.error fault, state.store)) :
        outcome (Machine.act (action container index value .store)) state =
          (.error (.fault fault), state) := by
      refine outcome_error ?_
      rw [action, Action.outcome_bind, refused]
    -- Reading the element comes first: only where that succeeds the container itself is refused.
    by_cases good : ∃ place, Within index values.size place
    · obtain ⟨place, within⟩ := good
      exact ⟨_, stored (Place.store_fixed elements fixed within value), fun _ => ⟨_, rfl⟩,
        fun without => absurd within (without place)⟩
    · obtain ⟨fault, refused, refusal⟩ :=
        Place.store_refused elements (not_exists.mp good) value
      exact ⟨fault, stored refused, fun within => absurd within good, fun _ => refusal⟩
  set := ⟨_, outcome_error (Method.set_fixed elements unset fixed value)⟩

end Actions

/-- **The uses of an index agree.** An assignment to an element of a list in brackets, `set`, `get`
and reading in brackets end with a value for the same indexes: the integers from zero to below the
length. Both assignments then leave the same list, with another element at the place and nowhere
else, and all four leave everything as it is where they are refused. Tuples and texts refuse both
assignments and stay as they are. A refusal has a cause that the body language knows, but for an
index of too many digits. -/
theorem uses_agree {state : State} {C I V : CheckedExpr} {container index value : Value}
    {values : Array Value} (operands : Operands state C I V container index value)
    (elements : Place.elements? state.store container = some values)
    (unset : ∀ name, state.store.setting? container name = none) (p q : Position) :
    (∀ ref, container = .object .list ref → OfList state ref index value fun use =>
      outcome (Eval.expression (use.expr p q C I V)) state) ∧
    ((∀ ref, container ≠ .object .list ref) → OfFixed state values.size index fun use =>
      outcome (Eval.expression (use.expr p q C I V)) state) := by
  simp only [outcome_expr operands]
  refine ⟨?_, fun fixed => ofFixed elements unset fixed value⟩
  rintro ref rfl
  exact ofList unset value

/-- A state with a list of two integers under the name `c`. -/
def twoElements : State where
  environment := [[("c", ⟨.core .object, some (.object .list 1)⟩)]]
  store := (Store.initial.add (.items #[.int 5, .int 7])).2

theorem twoElements_operands (index value : Value) :
    Operands twoElements (.name .start "c") (.literal .start index) (.literal .start value)
      (.object .list 1) index value where
  container := by
    rw [Eval.expression, Machine.outcome_valueOf]
    rfl
  index := rfl
  value := rfl
  noType := by
    rintro ⟨_, _, ⟨⟩⟩

/-- The second of two elements is assigned to, and `set` gives the old one. -/
theorem secondElement_stored :
    Within (.long 1) 2 1 ∧ ∃ behind,
      outcome (Eval.expression (expr .start .start (.name .start "c")
        (.literal .start (.long 1)) (.literal .start .null) .store)) twoElements =
          (.ok .null, { twoElements with store := behind }) ∧
      outcome (Eval.expression (expr .start .start (.name .start "c")
        (.literal .start (.long 1)) (.literal .start .null) .set)) twoElements =
          (.ok (.int 7), { twoElements with store := behind }) ∧
      (behind.items 1)[0]? = some (.int 5) ∧ (behind.items 1)[1]? = some .null := by
  have within : Within (.long 1) 2 1 := ⟨.inr rfl, by decide⟩
  have uses := (uses_agree (twoElements_operands (.long 1) .null) rfl (fun _ => rfl)
    .start .start).1 1 rfl
  obtain ⟨old, behind, found, -, -, stored, set, only⟩ := uses.replaces 1 within
  obtain rfl : Value.int 7 = old := Option.some.inj found
  exact ⟨within, behind, stored, set, only.elements 0, only.elements 1⟩

/-- An index of too many digits is refused by the host, where the report of the body language would
have to show it. -/
theorem overlongIndex_unreported :
    outcome (Eval.expression (expr .start .start (.name .start "c")
      (.literal .start (.int (Nat.pow 10 maxDigits))) (.literal .start .null) .store))
        twoElements = (.error (.fault (.host .wrongValue)), twoElements) := by
  have large (digits : Nat) : digits < Nat.pow 10 digits := Nat.lt_pow_self (by decide)
  have overlong : Overlong (.int (Nat.pow 10 maxDigits)) :=
    ⟨_, .inl rfl, decide_eq_true (Nat.le_of_eq (Int.natAbs_natCast _).symm)⟩
  have without : ∀ place, ¬Within (.int (Nat.pow 10 maxDigits)) 2 place := by
    rintro place ⟨same | same, less⟩
    · have few : maxDigits < place := Int.ofNat.inj (Value.int.inj same) ▸ large maxDigits
      exact absurd (Nat.lt_trans few less) (by decide)
    · cases same
  have uses : OfList twoElements 1 (.int (Nat.pow 10 maxDigits)) .null fun use =>
      outcome (Machine.act (use.action (.object .list 1) (.int (Nat.pow 10 maxDigits)) .null))
        twoElements := ofList (fun _ => rfl) .null
  obtain ⟨fault, refused, refusal⟩ := uses.refused without .store
  rw [refusal.overlong overlong] at refused
  rw [outcome_expr (twoElements_operands _ _)]
  exact refused

end IndexUse

end Formulary
