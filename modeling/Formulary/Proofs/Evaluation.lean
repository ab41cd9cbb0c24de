/-
What evaluating an expression does to the variables, and how it may halt.

* `Covers` — the relations between environments that hold across an assignment to one of some
  names and that leave every declared kind as it is.
* `expression_throughout` — evaluating an expression keeps to such a relation, however it ends,
  as long as its targets are among the names. It halts for ordinary reasons only.
* `expression_assigning` — a series of assignments as such a relation: no variable comes or goes
  and none changes its declared kind.
* `locate_inReach` — a location that is a variable is one in reach, of the kind that it was
  declared with.

The only step that changes a variable is `Location.assign`. It does so behind the
evaluation of the new value, so that the variable is still to be there by then: that is
`Covers.kinds`.
-/

import Formulary.Proofs.Machine
import Formulary.Proofs.Targets
import Formulary.Proofs.Variables

namespace Formulary.Eval

open Environment (Assigned)

variable {α β : Type}

/-- A step that changes the variables by assignments only. -/
abbrev Assigning (step : Machine α) : Prop :=
  Machine.Throughout Assigned step

/-- What a relation between environments allows for as long as only variables of some names are
assigned to: such an assignment, and nothing that changes a declared kind. -/
structure Covers (names : String → Prop) (related : Environment → Environment → Prop) :
    Prop where
  assigns : ∀ {env : Environment} {name : String} {kind : Kind} {value : Value}, names name →
    env.kind? name = some kind → kind.Takes value → related env (env.setValue name value)
  kinds : ∀ {before behind : Environment}, related before behind →
    ∀ name, behind.kind? name = before.kind? name

/-- Assignments may be to any variable. -/
theorem covers_assigned : Covers (fun _ => True) Assigned where
  assigns _ declared taken := Relation.ReflTransGen.single ⟨_, _, _, declared, taken⟩
  kinds := Assigned.kind?

section Related

variable {names : String → Prop} {related : Environment → Environment → Prop}
  [IsPreorder Environment related]

/-! ### Locations -/

/-- A location that is no variable, or a variable in reach with its declared kind. -/
def Location.InReach (env : Environment) : Location → Prop
  | .variable name kind => env.kind? name = some kind
  | _ => True

/-- A location that is no variable, or a variable of one of some names. -/
def Location.Among (names : String → Prop) : Location → Prop
  | .variable name _ => names name
  | _ => True

/-- What leaves the declared kinds as they are leaves a location in reach. -/
theorem Location.InReach.kept {location : Location} {before behind : Environment}
    (h : location.InReach before)
    (kinds : ∀ name, behind.kind? name = before.kind? name) : location.InReach behind :=
  match location, h with
  | .variable name _, h => (kinds name).trans h
  | .field .., _ => trivial
  | .element .., _ => trivial

theorem Location.read_throughout :
    ∀ location : Location, Machine.Throughout related location.read
  | .variable name _ => .valueOf name
  | .field receiver name => .act (Member.read receiver name)
  | .element container index => .act (Place.load container index)

/-- A variable takes what the cast or the conversion to its kind gives. -/
theorem Location.adapt_variable {name : String} {kind : Kind} {narrowing : Bool}
    {input value : Value} {state behind : State}
    (h : Machine.outcome ((Location.variable name kind).adapt narrowing input) state =
      (.ok value, behind)) :
    kind.Takes value ∧ behind.environment = state.environment := by
  obtain ⟨store, given, rfl⟩ := Machine.act_ok.mp h
  refine ⟨?_, rfl⟩
  cases narrowing with
  | true => exact .cast state.store state.store store input given
  | false => exact .convert state.store state.store store input given

theorem Location.adapt_throughout (narrowing : Bool) (value : Value) :
    ∀ location : Location, Machine.Throughout related (location.adapt narrowing value)
  | .variable .. => .act _
  | .field .. => .pure _
  | .element .. => .pure _

/-- **Assigning to a location in reach is an assignment to its variable.** -/
theorem Location.assign_within (covers : Covers names related) {location : Location}
    {narrowing : Bool} {value : Value} {state : State} (among : location.Among names)
    (reach : location.InReach state.environment) :
    Machine.Within related (location.assign narrowing value) state := by
  refine .bind (adapt_throughout narrowing value location state) ?_
  intro taken behind adapted
  refine .bind ?_ fun _ _ _ => .pure taken
  match location, among, reach, adapted with
  | .variable name kind, among, reach, adapted =>
    obtain ⟨takes, same⟩ := adapt_variable adapted
    refine ⟨covers.assigns among ?_ takes, ?_⟩
    · rw [same]
      exact reach
    · intro halt h
      cases h
  | .field receiver name, _, _, _ => exact .act (Member.write receiver name taken)
  | .element container index, _, _, _ => exact .act (Place.store container index taken)

/-- **A location that an expression stands for is in reach,** and a variable only if the
expression is its name. -/
theorem locate_inReach {target : CheckedExpr} {location : Location}
    {state behind : State}
    (h : Machine.outcome (locate target) state = (.ok location, behind)) :
    location.InReach behind.environment ∧ location.Among (· ∈ target.ownTarget) := by
  unfold locate at h
  split at h
  · obtain ⟨found, between, bound, h⟩ := Machine.bind_ok.mp h
    rw [Machine.outcome_binding] at bound
    split at bound
    · next binding present =>
      cases bound
      cases h
      refine ⟨?_, List.mem_singleton_self _⟩
      rw [Location.InReach, Environment.kind?, present]
      rfl
    · cases bound
  · obtain ⟨_, _, _, h⟩ := Machine.bind_ok.mp h
    cases h
    exact ⟨trivial, trivial⟩
  · obtain ⟨_, _, _, h⟩ := Machine.bind_ok.mp h
    cases h
    exact ⟨trivial, trivial⟩
  · obtain ⟨_, _, _, h⟩ := Machine.bind_ok.mp h
    obtain ⟨_, _, _, h⟩ := Machine.bind_ok.mp h
    cases h
    exact ⟨trivial, trivial⟩
  · cases h

/-- The location of a target whose name is one of some names. -/
theorem Location.Among.mono {location : Location} {target : CheckedExpr}
    (own : location.Among (· ∈ target.ownTarget))
    (within : ∀ name ∈ target.ownTarget, names name) : location.Among names :=
  match location, own with
  | .variable name _, own => within name own
  | .field .., _ => trivial
  | .element .., _ => trivial

/-! ### Expressions -/

/-- Whether an expression is written as a type. -/
def IsType (expr : CheckedExpr) : Prop :=
  ∃ position type, expr = .typeName position type

theorem expression_field {position : Position} {receiver : CheckedExpr} {member : String}
    (value : ¬IsType receiver) :
    expression (.field position receiver member) = (do
      Machine.act (Member.read (← expression receiver) member)) := by
  rw [expression]
  exact fun _ _ same => value ⟨_, _, same⟩

theorem expression_methodCall {position : Position} {receiver : CheckedExpr}
    {method : String} {args : List CheckedExpr} (value : ¬IsType receiver) :
    expression (.methodCall position receiver method args) = (do
      let receiver ← expression receiver
      Machine.act (Method.invoke receiver method (← expressions args))) := by
  rw [expression]
  exact fun _ _ same => value ⟨_, _, same⟩

theorem locate_field {position : Position} {receiver : CheckedExpr} {member : String}
    (value : ¬IsType receiver) :
    locate (.field position receiver member) = (do
      return .field (← expression receiver) member) := by
  rw [locate]
  exact fun _ _ same => value ⟨_, _, same⟩

mutual

/-- **Evaluating an expression assigns to its targets only.** -/
theorem expression_throughout (covers : Covers names related) : ∀ expr : CheckedExpr,
    (∀ name ∈ expr.targets, names name) → Machine.Throughout related (expression expr)
  | .literal .., _ => by
    rw [expression]
    exact .pure _
  | .name _ ident, _ => by
    rw [expression]
    exact .valueOf ident
  | .typeName .., _ => by
    rw [expression]
    exact .act _
  | .field _ receiver _, within => by
    by_cases static : IsType receiver
    · obtain ⟨_, _, rfl⟩ := static
      rw [expression]
      exact .act _
    · rw [expression_field static]
      exact .bind (expression_throughout covers receiver within) fun _ => .act _
  | .methodCall _ receiver _ args, within => by
    obtain ⟨inReceiver, inArgs⟩ := List.forall_mem_append.mp within
    by_cases static : IsType receiver
    · obtain ⟨_, _, rfl⟩ := static
      rw [expression]
      exact .bind (expressions_throughout covers args inArgs) fun _ => .act _
    · rw [expression_methodCall static]
      exact .bind (expression_throughout covers receiver inReceiver) fun _ =>
        .bind (expressions_throughout covers args inArgs) fun _ => .act _
  | .call _ _ args, within => by
    rw [expression]
    exact .bind (.act _) fun _ =>
      .bind (expressions_throughout covers args within) fun _ => .act _
  | .index _ container place, within => by
    obtain ⟨inContainer, inPlace⟩ := List.forall_mem_append.mp within
    rw [expression]
    exact .bind (expression_throughout covers container inContainer) fun _ =>
      .bind (expression_throughout covers place inPlace) fun _ => .act _
  | .unary _ _ operand, within => by
    rw [expression]
    exact .bind (expression_throughout covers operand within) fun _ => .act _
  | .step _ op target before, within => by
    obtain ⟨own, inTarget⟩ := List.forall_mem_append.mp within
    rw [expression]
    intro state
    refine .bind (locate_throughout covers target inTarget state) fun location found located => ?_
    refine .bind (location.read_throughout found) fun old loaded read => ?_
    refine .bind (.act _) fun result last worked => ?_
    obtain ⟨reach, isOwn⟩ := locate_inReach located
    have reach := reach.kept (covers.kinds (location.read_throughout.between read))
    have reach := reach.kept (covers.kinds ((Machine.Throughout.act _).between worked))
    exact .bind (Location.assign_within covers (isOwn.mono own) reach) fun new _ _ => .pure _
  | .binary _ _ left right, within => by
    obtain ⟨inLeft, inRight⟩ := List.forall_mem_append.mp within
    rw [expression]
    exact .bind (expression_throughout covers left inLeft) fun _ =>
      .bind (expression_throughout covers right inRight) fun _ => .act _
  | .logical _ op left right, within => by
    obtain ⟨inLeft, inRight⟩ := List.forall_mem_append.mp within
    rw [expression]
    refine .bind (expression_throughout covers left inLeft) fun _ =>
      .bind (.ofExcept _) fun first => ?_
    split
    · exact .pure _
    · exact .pure _
    · exact .bind (expression_throughout covers right inRight) fun _ =>
        .bind (.ofExcept _) fun _ => .pure _
  | .conditional _ test thenValue elseValue, within => by
    obtain ⟨inTest, inValues⟩ := List.forall_mem_append.mp within
    obtain ⟨inThen, inElse⟩ := List.forall_mem_append.mp inValues
    rw [expression]
    refine .bind (expression_throughout covers test inTest) fun _ =>
      .bind (.ofExcept _) fun first => ?_
    split
    · exact expression_throughout covers thenValue inThen
    · exact expression_throughout covers elseValue inElse
  | .assign _ none target value, within => by
    obtain ⟨own, inside⟩ := List.forall_mem_append.mp within
    obtain ⟨inTarget, inValue⟩ := List.forall_mem_append.mp inside
    have evaluates := expression_throughout covers value inValue
    rw [expression]
    intro state
    refine .bind (locate_throughout covers target inTarget state) fun location found located => ?_
    refine .bind (evaluates found) fun new last worked => ?_
    obtain ⟨reach, isOwn⟩ := locate_inReach located
    exact Location.assign_within covers (isOwn.mono own)
      (reach.kept (covers.kinds (evaluates.between worked)))
  | .assign _ (some op) target value, within => by
    obtain ⟨own, inside⟩ := List.forall_mem_append.mp within
    obtain ⟨inTarget, inValue⟩ := List.forall_mem_append.mp inside
    have evaluates := expression_throughout covers value inValue
    rw [expression]
    intro state
    refine .bind (locate_throughout covers target inTarget state) fun location found located => ?_
    refine .bind (location.read_throughout found) fun old loaded read => ?_
    refine .bind (evaluates loaded) fun operand before worked => ?_
    refine .bind (.act _) fun result last combined => ?_
    obtain ⟨reach, isOwn⟩ := locate_inReach located
    have reach := reach.kept (covers.kinds (location.read_throughout.between read))
    have reach := reach.kept (covers.kinds (evaluates.between worked))
    exact Location.assign_within covers (isOwn.mono own)
      (reach.kept (covers.kinds ((Machine.Throughout.act _).between combined)))
  | .cast _ _ operand, within => by
    rw [expression]
    exact .bind (.act _) fun _ =>
      .bind (expression_throughout covers operand within) fun _ => .act _
  | .instanceOf _ value _, within => by
    rw [expression]
    refine .bind (expression_throughout covers value within) fun _ => ?_
    split
    · exact .pure _
    · exact .act _
  | .new _ _ args, within => by
    rw [expression]
    exact .bind (.act _) fun _ =>
      .bind (expressions_throughout covers args within) fun _ => .act _

/-- Evaluating expressions in a row assigns to their targets only. -/
theorem expressions_throughout (covers : Covers names related) : ∀ exprs : List CheckedExpr,
    (∀ name ∈ Expr.targetsOfAll exprs, names name) →
    Machine.Throughout related (expressions exprs)
  | [], _ => by
    rw [expressions]
    exact .pure _
  | expr :: rest, within => by
    obtain ⟨inFirst, inRest⟩ := List.forall_mem_append.mp within
    rw [expressions]
    exact .bind (expression_throughout covers expr inFirst) fun _ =>
      .bind (expressions_throughout covers rest inRest) fun _ => .pure _

/-- Finding a location assigns to the targets inside of it only. -/
theorem locate_throughout (covers : Covers names related) : ∀ target : CheckedExpr,
    (∀ name ∈ target.targets, names name) → Machine.Throughout related (locate target)
  | .name _ ident, _ => by
    rw [locate]
    exact .bind (.binding ident) fun _ => .pure _
  | .field _ receiver _, within => by
    by_cases static : IsType receiver
    · obtain ⟨_, _, rfl⟩ := static
      rw [locate]
      exact .bind (.act _) fun _ => .pure _
    · rw [locate_field static]
      exact .bind (expression_throughout covers receiver within) fun _ => .pure _
  | .index _ container place, within => by
    obtain ⟨inContainer, inPlace⟩ := List.forall_mem_append.mp within
    rw [locate]
    exact .bind (expression_throughout covers container inContainer) fun _ =>
      .bind (expression_throughout covers place inPlace) fun _ => .pure _
  | .literal .., _ | .typeName .., _ | .methodCall .., _ | .call .., _ | .unary .., _
  | .step .., _ | .binary .., _ | .logical .., _ | .conditional .., _ | .assign .., _
  | .cast .., _ | .instanceOf .., _ | .new .., _ => .throw .notVariable

end

theorem condition_throughout (covers : Covers names related) {test : CheckedExpr}
    (within : ∀ name ∈ test.targets, names name) :
    Machine.Throughout related (condition test) :=
  .bind (expression_throughout covers test within) fun _ => .ofExcept _

theorem effects_throughout (covers : Covers names related) :
    ∀ exprs : List CheckedExpr, (∀ name ∈ Expr.targetsOfAll exprs, names name) →
      Machine.Throughout related (effects exprs)
  | [], _ => .pure _
  | expr :: rest, within => by
    obtain ⟨inFirst, inRest⟩ := List.forall_mem_append.mp within
    rw [effects]
    exact .bind (expression_throughout covers expr inFirst) fun _ =>
      effects_throughout covers rest inRest

end Related

/-! ### Assignments -/

theorem Location.read_assigning (location : Location) : Assigning location.read :=
  location.read_throughout

/-- **Evaluating an expression changes the variables by assignments only.** -/
theorem expression_assigning (expr : CheckedExpr) : Assigning (expression expr) :=
  expression_throughout covers_assigned expr fun _ _ => trivial

/-- Evaluating expressions in a row changes the variables by assignments only. -/
theorem expressions_assigning (exprs : List CheckedExpr) : Assigning (expressions exprs) :=
  expressions_throughout covers_assigned exprs fun _ _ => trivial

/-- Finding a location changes the variables by assignments only. -/
theorem locate_assigning (target : CheckedExpr) : Assigning (locate target) :=
  locate_throughout covers_assigned target fun _ _ => trivial

theorem condition_assigning (test : CheckedExpr) : Assigning (condition test) :=
  condition_throughout covers_assigned fun _ _ => trivial

theorem effects_assigning (exprs : List CheckedExpr) : Assigning (effects exprs) :=
  effects_throughout covers_assigned exprs fun _ _ => trivial

end Formulary.Eval
