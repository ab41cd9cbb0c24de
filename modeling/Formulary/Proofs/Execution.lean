/-
What running a statement does to the variables, and how it may halt.

* `Rules` — two relations between environments: one for what is declared and assigned to in
  a block, and one for what is left of it outside.
* `statement_throughout` — a statement keeps to the first of them however it ends, and to the
  second one if it declares nothing in the block around it. Blocks, `for` and `for`-each are of
  that sort whatever they declare inside (`inBlock_throughout`).
* `statement_changing`, `statement_assigning` — declarations and assignments, and assignments
  only, as such relations.

Every rule for a loop is an induction on the rounds that are left; what a round keeps is
kept by the loop.
-/

import Formulary.Proofs.Evaluation

namespace Formulary.Eval

open Environment (Assigned Changed)

variable {α : Type}

/-- A step that changes the variables by assignments and declarations. -/
abbrev Changing (step : Machine α) : Prop :=
  Machine.Throughout Changed step

theorem changing_of_assigning {step : Machine α} (h : Assigning step) : Changing step :=
  h.mono fun _ _ => Assigned.changed

/-- Relations that running a statement keeps to as long as only variables of some names are
assigned to. The inner one allows for declarations in the innermost block as well; once the block
has been left, the outer one holds. -/
structure Rules (names : String → Prop) (outer inner : Environment → Environment → Prop) : Prop
    extends Covers names outer where
  wider : ∀ before behind : Environment, outer before behind → inner before behind
  declares : ∀ {before behind : Environment}, before.Declares behind → inner before behind
  left : ∀ {before behind : Environment}, inner ([] :: before) behind → outer before behind.tail

/-- Assignments are left of assignments and declarations. -/
theorem rules_changed : Rules (fun _ => True) Assigned Changed where
  toCovers := covers_assigned
  wider _ _ := Assigned.changed
  declares declared := Relation.ReflTransGen.single (.inr declared)
  left := Changed.left

/-- **A block keeps to the outer relation, whatever it declares.** -/
theorem inBlock_throughout {names : String → Prop}
    {outer inner : Environment → Environment → Prop} (rules : Rules names outer inner)
    {step : Machine α} (h : Machine.Throughout inner step) :
    Machine.Throughout outer (Machine.inBlock step) := by
  intro state
  have inside := h state.block
  constructor
  · rw [Machine.outcome_inBlock]
    exact rules.left inside.changes
  · intro halt h
    rw [Machine.outcome_inBlock] at h
    exact inside.halts halt h

/-! ### Loops -/

section Loops

variable {related : Environment → Environment → Prop} [IsPreorder Environment related]

theorem loop_throughout {goOn : Machine Bool} {round : Machine Completion}
    {update : Machine Unit} (tested : Machine.Throughout related goOn)
    (rounds : Machine.Throughout related round)
    (updated : Machine.Throughout related update) (fuel : Nat) :
    Machine.Throughout related (loop goOn round update fuel) := by
  induction fuel with
  | zero => exact .throw .outOfFuel
  | succ fuel ih =>
    rw [loop]
    refine .bind tested fun holds => ?_
    split
    · refine .bind rounds fun completion => ?_
      cases completion with
      | broke => exact .pure _
      | returned value => exact .pure _
      | normal => exact .bind updated fun _ => ih
      | continued => exact .bind updated fun _ => ih
    · exact .pure _

theorem loopOnce_throughout {goOn : Machine Bool} {round : Machine Completion}
    (tested : Machine.Throughout related goOn)
    (rounds : Machine.Throughout related round) (fuel : Nat) :
    Machine.Throughout related (loopOnce goOn round fuel) := by
  induction fuel with
  | zero => exact .throw .outOfFuel
  | succ fuel ih =>
    have again : Machine.Throughout related
        (do if ← goOn then loopOnce goOn round fuel else return .normal) := by
      refine .bind tested fun holds => ?_
      split
      · exact ih
      · exact .pure _
    rw [loopOnce]
    refine .bind rounds fun completion => ?_
    cases completion with
    | broke => exact .pure _
    | returned value => exact .pure _
    | normal => exact again
    | continued => exact again

theorem loopOver_throughout {round : Value → Machine Completion}
    (rounds : ∀ value, Machine.Throughout related (round value)) (fuel : Nat) :
    ∀ cursor, Machine.Throughout related (loopOver round fuel cursor) := by
  induction fuel with
  | zero => exact fun _ => .throw .outOfFuel
  | succ fuel ih =>
    intro cursor
    rw [loopOver]
    refine .bind (.act _) fun next => ?_
    obtain ⟨element, cursor⟩ := next
    cases element with
    | none => exact .pure _
    | some value =>
      refine .bind (rounds value) fun completion => ?_
      cases completion with
      | broke => exact .pure _
      | returned value => exact .pure _
      | normal => exact ih cursor
      | continued => exact ih cursor

theorem startIteration_throughout (value : Value) :
    Machine.Throughout related (startIteration value) := by
  rw [startIteration]
  split
  · exact .throw (.fault _)
  · refine .bind .get fun state => ?_
    split
    · exact .pure _
    · exact .throw (.fault _)

end Loops

/-! ### Declarations -/

section Declarations

variable {names : String → Prop} {outer inner : Environment → Environment → Prop}
  [IsPreorder Environment outer] [IsPreorder Environment inner]

omit [IsPreorder Environment outer] [IsPreorder Environment inner] in
/-- A declaration without a value, or with one that its kind has taken. -/
theorem define_within (rules : Rules names outer inner) {name : String} {kind : Kind}
    {value : Option Value} {state : State} (taken : ∀ v, value = some v → kind.Takes v) :
    Machine.Within inner (Machine.define name kind value) state := by
  constructor
  · exact rules.declares ⟨name, kind, value, taken⟩
  · intro halt h
    cases h

/-- What is looked up of a kind is what stands in the place of the operation by then. -/
theorem find_ok {kind : Kind} {operation : KindOperation} {state behind : State}
    {found : Option Value}
    (h : Machine.outcome (Machine.act (Dispatch.find kind operation)) state =
      (.ok found, behind)) :
    found = kind.override? state.store operation ∧ behind = state := by
  obtain ⟨store, given, rfl⟩ := Machine.act_ok.mp h
  cases given
  exact ⟨rfl, rfl⟩

/-- A conversion by what had been looked up before gives a value that the kind takes. -/
theorem convert_takes {kind : Kind} {looked : Store} {state behind : State}
    {input value : Value}
    (h : Machine.outcome (Machine.act (Dispatch.convert
      (kind.override? looked .convert) kind input)) state = (.ok value, behind)) :
    kind.Takes value := by
  obtain ⟨store, given, rfl⟩ := Machine.act_ok.mp h
  exact .convert looked state.store store input given

/-- Names are declared one after the other. -/
theorem declare_cons (kind : Kind) (declarator : Declarator Value Kind)
    (rest : List (Declarator Value Kind)) :
    declare kind (declarator :: rest) = declare kind [declarator] >>= fun _ =>
      declare kind rest := by
  rw [declare, declare]
  cases declarator.value with
  | none => simp only [declare, bind_assoc, pure_bind]
  | some initial => simp only [declare, bind_assoc, pure_bind]

/-- **Names that are declared** keep to the inner relation. -/
theorem declare_throughout (rules : Rules names outer inner) (kind : Kind) :
    ∀ declared : List (Declarator Value Kind),
      (∀ name ∈ declared.flatMap Declarator.targets, names name) →
      Machine.Throughout inner (declare kind declared)
  | [], _ => by
    rw [declare]
    exact .pure _
  | ⟨_, name, value⟩ :: rest, within => by
    obtain ⟨inFirst, inRest⟩ := List.forall_mem_append.mp within
    have others := declare_throughout rules kind rest inRest
    intro state
    rw [declare]
    cases value with
    | none =>
      exact .bind (define_within rules fun _ h => by cases h) fun _ behind _ => others behind
    | some initial =>
      have evaluates := (expression_throughout rules.toCovers initial inFirst).mono rules.wider
      refine .bind (.act _) fun found looked h => ?_
      obtain ⟨rfl, rfl⟩ := find_ok h
      refine .bind (evaluates looked) fun input worked _ => ?_
      refine .bind (.act _) fun value converted h' => ?_
      refine .bind (define_within rules fun v same => ?_) fun _ behind _ => others behind
      cases same
      exact convert_takes h'

theorem enter_throughout (rules : Rules names outer inner) (init : ForInit Value Kind)
    (within : ∀ name ∈ init.targets, names name) : Machine.Throughout inner (enter init) :=
  match init, within with
  | .none, _ => .pure _
  | .declaration _ type declared, within => declare_throughout rules type.resolved declared within
  | .expressions values, within =>
    (effects_throughout rules.toCovers (values.map Prod.snd) within).mono rules.wider

end Declarations

/-! ### Rounds -/

/-- The condition of a `for` loop, which holds where there is none. -/
def goesOn (test : Option CheckedExpr) : Machine Bool :=
  test.elim (pure true) condition

theorem goesOn_throughout {names : String → Prop}
    {related : Environment → Environment → Prop} [IsPreorder Environment related]
    (covers : Covers names related) (test : Option CheckedExpr)
    (within : ∀ name ∈ test.elim [] Expr.targets, names name) :
    Machine.Throughout related (goesOn test) :=
  match test, within with
  | none, _ => .pure _
  | some _, within => condition_throughout covers within

/-- Brings the variable of a `for`-each into reach. -/
def bindElement (kind : Kind) (name : String) (element : Value) : Machine Unit := do
  let value ← Machine.act do Dispatch.convert (← Dispatch.find kind .convert) kind element
  Machine.define name kind (some value)

theorem bindElement_throughout {names : String → Prop}
    {outer inner : Environment → Environment → Prop} [IsPreorder Environment inner]
    (rules : Rules names outer inner) (kind : Kind) (name : String) (element : Value) :
    Machine.Throughout inner (bindElement kind name element) := by
  intro state
  refine .bind (.act _) fun value converted h => define_within rules fun v same => ?_
  cases same
  obtain ⟨store, given, rfl⟩ := Machine.act_ok.mp h
  exact .convert state.store state.store store element given

/-- One round of a `for`-each. -/
def round (fuel : Nat) (kind : Kind) (name : String) (body : CheckedStmt)
    (element : Value) : Machine Completion :=
  Machine.inBlock do
    bindElement kind name element
    statement fuel body

/-- A `for`-each as a loop over its rounds. -/
theorem statement_forEach (fuel : Nat) (position : Position) (type : TypeName Kind)
    (name : String) (iterable : CheckedExpr) (body : CheckedStmt) :
    statement fuel (.forEach position type name iterable body) = (do
      let cursor ← startIteration (← expression iterable)
      loopOver (round fuel type.resolved name body) fuel cursor) := by
  have unfolded : round fuel type.resolved name body = fun element => Machine.inBlock (do
      let value ← Machine.act do
        Dispatch.convert (← Dispatch.find type.resolved .convert) type.resolved element
      Machine.define name type.resolved (some value)
      statement fuel body) := by
    funext element
    simp only [round, bindElement, bind_assoc]
  rw [statement, unfolded]

/-! ### Statements -/

/-- A statement that declares nothing in the block around it. -/
def DeclaresNothing : CheckedStmt → Prop
  | .declaration .. => False
  | .ifThen _ _ thenBranch => DeclaresNothing thenBranch
  | .ifThenElse _ _ thenBranch elseBranch =>
    DeclaresNothing thenBranch ∧ DeclaresNothing elseBranch
  | .whileLoop _ _ body | .doLoop _ body _ => DeclaresNothing body
  | _ => True

mutual

/-- **A statement keeps to the outer relation if it declares nothing,** and to what both
relations are within in any case. -/
theorem statement_throughout {names : String → Prop}
    {outer inner : Environment → Environment → Prop} [IsPreorder Environment outer]
    [IsPreorder Environment inner] (rules : Rules names outer inner) (fuel : Nat) :
    ∀ (stmt : CheckedStmt) {related : Environment → Environment → Prop}
      [IsPreorder Environment related], (∀ name ∈ stmt.targets, names name) →
      (∀ a b, outer a b → related a b) →
      (DeclaresNothing stmt ∨ ∀ a b, inner a b → related a b) →
      Machine.Throughout related (statement fuel stmt)
  | .block _ inside, _, _, within, assigned, _ => by
    rw [statement]
    exact (inBlock_throughout rules (statements_throughout rules fuel inside within)).mono assigned
  | .empty _, _, _, _, _, _ => by
    rw [statement]
    exact .pure _
  | .declaration _ type declared, _, _, within, _, sort => by
    rw [statement]
    rcases sort with nothing | changed
    · exact nothing.elim
    · exact .bind ((declare_throughout rules type.resolved declared within).mono changed)
        fun _ => .pure _
  | .expression _ value, _, _, within, assigned, _ => by
    rw [statement]
    exact .bind ((expression_throughout rules.toCovers value within).mono assigned)
      fun _ => .pure _
  | .ifThen _ test thenBranch, _, _, within, assigned, sort => by
    obtain ⟨inTest, inThen⟩ := List.forall_mem_append.mp within
    rw [statement]
    refine .bind ((condition_throughout rules.toCovers inTest).mono assigned) fun holds => ?_
    split
    · exact statement_throughout rules fuel thenBranch inThen assigned sort
    · exact .pure _
  | .ifThenElse _ test thenBranch elseBranch, _, _, within, assigned, sort => by
    obtain ⟨inTest, inBranches⟩ := List.forall_mem_append.mp within
    obtain ⟨inThen, inElse⟩ := List.forall_mem_append.mp inBranches
    rw [statement]
    refine .bind ((condition_throughout rules.toCovers inTest).mono assigned) fun holds => ?_
    split
    · exact statement_throughout rules fuel thenBranch inThen assigned (sort.imp_left And.left)
    · exact statement_throughout rules fuel elseBranch inElse assigned (sort.imp_left And.right)
  | .whileLoop _ test body, _, _, within, assigned, sort => by
    obtain ⟨inTest, inBody⟩ := List.forall_mem_append.mp within
    rw [statement]
    exact loop_throughout ((condition_throughout rules.toCovers inTest).mono assigned)
      (statement_throughout rules fuel body inBody assigned sort) (.pure _) fuel
  | .doLoop _ body test, _, _, within, assigned, sort => by
    obtain ⟨inBody, inTest⟩ := List.forall_mem_append.mp within
    rw [statement]
    exact loopOnce_throughout ((condition_throughout rules.toCovers inTest).mono assigned)
      (statement_throughout rules fuel body inBody assigned sort) fuel
  | .forLoop _ init test update body, _, _, within, assigned, _ => by
    obtain ⟨inInit, within⟩ := List.forall_mem_append.mp within
    obtain ⟨inTest, within⟩ := List.forall_mem_append.mp within
    obtain ⟨inUpdate, inBody⟩ := List.forall_mem_append.mp within
    have tested := (goesOn_throughout rules.toCovers test inTest).mono rules.wider
    have rounds := statement_throughout rules fuel body inBody rules.wider (.inr fun _ _ => id)
    have updated := (effects_throughout rules.toCovers update inUpdate).mono rules.wider
    rw [statement]
    refine (inBlock_throughout rules ?_).mono assigned
    exact .bind (enter_throughout rules init inInit) fun _ =>
      loop_throughout tested rounds updated fuel
  | .forEach _ type name iterable body, _, _, within, assigned, _ => by
    obtain ⟨inIterable, inBody⟩ := List.forall_mem_append.mp within
    rw [statement_forEach]
    refine .bind ((expression_throughout rules.toCovers iterable inIterable).mono assigned)
      fun value => ?_
    refine .bind (startIteration_throughout value) fun cursor => ?_
    refine loopOver_throughout (fun element => ?_) fuel cursor
    have inside := statement_throughout rules fuel body inBody rules.wider (.inr fun _ _ => id)
    exact (inBlock_throughout rules (.bind (bindElement_throughout rules _ _ _)
      fun _ => inside)).mono assigned
  | .returns _ none, _, _, _, _, _ => by
    rw [statement]
    exact .pure _
  | .returns _ (some value), _, _, within, assigned, _ => by
    rw [statement]
    exact .bind ((expression_throughout rules.toCovers value within).mono assigned)
      fun _ => .pure _
  | .breaks _, _, _, _, _, _ => by
    rw [statement]
    exact .pure _
  | .continues _, _, _, _, _, _ => by
    rw [statement]
    exact .pure _

/-- **Statements in a row keep to the inner relation.** -/
theorem statements_throughout {names : String → Prop}
    {outer inner : Environment → Environment → Prop} [IsPreorder Environment outer]
    [IsPreorder Environment inner] (rules : Rules names outer inner) (fuel : Nat) :
    ∀ stmts : List CheckedStmt, (∀ name ∈ Stmt.targetsOfAll stmts, names name) →
      Machine.Throughout inner (statements fuel stmts)
  | [], _ => by
    rw [statements]
    exact .pure _
  | first :: rest, within => by
    obtain ⟨inFirst, inRest⟩ := List.forall_mem_append.mp within
    have started := statement_throughout rules fuel first inFirst rules.wider
      (.inr fun _ _ => id)
    rw [statements]
    refine .bind started fun completion => ?_
    cases completion with
    | normal => exact statements_throughout rules fuel rest inRest
    | broke => exact .pure _
    | continued => exact .pure _
    | returned value => exact .pure _

end

/-! ### Assignments and declarations -/

theorem declare_changing (kind : Kind) (declared : List (Declarator Value Kind)) :
    Changing (declare kind declared) :=
  declare_throughout rules_changed kind declared fun _ _ => trivial

theorem enter_changing (init : ForInit Value Kind) : Changing (enter init) :=
  enter_throughout rules_changed init fun _ _ => trivial

theorem goesOn_assigning (test : Option CheckedExpr) : Assigning (goesOn test) :=
  goesOn_throughout covers_assigned test fun _ _ => trivial

/-- **A statement changes the variables by assignments and declarations only.** -/
theorem statement_changing (fuel : Nat) (stmt : CheckedStmt) :
    Changing (statement fuel stmt) :=
  statement_throughout rules_changed fuel stmt (fun _ _ => trivial)
    (fun _ _ => Assigned.changed) (.inr fun _ _ => id)

/-- **Statements in a row change the variables by assignments and declarations only.** -/
theorem statements_changing (fuel : Nat) (stmts : List CheckedStmt) :
    Changing (statements fuel stmts) :=
  statements_throughout rules_changed fuel stmts fun _ _ => trivial

/-- **A statement that declares nothing changes the variables by assignments only.** -/
theorem statement_assigning (fuel : Nat) {stmt : CheckedStmt} (h : DeclaresNothing stmt) :
    Assigning (statement fuel stmt) :=
  statement_throughout rules_changed fuel stmt (fun _ _ => trivial) (fun _ _ => id) (.inl h)

theorem round_assigning (fuel : Nat) (kind : Kind) (name : String) (body : CheckedStmt)
    (element : Value) : Assigning (round fuel kind name body element) :=
  inBlock_throughout rules_changed (.bind (bindElement_throughout rules_changed kind name element)
    fun _ => statement_changing fuel body)

end Formulary.Eval
