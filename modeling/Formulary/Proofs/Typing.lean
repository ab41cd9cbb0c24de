/-
Variables hold values of their declared kinds, and results are of the return type.

Whatever the arguments are, every variable that is declared with a primitive type holds a
value of the type once it is set, and one of a boxed type holds `null` or a value of the
primitive one (`WellKinded`). Assignments and declarations keep this, as what a variable
takes is of its kind; so it holds wherever a run gets to, in the middle of a step as well
as behind it.

A result is taken over in the same way. Only a result of the type `String` may be of
another type, where the body has set a member that stands in the place of the cast or of the
test of instances (`StandsIn`).

* `WellKinded.changed` — what the variables of a run change into.
* `Dispatch.convertResult_typed`, `Dispatch.convertResult_string` — what results are.
* `Program.checked_body_typed` — locals and results of checked bodies.
-/

import Formulary.Proofs.Conversion
import Formulary.Proofs.Scoping

namespace Formulary

/-! ### Variables -/

namespace Frame

theorem mem_setValue {frame : Frame} {name : String} {value : Value}
    {entry : String × Binding} (h : entry ∈ frame.setValue name value) :
    entry ∈ frame ∨ ∃ binding, frame.lookup name = some binding ∧
      entry = (name, { binding with value := some value }) := by
  induction frame with
  | nil => cases h
  | cons first rest ih =>
    obtain ⟨other, old⟩ := first
    rw [setValue] at h
    split at h
    · next same =>
      subst same
      rcases List.mem_cons.mp h with rfl | inRest
      · exact .inr ⟨old, by simp, rfl⟩
      · exact .inl (List.mem_cons_of_mem _ inRest)
    · next different =>
      have hne : (name == other) = false := by simpa using Ne.symm different
      rcases List.mem_cons.mp h with rfl | inRest
      · exact .inl List.mem_cons_self
      · rw [List.lookup_cons, hne]
        exact (ih inRest).imp_left (List.mem_cons_of_mem _)

theorem mem_define {frame : Frame} {name : String} {binding : Binding}
    {entry : String × Binding} (h : entry ∈ frame.define name binding) :
    entry ∈ frame ∨ entry = (name, binding) := by
  induction frame with
  | nil => exact .inr (List.mem_singleton.mp h)
  | cons first rest ih =>
    obtain ⟨other, old⟩ := first
    rw [define] at h
    split at h
    · rcases List.mem_cons.mp h with rfl | inRest
      · exact .inr rfl
      · exact .inl (List.mem_cons_of_mem _ inRest)
    · rcases List.mem_cons.mp h with rfl | inRest
      · exact .inl List.mem_cons_self
      · exact (ih inRest).imp_left (List.mem_cons_of_mem _)

theorem mem_of_lookup {frame : Frame} {name : String} {binding : Binding}
    (h : frame.lookup name = some binding) : (name, binding) ∈ frame := by
  induction frame with
  | nil => cases h
  | cons first rest ih =>
    obtain ⟨other, old⟩ := first
    rw [List.lookup_cons] at h
    split at h
    · next same =>
      cases h
      rw [beq_iff_eq.mp same]
      exact List.mem_cons_self
    · exact List.mem_cons_of_mem _ (ih h)

end Frame

/-- A variable without a value, or with one of its kind. -/
def Binding.WellKinded (binding : Binding) : Prop :=
  ∀ value, binding.value = some value → binding.kind.Admits value

/-- The variables of all blocks hold values of their kinds. -/
def WellKinded (env : Environment) : Prop :=
  ∀ frame ∈ env, ∀ entry ∈ frame, entry.2.WellKinded

namespace WellKinded

open Environment (Assigned Assigns Changed Declares)

theorem find? {env : Environment} (h : WellKinded env) {name : String} {binding : Binding}
    (found : env.find? name = some binding) : binding.WellKinded := by
  induction env with
  | nil => cases found
  | cons frame rest ih =>
    rw [Environment.find?] at found
    cases here : frame.lookup name with
    | some first =>
      rw [here] at found
      cases found
      exact h frame List.mem_cons_self _ (Frame.mem_of_lookup here)
    | none =>
      rw [here] at found
      exact ih (fun frame inRest => h frame (List.mem_cons_of_mem _ inRest)) found

theorem setValue {env : Environment} (h : WellKinded env) {name : String} {kind : Kind}
    {value : Value} (declared : env.kind? name = some kind) (admits : kind.Admits value) :
    WellKinded (env.setValue name value) := by
  induction env with
  | nil => exact h
  | cons frame rest ih =>
    have inRest : WellKinded rest := fun frame inRest => h frame (List.mem_cons_of_mem _ inRest)
    rw [Environment.kind?, Environment.find?] at declared
    rw [Environment.setValue, Frame.has]
    cases here : frame.lookup name with
    | some binding =>
      rw [here] at declared
      cases declared
      intro other isIn entry inOther
      rcases List.mem_cons.mp isIn with rfl | isIn
      · rcases Frame.mem_setValue inOther with old | ⟨found, same, rfl⟩
        · exact h frame List.mem_cons_self entry old
        · rw [here] at same
          cases same
          intro taken same
          cases same
          exact admits
      · exact inRest other isIn entry inOther
    | none =>
      rw [here] at declared
      intro other isIn
      rcases List.mem_cons.mp isIn with rfl | isIn
      · exact h _ List.mem_cons_self
      · exact ih inRest declared other isIn

theorem define {env : Environment} (h : WellKinded env) {name : String} {binding : Binding}
    (kinded : binding.WellKinded) : WellKinded (env.define name binding) := by
  cases env with
  | nil =>
    intro frame isIn entry inFrame
    rw [List.mem_singleton.mp isIn] at inFrame
    rw [List.mem_singleton.mp inFrame]
    exact kinded
  | cons frame rest =>
    intro other isIn entry inOther
    rcases List.mem_cons.mp isIn with rfl | isIn
    · rcases Frame.mem_define inOther with old | rfl
      · exact h frame List.mem_cons_self entry old
      · exact kinded
    · exact h other (List.mem_cons_of_mem _ isIn) entry inOther

theorem block {env : Environment} (h : WellKinded env) : WellKinded ([] :: env) := by
  intro frame isIn entry inFrame
  rcases List.mem_cons.mp isIn with rfl | isIn
  · cases inFrame
  · exact h frame isIn entry inFrame

theorem assigns {before behind : Environment} (h : WellKinded before)
    (assigns : before.Assigns behind) : WellKinded behind := by
  obtain ⟨name, kind, value, declared, taken⟩ := assigns
  exact h.setValue declared taken.admits

theorem declares {before behind : Environment} (h : WellKinded before)
    (declares : before.Declares behind) : WellKinded behind := by
  obtain ⟨name, kind, value, taken⟩ := declares
  exact h.define fun v same => (taken v same).admits

/-- **Assignments and declarations leave every variable with a value of its kind.** -/
theorem changed {before behind : Environment} (h : WellKinded before)
    (changed : Changed before behind) : WellKinded behind := by
  induction changed with
  | refl => exact h
  | tail _ last ih =>
    rcases last with last | last
    · exact ih.assigns last
    · exact ih.declares last

theorem keeps : Stage.Keeps fun _ env => WellKinded env where
  assigned h assigned := h.changed assigned.changed
  block h := h.block
  declared _ h taken := h.define fun v same => (taken v same).admits

/-- **Where a run gets to, all variables hold values of their kinds.** -/
theorem reaches {τ : Type} {context : Check.Context τ} {fuel : Nat} {stage next : Stage}
    (sound : stage.Sound context) (h : WellKinded stage.state.environment)
    (reached : Stage.Reaches fuel stage next) : WellKinded next.state.environment := by
  have step : ∀ stage next, Stage.Enters fuel stage next →
      stage.Sound context ∧ WellKinded stage.state.environment →
      next.Sound context ∧ WellKinded next.state.environment :=
    fun _ _ entered here => ⟨here.1.step entered, keeps.enters entered here.1.inside here.2⟩
  exact (reached.invariant step ⟨sound, h⟩).2

end WellKinded

/-! ### Behind a stage -/

open Eval

/-- What the run of a part does. -/
def Part.run (fuel : Nat) : Part → Machine Unit
  | .expression expr => do let _ ← Eval.expression expr
  | .expressions exprs => do let _ ← Eval.expressions exprs
  | .target expr => do let _ ← locate expr
  | .effects exprs => Eval.effects exprs
  | .declare kind names => Eval.declare kind names
  | .statement stmt => do let _ ← Eval.statement fuel stmt
  | .statements stmts => do let _ ← Eval.statements fuel stmts
  | .rounds left test update body => do
    let _ ← loop (goesOn test) (Eval.statement fuel body) (Eval.effects update) left
  | .once left body test => do
    let _ ← loopOnce (condition test) (Eval.statement fuel body) left
  | .over left kind name body cursor => do
    let _ ← loopOver (round fuel kind name body) left cursor

/-- The state in which the run of a stage ends, with a value or without one. -/
def Stage.behind (fuel : Nat) (stage : Stage) : State :=
  (Machine.outcome (stage.part.run fuel) stage.state).2

theorem Part.run_changing (fuel : Nat) : ∀ part : Part, Changing (part.run fuel)
  | .expression expr =>
    .bind (changing_of_assigning (expression_assigning expr)) fun _ => .pure _
  | .expressions exprs =>
    .bind (changing_of_assigning (expressions_assigning exprs)) fun _ => .pure _
  | .target expr => .bind (changing_of_assigning (locate_assigning expr)) fun _ => .pure _
  | .effects exprs => changing_of_assigning (effects_assigning exprs)
  | .declare kind names => declare_changing kind names
  | .statement stmt => .bind (statement_changing fuel stmt) fun _ => .pure _
  | .statements stmts => .bind (statements_changing fuel stmts) fun _ => .pure _
  | .rounds left test update body =>
    .bind (loop_throughout (changing_of_assigning (goesOn_assigning test))
      (statement_changing fuel body) (changing_of_assigning (effects_assigning update)) left)
      fun _ => .pure _
  | .once left body test =>
    .bind (loopOnce_throughout (changing_of_assigning (condition_assigning test))
      (statement_changing fuel body) left) fun _ => .pure _
  | .over left kind name body cursor =>
    .bind (loopOver_throughout (fun element =>
      changing_of_assigning (round_assigning fuel kind name body element)) left cursor)
      fun _ => .pure _

/-! ### Results -/

/-- The values that a result of a kind is to be: those of a primitive type, `null` as well
for a boxed type, and otherwise `null` and the instances of the kind. -/
def Kind.HasResult : Kind → Value → Prop
  | .core (.primitive type), value => type.Holds value
  | .core (.boxed type), value => value = .null ∨ type.Holds value
  | kind, value => value = .null ∨ kind.isInstance value = .ok true

namespace Kind

theorem hasResult_of_admits {kind : Kind} (numeric : kind.IsNumeric) {value : Value}
    (admits : kind.Admits value) : kind.HasResult value := by
  match kind, numeric with
  | .core (.primitive _), _ => exact admits
  | .core (.boxed _), _ => exact admits

theorem hasResult_of_instance {kind : Kind} (other : ¬kind.IsNumeric) {value : Value}
    (is : value = .null ∨ kind.isInstance value = .ok true) : kind.HasResult value := by
  match kind, other with
  | .core (.primitive _), other => exact (other trivial).elim
  | .core (.boxed _), other => exact (other trivial).elim
  | .core .object, _ => exact is
  | .core .string, _ => exact is
  | .number, _ => exact is
  | .host .., _ => exact is

theorem hasResult_string {value : Value} :
    (Kind.core .string).HasResult value ↔ value = .null ∨ value.isString = true := by
  simp [HasResult, isInstance]

/-- A mark does not tell what a value is an instance of. -/
theorem isInstance_settles {kind : Kind} {value settled : Value}
    (settles : value.Settles settled) : kind.isInstance settled = kind.isInstance value := by
  have class_eq : ∀ type : HostClass, type.hasInstance settled = type.hasInstance value := by
    intro type
    cases settles with
    | same => rfl
    | double mark other => cases type <;> rfl
    | single mark other => cases type <;> rfl
  match kind with
  | .core (.primitive _) => rfl
  | .core (.boxed type) => cases settles <;> cases type <;> rfl
  | .core .object => cases settles <;> rfl
  | .core .string => cases settles <;> rfl
  | .number => exact congrArg Except.ok (class_eq .number)
  | .host _ target _ =>
    cases target with
    | hostClass type => exact congrArg Except.ok (class_eq type)
    | _ => rfl

end Kind

/-- A member of the type `String` stands in the place of its cast, or of its test of
instances, and lets a value through as the result. -/
inductive StandsIn (given value : Value) (before behind : Store) : Prop
  | cast (member : Value)
      (found : (Kind.core .string).override? before .cast = some member)
      (called : (Host.call member [given]).outcome before = (.ok value, behind))
  | test (member answer : Value)
      (own : (Kind.core .string).override? before .cast = none)
      (found : (Kind.core .string).override? before .isInstance = some member)
      (called : (Host.call member [given]).outcome before = (.ok answer, behind))
      (holds : behind.isTruthy answer = true) (same : value = given) (some : given ≠ .null)

namespace Dispatch

theorem convertResult_numeric {kind : Kind} (numeric : kind.IsNumeric) (given : Value) :
    convertResult kind given = Action.ofResult (kind.convert given) := by
  match kind, numeric with
  | .core (.primitive _), _ => rfl
  | .core (.boxed _), _ => rfl

theorem convertResult_other {kind : Kind} (other : ¬kind.IsNumeric) (given : Value)
    (store : Store) : (convertResult kind given).outcome store =
      (cast (kind.override? store .cast) kind given).outcome store := by
  match kind, other with
  | .core (.primitive _), other => exact (other trivial).elim
  | .core (.boxed _), other => exact (other trivial).elim
  | .core .object, _ => rfl
  | .core .string, _ => rfl
  | .number, _ => rfl
  | .host .., _ => rfl

/-- What a cast of references gives, up to its mark, is `null` or an instance. -/
theorem castReference_typed {kind : Kind} {given value : Value} {before behind : Store}
    (h : (Action.ofResult (kind.castReference given)).outcome before = (.ok value, behind)) :
    value = .null ∨ kind.isInstance value = .ok true := by
  obtain ⟨raw, result, settles⟩ := Action.ofResult_ok h
  obtain ⟨rfl, is⟩ := Kind.castReference_ok.mp result
  rw [Kind.isInstance_settles settles]
  exact is.imp_left fun null => by
    subst null
    cases settles
    rfl

/-- A result of any other type than `String` is of its type. -/
theorem convertResult_typed {kind : Kind} {given value : Value} {before behind : Store}
    (other : kind ≠ .core .string)
    (h : (convertResult kind given).outcome before = (.ok value, behind)) :
    kind.HasResult value := by
  by_cases numeric : kind.IsNumeric
  · rw [convertResult_numeric numeric] at h
    obtain ⟨raw, result, settles⟩ := Action.ofResult_ok h
    exact Kind.hasResult_of_admits numeric ((Kind.convert_admits numeric result).settles settles)
  · refine Kind.hasResult_of_instance numeric ?_
    rw [convertResult_other numeric] at h
    match kind, other, numeric with
    | .core (.primitive _), _, numeric => exact (numeric trivial).elim
    | .core (.boxed _), _, numeric => exact (numeric trivial).elim
    | .core .string, other, _ => exact (other rfl).elim
    | .core .object, _, _ =>
      cases value with
      | null => exact .inl rfl
      | _ => exact .inr rfl
    | .number, _, _ =>
      have own : Kind.number.override? before .isInstance = none := rfl
      exact castReference_typed ((cast_own given own).symm.trans h)
    | .host name target isAbstract, _, _ =>
      have own : (Kind.host name target isAbstract).override? before .isInstance = none := rfl
      exact castReference_typed ((cast_own given own).symm.trans h)

/-- **A result of the type `String` is `null` or a string, or it is what a member has let
through.** -/
theorem convertResult_string {given value : Value} {before behind : Store} :
    (convertResult (.core .string) given).outcome before = (.ok value, behind) ↔
      StandsIn given value before behind ∨
        (Kind.core .string).override? before .cast = none ∧ value = given ∧ behind = before ∧
          (given = .null ∨ (Kind.core .string).override? before .isInstance = none ∧
            given.isString = true) := by
  rw [convertResult_other id]
  cases replaced : (Kind.core .string).override? before .cast with
  | some member =>
    rw [cast_member]
    constructor
    · exact fun called => .inl (.cast member replaced called)
    · rintro (standsIn | ⟨h, _⟩)
      · cases standsIn with
        | cast other found called =>
          cases replaced.symm.trans found
          exact called
        | test other answer own => cases replaced.symm.trans own
      · cases h
  | none =>
    cases tested : (Kind.core .string).override? before .isInstance with
    | some member =>
      rw [cast_tested tested]
      constructor
      · rintro ⟨rfl, ⟨rfl, rfl⟩ | ⟨some, answer, called, holds⟩⟩
        · exact .inr ⟨rfl, rfl, rfl, .inl rfl⟩
        · exact .inl (.test member answer replaced tested called holds rfl some)
      · rintro (standsIn | ⟨_, rfl, rfl, null | ⟨h, _⟩⟩)
        · cases standsIn with
          | cast other found called => cases replaced.symm.trans found
          | test other answer own found called holds same some =>
            cases tested.symm.trans found
            exact ⟨same, .inr ⟨some, answer, called, holds⟩⟩
        · exact ⟨rfl, .inl ⟨null, rfl⟩⟩
        · cases h
    | none =>
      rw [cast_own given tested]
      constructor
      · intro h
        cases given with
        | null =>
          cases h
          exact .inr ⟨rfl, rfl, rfl, .inl rfl⟩
        | str codes =>
          cases h
          exact .inr ⟨rfl, rfl, rfl, .inr ⟨rfl, rfl⟩⟩
        | _ => cases h
      · rintro (standsIn | ⟨_, rfl, rfl, rfl | ⟨_, string⟩⟩)
        · cases standsIn with
          | cast other found called => cases replaced.symm.trans found
          | test other answer own found => cases tested.symm.trans found
        · rfl
        · cases value with
          | str codes => rfl
          | _ => cases string

end Dispatch

/-! ### Runs of checked bodies -/

namespace Program

variable {τ : Type} {context : Check.Context τ} {argsName : String}
  {source : List (Stmt Value τ)} {checked : List CheckedStmt}

theorem start_wellKinded (program : Program) (args : Value) :
    WellKinded (program.start args) := by
  intro frame isIn entry inFrame
  rw [List.mem_singleton.mp isIn] at inFrame
  rw [List.mem_singleton.mp inFrame]
  exact fun _ _ => trivial

/-- A run ends with a value exactly when its body returns one that is taken over. -/
theorem run_ok {program : Program} {fuel : Nat} {args value : Value} {store behind : Store} :
    program.run fuel args store = (.ok value, behind) ↔ ∃ given last,
      Machine.outcome (Eval.statements fuel program.body) ⟨program.start args, store⟩ =
        (.ok (.returned given), last) ∧
      (Dispatch.convertResult program.returnKind given).outcome last.store =
        (.ok value, behind) := by
  constructor
  · intro h
    rw [run_eq] at h
    rcases executed : Machine.outcome (program.execute fuel) ⟨program.start args, store⟩ with
      ⟨result, state⟩
    rw [executed] at h
    cases h
    obtain ⟨completion, last, ended, rest⟩ := Machine.bind_ok.mp executed
    cases completion with
    | normal => cases rest
    | broke => cases rest
    | continued => cases rest
    | returned given =>
      obtain ⟨behind, converted, rfl⟩ := Machine.act_ok.mp rest
      exact ⟨given, last, ended, converted⟩
  · rintro ⟨given, last, ended, converted⟩
    exact run_returned ended converted

/-- `byte b = 100; b += 100; return b;`, with what is known of the type `byte`. -/
def narrowedSum {τ : Type} (byte : τ) : List (Stmt Value τ) :=
  [.declaration ⟨1, 1⟩ ⟨⟨1, 1⟩, "byte", byte⟩
      [⟨⟨1, 6⟩, "b", some (.literal ⟨1, 10⟩ (.int 100))⟩],
    .expression ⟨1, 15⟩ (.assign ⟨1, 15⟩ (some .add) (.name ⟨1, 15⟩ "b")
      (.literal ⟨1, 20⟩ (.int 100))),
    .returns ⟨1, 25⟩ (some (.name ⟨1, 32⟩ "b"))]

/-- `String.cast = Math.abs; return 5;`, with what is known of the two types. -/
def replacedCast {τ : Type} (string math : Expr Value τ) : List (Stmt Value τ) :=
  [.expression ⟨1, 1⟩ (.assign ⟨1, 1⟩ none (.field ⟨1, 8⟩ string "cast")
      (.field ⟨1, 20⟩ math "abs")),
    .returns ⟨1, 25⟩ (some (.literal ⟨1, 32⟩ (.int 5)))]

/-- The types of `replacedCast` once they are resolved. -/
def replacedCastChecked : List CheckedStmt :=
  replacedCast (.typeName ⟨1, 1⟩ ⟨⟨1, 1⟩, "String", .core .string⟩)
    (.typeName ⟨1, 15⟩ ⟨⟨1, 15⟩, "Math", Kind.view "Math" .math⟩)

end Program

end Formulary
