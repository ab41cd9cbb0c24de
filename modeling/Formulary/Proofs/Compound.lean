/-
Compound assignments and steps by one.

`x op= e` takes its result over with a cast, and `x = (T) (x op e)` casts it and converts it
afterwards. The conversion accepts what the cast has given and leaves it as it is, so that the
two come to the same. Only a type that a body can set members on can tell them apart: the cast
form looks the cast up before `e` is evaluated, and it alone asks for the conversion.

* `Dispatch.convert_cast` — a conversion behind a cast.
* `Eval.compound_sum` — a compound assignment is the sum, then an assignment that casts.
* `Eval.compound_assignment` — both forms, and the steps by one.
-/

import Formulary.Proofs.Evaluation
import Formulary.Proofs.Unboxing

namespace Formulary

/-! ### Conversions of what has been cast -/

namespace Primitive

/-- A conversion to a primitive type refuses no value of the type. -/
theorem Holds.convert {type : Primitive} {value : Value} (holds : type.Holds value) :
    type.convert value = type.cast value := by
  cases type <;> cases value <;> first | exact holds.elim | rfl

end Primitive

namespace Kind

theorem convert_other {kind : Kind} (other : ¬kind.IsNumeric) (value : Value) :
    kind.convert value = .ok value := by
  match kind, other with
  | .core (.primitive _), other => exact (other trivial).elim
  | .core (.boxed _), other => exact (other trivial).elim
  | .core .object, _ => rfl
  | .core .string, _ => rfl
  | .number, _ => rfl
  | .host .., _ => rfl

/-- A conversion leaves what a cast to a numeric type has given as it is, up to its mark. -/
theorem convert_cast {kind : Kind} (numeric : kind.IsNumeric) {input value settled : Value}
    (cast : kind.cast input = .ok value) (settles : value.Settles settled) :
    ∃ again, kind.convert settled = .ok again ∧ settled.Settles again := by
  match kind, numeric with
  | .core (.primitive type), _ =>
    obtain ⟨again, recast, same⟩ := Primitive.cast_again cast settles
    have holds := (Primitive.cast_holds cast).settles settles
    exact ⟨again, holds.convert.trans recast, same⟩
  | .core (.boxed type), _ =>
    obtain ⟨-, rfl⟩ | ⟨-, cast⟩ := cast_boxed cast
    · cases settles
      exact ⟨.null, rfl, .same _⟩
    · obtain ⟨again, recast, same⟩ := Primitive.cast_again cast settles
      have holds := (Primitive.cast_holds cast).settles settles
      have given : settled ≠ .null := by
        rintro rfl
        cases type <;> exact holds
      exact ⟨again, by rw [convert, if_neg given, holds.convert, recast], same⟩

end Kind

/-- Stores that differ at most in the mark of the next result that is no number. -/
structure Store.Agrees (store other : Store) : Prop where
  objects : other.objects = store.objects
  settings : other.settings = store.settings

theorem Store.Agrees.refl (store : Store) : store.Agrees store :=
  ⟨rfl, rfl⟩

/-- Giving a result its mark changes nothing else in the store. -/
theorem Action.settle_agrees (value : Value) (store : Store) :
    ∃ settled behind, (settle value).outcome store = (.ok settled, behind) ∧
      value.Settles settled ∧ store.Agrees behind := by
  unfold settle
  split
  · split
    · exact ⟨_, _, rfl, .double .., ⟨rfl, rfl⟩⟩
    · exact ⟨_, _, rfl, .same _, .refl _⟩
  · split
    · exact ⟨_, _, rfl, .single .., ⟨rfl, rfl⟩⟩
    · exact ⟨_, _, rfl, .same _, .refl _⟩
  · exact ⟨_, _, rfl, .same _, .refl _⟩

namespace Dispatch

/-- **A conversion behind a cast to the same kind** leaves the value as it is, up to its
mark. -/
theorem convert_cast {kind : Kind} {looked before behind : Store} {input value : Value}
    (cast : (cast (kind.override? looked .cast) kind input).outcome before =
      (.ok value, behind)) (last : Store) :
    ∃ again final, (convert none kind value).outcome last = (.ok again, final) ∧
      value.Settles again ∧ last.Agrees final := by
  have converted : ∃ again, kind.convert value = .ok again ∧ value.Settles again := by
    by_cases numeric : kind.IsNumeric
    · rw [numeric.override?_eq, cast_own _ (numeric.override?_eq ..)] at cast
      obtain ⟨raw, cast, settles⟩ := Action.ofResult_ok cast
      exact Kind.convert_cast numeric cast settles
    · exact ⟨value, Kind.convert_other numeric value, .same value⟩
  obtain ⟨again, converted, same⟩ := converted
  obtain ⟨settled, final, ended, settles, agrees⟩ := Action.settle_agrees again last
  refine ⟨settled, final, ?_, same.trans settles, agrees⟩
  have unfolded : (convert none kind value).outcome last =
      (Action.ofResult (kind.convert value)).outcome last := rfl
  rw [unfolded, converted]
  exact ended

end Dispatch

namespace Eval

open Machine (outcome)

variable {state : State} {name : String} {kind : Kind}

/-! ### A compound assignment in two parts -/

theorem locate_name (position : Position) {binding : Binding}
    (declared : state.environment.find? name = some binding) :
    outcome (locate (.name position name)) state =
      (.ok (.variable name binding.kind), state) := by
  rw [locate, Machine.outcome_bind, Machine.outcome_binding, declared]
  rfl

/-- A compound assignment to a variable is the sum of the variable and the operand, and then an
assignment that casts. -/
theorem compound_sum {binding : Binding}
    (declared : state.environment.find? name = some binding) (op : BinaryOp)
    (operand : CheckedExpr) (p q r s : Position) :
    outcome (expression (.assign p (some op) (.name q name) operand)) state =
      outcome (do
        let sum ← expression (.binary r op (.name s name) operand)
        (Location.variable name binding.kind).assign true sum) state := by
  have read : (Location.variable name binding.kind).read = Machine.valueOf name := rfl
  have whole : expression (.assign p (some op) (.name q name) operand) = (do
      let location ← locate (.name q name)
      let old ← location.read
      let result ← Machine.act (Operation.binary op old (← expression operand))
      location.assign true result) := by rw [expression]
  have sum : expression (.binary r op (.name s name) operand) = (do
      let left ← Machine.valueOf name
      Machine.act (Operation.binary op left (← expression operand))) := by
    rw [expression, expression]
  rw [whole, sum, Machine.outcome_bind_ok (locate_name q declared), read]
  simp only [bind_assoc]

/-- An assignment to a variable: the value is adapted and put in its place. -/
theorem assign_variable (narrowing : Bool) (value : Value) (state : State) :
    outcome ((Location.variable name kind).assign narrowing value) state =
      match outcome ((Location.variable name kind).adapt narrowing value) state with
      | (.ok taken, behind) => (.ok taken,
          { behind with environment := behind.environment.setValue name taken })
      | (.error halt, behind) => (.error halt, behind) := by
  rw [Location.assign, Machine.outcome_bind]
  rcases outcome ((Location.variable name kind).adapt narrowing value) state with
    ⟨_ | _, _⟩ <;> rfl

/-! ### Both forms -/

/-- How two assignments to a variable end alike: both halt for the same reason in the same
state, or both have put a value in its place, one value up to its mark. -/
inductive EndsAlike (name : String) :
    Except Halt Value × State → Except Halt Value × State → Prop
  | halt (halt : Halt) (state : State) : EndsAlike name (.error halt, state) (.error halt, state)
  | assigned {value other : Value} (env : Environment) {store last : Store}
      (settles : value.Settles other) (agrees : store.Agrees last) :
      EndsAlike name (.ok value, ⟨env.setValue name value, store⟩)
        (.ok other, ⟨env.setValue name other, last⟩)

/-- While a sum and its cast are evaluated, no member comes to stand in the place of the cast
of a kind or of its conversion. -/
structure Undisturbed (kind : Kind) (sum narrowed : CheckedExpr) (state : State) : Prop where
  cast : ∀ value behind, outcome (expression sum) state = (.ok value, behind) →
    kind.override? behind.store .cast = kind.override? state.store .cast
  convert : ∀ value behind, outcome (expression narrowed) state = (.ok value, behind) →
    kind.override? behind.store .convert = none

/-- A kind that no member can be set on is never disturbed. -/
theorem Undisturbed.closed (closed : kind.isOpen = false) (sum narrowed : CheckedExpr)
    (state : State) : Undisturbed kind sum narrowed state :=
  ⟨fun _ _ _ => by rw [Kind.override?_closed closed, Kind.override?_closed closed],
    fun _ _ _ => Kind.override?_closed closed ..⟩

/-- A cast whose lookup comes before its operand. -/
theorem cast_bind (position : Position) (type : TypeName Kind) (operand : CheckedExpr)
    (state : State) :
    outcome (expression (.cast position type operand)) state =
      outcome (do
        let value ← expression operand
        Machine.act (Dispatch.cast (type.resolved.override? state.store .cast) type.resolved
          value)) state := by
  rw [expression, Machine.outcome_bind]
  rfl

/-- **A compound assignment is an assignment of the cast of the sum.** -/
theorem compound_expanded {binding : Binding}
    (declared : state.environment.find? name = some binding) (op : BinaryOp)
    (operand : CheckedExpr) {type : TypeName Kind} (typed : type.resolved = binding.kind)
    (p q r s t u : Position)
    (undisturbed : type.resolved.isOpen = true → Undisturbed type.resolved
      (.binary r op (.name s name) operand)
      (.cast t type (.binary r op (.name s name) operand)) state) :
    EndsAlike name
      (outcome (expression (.assign p (some op) (.name q name) operand)) state)
      (outcome (expression (.assign u none (.name q name)
        (.cast t type (.binary r op (.name s name) operand)))) state) := by
  have undisturbed : Undisturbed type.resolved (.binary r op (.name s name) operand)
      (.cast t type (.binary r op (.name s name) operand)) state := by
    by_cases isOpen : type.resolved.isOpen = true
    · exact undisturbed isOpen
    · exact .closed (Bool.not_eq_true _ ▸ isOpen) ..
  have expanded : expression (.assign u none (.name q name)
      (.cast t type (.binary r op (.name s name) operand))) = (do
        let location ← locate (.name q name)
        location.assign false
          (← expression (.cast t type (.binary r op (.name s name) operand)))) := by
    rw [expression]
  rw [compound_sum declared op operand p q r s, expanded,
    Machine.outcome_bind_ok (locate_name q declared), ← typed]
  generalize Expr.binary r op (.name s name) operand = sum at undisturbed ⊢
  rcases summed : outcome (expression sum) state with ⟨halt | value, between⟩
  · have casts : outcome (expression (.cast t type sum)) state = (.error halt, between) := by
      rw [cast_bind, Machine.outcome_bind_error summed]
    rw [Machine.outcome_bind_error summed, Machine.outcome_bind_error casts]
    exact .halt halt between
  · have looked := undisturbed.cast value between summed
    have casts : outcome (expression (.cast t type sum)) state =
        outcome (Machine.act (Dispatch.cast (type.resolved.override? between.store .cast)
          type.resolved value)) between := by
      rw [cast_bind, Machine.outcome_bind_ok summed, looked]
    have adapts : outcome ((Location.variable name type.resolved).adapt true value) between =
        outcome (Machine.act (Dispatch.cast (type.resolved.override? between.store .cast)
          type.resolved value)) between := rfl
    rw [Machine.outcome_bind_ok summed, assign_variable, adapts]
    rcases taken : outcome (Machine.act (Dispatch.cast
        (type.resolved.override? between.store .cast) type.resolved value)) between with
      ⟨halt | cast, behind⟩
    · rw [Machine.outcome_bind_error (casts.trans taken)]
      exact .halt halt behind
    · obtain ⟨store, given, rfl⟩ := Machine.act_ok.mp taken
      obtain ⟨again, final, converted, settles, agrees⟩ :=
        Dispatch.convert_cast given store
      have own := undisturbed.convert cast _ (casts.trans taken)
      have adapted : outcome ((Location.variable name type.resolved).adapt false cast)
          { between with store } = (.ok again, { between with store := final }) := by
        refine Machine.act_ok.mpr ⟨final, ?_, rfl⟩
        rw [← converted, ← own]
        rfl
      rw [Machine.outcome_bind_ok (casts.trans taken), assign_variable, adapted]
      exact .assigned between.environment settles agrees

/-! ### Steps by one -/

/-- A step in front of its target is a compound assignment of one. -/
theorem step_before (op : StepOp) (target : CheckedExpr) (p q r : Position) :
    expression (.step p op target true) =
      expression (.assign q (some op.toBinary) target (.literal r (.int 1))) := by
  rw [expression, expression, expression]
  simp

/-- A step behind a variable changes it as a compound assignment of one does, and gives the
value that it had before. -/
theorem step_behind {binding : Binding}
    (declared : state.environment.find? name = some binding) (op : StepOp)
    (p q r s : Position) :
    let assigned := outcome
      (expression (.assign q (some op.toBinary) (.name r name) (.literal s (.int 1)))) state
    outcome (expression (.step p op (.name r name) false)) state =
      (do let _ ← assigned.1; (outcome (Machine.valueOf name) state).1, assigned.2) := by
  intro assigned
  let next (old : Value) (ends : Value → Value → Value) : Machine Value := do
    let result ← Machine.act (Operation.binary op.toBinary old (.int 1))
    let new ← (Location.variable name binding.kind).assign true result
    return ends old new
  have split (before : Bool) (ends : Value → Value → Value)
      (h : ∀ old new, (if before then new else old) = ends old new) :
      outcome (expression (.step p op (.name r name) before)) state =
        outcome (do next (← Machine.valueOf name) ends) state := by
    rw [expression, Machine.outcome_bind_ok (locate_name r declared)]
    simp only [next, ← h]
    rfl
  have same : assigned = outcome (do next (← Machine.valueOf name) fun _ new => new) state := by
    rw [← split true (fun _ new => new) fun _ _ => rfl, step_before op _ p q s]
  rw [split false (fun old _ => old) fun _ _ => rfl, same, Machine.outcome_bind,
    Machine.outcome_bind]
  rcases outcome (Machine.valueOf name) state with ⟨halt | old, behind⟩
  · rfl
  · simp only [next, Machine.outcome_bind]
    rcases outcome (Machine.act (Operation.binary op.toBinary old (.int 1))) behind with
      ⟨halt | result, last⟩
    · rfl
    · simp only
      rcases outcome ((Location.variable name binding.kind).assign true result) last with
        ⟨halt | new, last⟩ <;> rfl

/-! ### Compound assignments -/

/-- **Compound assignments and steps by one.** For every variable in reach, `x op= e` ends as
`x = (T) (x op e)` does, whatever `e` does, unless a member comes to stand in the place of an
operation of an open type `T`. A step in front of the variable is a compound assignment of one;
a step behind it changes the same and gives the old value. -/
theorem compound_assignment {binding : Binding}
    (declared : state.environment.find? name = some binding) {type : TypeName Kind}
    (typed : type.resolved = binding.kind) (p q r s t u : Position) :
    (∀ (op : BinaryOp) (operand : CheckedExpr),
      (type.resolved.isOpen = true → Undisturbed type.resolved
        (.binary r op (.name s name) operand)
        (.cast t type (.binary r op (.name s name) operand)) state) →
      EndsAlike name
        (outcome (expression (.assign p (some op) (.name q name) operand)) state)
        (outcome (expression (.assign u none (.name q name)
          (.cast t type (.binary r op (.name s name) operand)))) state)) ∧
    ∀ op : StepOp,
      let assigned := outcome
        (expression (.assign p (some op.toBinary) (.name q name) (.literal r (.int 1)))) state
      outcome (expression (.step s op (.name q name) true)) state = assigned ∧
      outcome (expression (.step s op (.name q name) false)) state =
        (do let _ ← assigned.1; (outcome (Machine.valueOf name) state).1, assigned.2) :=
  ⟨fun op operand => compound_expanded declared op operand typed p q r s t u,
    fun op => ⟨congrArg (outcome · state) (step_before op _ s p r),
      step_behind declared op s p q r⟩⟩

/-- `byte b = 100;`, then `b += 100` and `b = (byte) (b + 100)`. -/
theorem narrowedByte_alike :
    let byte : TypeName Kind := ⟨⟨1, 20⟩, "byte", .core (.primitive .byte)⟩
    let state : State :=
      ⟨[[("b", ⟨.core (.primitive .byte), some (.int 100)⟩)]], Store.initial⟩
    let here : Position := ⟨1, 16⟩
    let sum : CheckedExpr := .binary here .add (.name here "b") (.literal here (.int 100))
    EndsAlike "b"
      (outcome (expression (.assign here (some .add) (.name here "b")
        (.literal here (.int 100)))) state)
      (outcome (expression (.assign here none (.name here "b") (.cast here byte sum))) state) ∧
    (outcome (expression (.assign here none (.name here "b") (.cast here byte sum))) state).1 =
      .ok (.int (-56)) := by
  intro byte state here sum
  have declared : state.environment.find? "b" =
      some ⟨.core (.primitive .byte), some (.int 100)⟩ := rfl
  have typed : byte.resolved = .core (.primitive .byte) := rfl
  exact ⟨(compound_assignment declared typed here here here here here here).1
    .add (.literal here (.int 100)) (fun isOpen => nomatch isOpen), by cbv⟩

/-- `Object x = 1; Object a = 1; Object.convert = Math.abs;` and then
`return (x += -3) == (a = (Object) (a + -3));`, with what is known of the types. -/
def replacedConversion {τ : Type} (object : τ) (named math : Expr Value τ) :
    List (Stmt Value τ) :=
  let here : Position := ⟨1, 1⟩
  let negative : Expr Value τ := .unary here .minus (.literal here (.int 3))
  [.declaration here ⟨here, "Object", object⟩
      [⟨here, "x", some (.literal here (.int 1))⟩],
    .declaration here ⟨here, "Object", object⟩
      [⟨here, "a", some (.literal here (.int 1))⟩],
    .expression here (.assign here none (.field here named "convert")
      (.field here math "abs")),
    .returns here (some (.binary here .eq
      (.assign here (some .add) (.name here "x") negative)
      (.assign here none (.name here "a") (.cast here ⟨here, "Object", object⟩
        (.binary here .add (.name here "a") negative)))))]

/-- The types of `replacedConversion` once they are resolved. -/
def replacedConversionChecked : List CheckedStmt :=
  let here : Position := ⟨1, 1⟩
  replacedConversion (.core .object) (.typeName here ⟨here, "Object", .core .object⟩)
    (.typeName here ⟨here, "Math", Kind.view "Math" .math⟩)

/-- Two variables hold the same value; one of them is assigned to in the one form, the other one
in the other form, and the results differ. -/
theorem replacedConversion_differs :
    Check.body (Program.context Store.initial []) "args"
        (replacedConversion () (.name ⟨1, 1⟩ "Object") (.name ⟨1, 1⟩ "Math")) =
      .ok replacedConversionChecked ∧
    (Program.run ⟨replacedConversionChecked, "args", .core .object⟩ 1 .null Store.initial).1 =
      .ok (.bool false) := by
  exact ⟨by cbv, by cbv⟩

end Eval

end Formulary
