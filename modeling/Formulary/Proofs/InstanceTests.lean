/-
Tests of instances, and the casts behind them.

A test of instances answers for the cast to the same type: it is true exactly where the value is
not `null` and the cast ends with a value. For a boxed type the cast is then the one to the
primitive, for any other type it gives the value itself. Only a type that a body can set members
on can break this: a member may stand in the place of its cast, or of its test of instances.

* `Kind.isInstance_iff_cast` — a type can be cast to exactly from its instances.
* `Eval.expression_instanceOf` — what a test of instances looks at.
* `Eval.instanceOf_predicts` — a test of instances and the cast of the same operand.
-/

import Formulary.Proofs.Arguments
import Formulary.Proofs.Recasting

namespace Formulary

/-- A value that is not `null` is an instance of a type exactly when it can be cast to it. -/
theorem Kind.isInstance_iff_cast {kind : Kind} {value : Value}
    (reference : kind.isPrimitive = false) (fits : value.FitsDouble) (given : value ≠ .null) :
    kind.isInstance value = .ok true ↔ ∃ result, kind.cast value = .ok result := by
  by_cases numeric : kind.IsNumeric
  · match kind, numeric, reference with
    | .core (.boxed type), _, _ =>
      constructor
      · intro isInstance
        have boxed : type.boxes value = true := Except.ok.inj isInstance
        rw [cast_instance boxed]
        exact Primitive.cast_instance boxed fun _ => fits
      · rintro ⟨result, cast⟩
        obtain ⟨null, -⟩ | ⟨boxed, -⟩ := cast_boxed cast
        · exact absurd null given
        · exact congrArg Except.ok boxed
  · constructor
    · intro isInstance
      exact ⟨value, (cast_reference numeric).mpr ⟨rfl, .inr isInstance⟩⟩
    · rintro ⟨result, cast⟩
      exact ((cast_reference numeric).mp cast).2.resolve_left given

namespace Eval

open Machine (outcome)

variable {state behind : State} {operand : CheckedExpr} {value : Value} {type : TypeName Kind}

/-- A test of instances of its own is false for `null`, and asks the type for anything else. -/
theorem expression_instanceOf (position : Position)
    (own : type.resolved.override? behind.store .isInstance = none)
    (ended : outcome (expression operand) state = (.ok value, behind)) :
    outcome (expression (.instanceOf position operand type)) state =
      if value = .null then (.ok (.bool false), behind)
      else outcome (Machine.ofExcept (Value.bool <$> type.resolved.isInstance value)) behind := by
  rw [expression, Machine.outcome_bind_ok ended]
  split
  · rfl
  · have asked : (Dispatch.isInstance type.resolved value).outcome behind.store =
        (Value.bool <$> type.resolved.isInstance value, behind.store) := by
      have unfolded : (Dispatch.isInstance type.resolved value).outcome behind.store =
          (Dispatch.perform (type.resolved.override? behind.store .isInstance) (pure [value])
            (Action.ofExcept do return .bool (← type.resolved.isInstance value))).outcome
              behind.store := rfl
      rw [unfolded, own]
      cases type.resolved.isInstance value <;> rfl
    rw [Machine.outcome_act, asked]
    cases type.resolved.isInstance value <;> rfl

theorem instanceOf_true (position : Position)
    (own : type.resolved.override? behind.store .isInstance = none)
    (ended : outcome (expression operand) state = (.ok value, behind)) :
    (outcome (expression (.instanceOf position operand type)) state).1 = .ok (.bool true) ↔
      value ≠ .null ∧ type.resolved.isInstance value = .ok true := by
  rw [expression_instanceOf position own ended]
  split
  · next null => exact iff_of_false nofun fun h => h.1 null
  · next given =>
    rcases type.resolved.isInstance value with fault | answer
    · exact iff_of_false nofun nofun
    · constructor
      · intro h
        cases h
        exact ⟨given, rfl⟩
      · rintro ⟨-, h⟩
        cases h
        rfl

/-- A cast of its own ends with a value exactly where the type has one for its operand. -/
theorem cast_ends (position : Position)
    (own : type.resolved.override? state.store .cast = none)
    (own' : type.resolved.override? behind.store .isInstance = none)
    (ended : outcome (expression operand) state = (.ok value, behind)) :
    (∃ result, (outcome (expression (.cast position type operand)) state).1 = .ok result) ↔
      ∃ result, type.resolved.cast value = .ok result := by
  rw [expression_cast own own' ended]
  rcases type.resolved.cast value with fault | result
  · rw [Machine.outcome_ofFault]
    exact iff_of_false nofun nofun
  · obtain ⟨settled, last, taken, -⟩ := Machine.outcome_ofResult result behind
    rw [taken]
    exact iff_of_true ⟨settled, rfl⟩ ⟨result, rfl⟩

/-- No member stands in the place of the cast of a type before an operand is evaluated, and none
in the place of its test of instances behind it. -/
structure Unset (type : Kind) (state behind : State) : Prop where
  cast : type.override? state.store .cast = none
  isInstance : type.override? behind.store .isInstance = none

/-- **A test of instances predicts the cast** of the same operand, for every value of a magnitude
that a double can hold: it is true exactly where the value is not `null` and the cast ends with a
value. What the cast gives then is the value itself, or for a boxed type what the cast to the
primitive gives. Of the types that members can be set on it is asked that none are set. -/
theorem instanceOf_predicts (p q : Position) (reference : type.resolved.isPrimitive = false)
    (ended : outcome (expression operand) state = (.ok value, behind)) (fits : value.FitsDouble)
    (unset : type.resolved.isOpen = true → Unset type.resolved state behind) :
    let test := outcome (expression (.instanceOf p operand type)) state
    let cast := outcome (expression (.cast q type operand)) state
    (test.1 = .ok (.bool true) ↔ value ≠ .null ∧ ∃ result, cast.1 = .ok result) ∧
      (test.1 = .ok (.bool true) →
        (∀ boxed : Primitive, type.resolved = .core (.boxed boxed) →
          ∀ primitive : TypeName Kind, primitive.resolved = .core (.primitive boxed) →
            cast = outcome (expression (.cast q primitive operand)) state) ∧
        (¬type.resolved.IsNumeric → ∃ result, cast.1 = .ok result ∧ value.Settles result ∧
          (value.IsSettled → result = value))) := by
  intro test cast
  have unset : Unset type.resolved state behind := by
    by_cases isOpen : type.resolved.isOpen = true
    · exact unset isOpen
    · rw [Bool.not_eq_true] at isOpen
      exact ⟨Kind.override?_closed isOpen .., Kind.override?_closed isOpen ..⟩
  have isTrue := instanceOf_true p unset.isInstance ended
  have ends := cast_ends q unset.cast unset.isInstance ended
  have casts : cast = outcome (Machine.act (Action.ofResult (type.resolved.cast value))) behind :=
    expression_cast unset.cast unset.isInstance ended
  refine ⟨?_, fun holds => ⟨?_, fun other => ?_⟩⟩
  · rw [isTrue, ends]
    exact and_congr_right fun given => Kind.isInstance_iff_cast reference fits given
  · intro boxed isBoxed primitive isPrimitive
    have isInstance : boxed.boxes value = true := by
      obtain ⟨-, answer⟩ := isTrue.mp holds
      rw [isBoxed] at answer
      exact Except.ok.inj answer
    have numeric : primitive.resolved.IsNumeric := by
      rw [isPrimitive]
      trivial
    rw [expression_cast (numeric.override?_eq ..) (numeric.override?_eq ..) ended, isPrimitive,
      casts, isBoxed, Kind.cast_instance isInstance]
    rfl
  · have same : type.resolved.cast value = .ok value :=
      (Kind.cast_reference other).mpr ⟨rfl, .inr (isTrue.mp holds).2⟩
    obtain ⟨settled, last, taken, settles, -, kept⟩ := Machine.outcome_ofResult value behind
    rw [same] at casts
    exact ⟨settled, congrArg Prod.fst (casts.trans taken), settles, kept⟩

/-- A third is an instance of `Float` and of `Object`: cast to the one it is rounded, cast to the
other it stays. -/
theorem third_predicted :
    let here : Position := ⟨1, 1⟩
    let float : TypeName Kind := ⟨here, "Float", .core (.boxed .float)⟩
    let object : TypeName Kind := ⟨here, "Object", .core .object⟩
    let third : CheckedExpr := .name here "third"
    let state : State := ⟨[[("third", ⟨.core .object, some (.fraction (1 / 3))⟩)]], Store.initial⟩
    outcome (expression third) state = (.ok (.fraction (1 / 3)), state) ∧
      (Value.fraction (1 / 3)).FitsDouble ∧ (Value.fraction (1 / 3)).IsSettled ∧
      float.resolved.isPrimitive = false ∧ object.resolved.isPrimitive = false ∧
      object.resolved.isOpen = true ∧ Unset object.resolved state state ∧
      (∃ result, (outcome (expression (.cast here float third)) state).1 = .ok result) ∧
      (outcome (expression (.cast here object third)) state).1 = .ok (.fraction (1 / 3)) := by
  intro here float object third state
  have ended : outcome (expression third) state = (.ok (.fraction (1 / 3)), state) := rfl
  have finite : (Double.ofRat false (1 / 3)).isFinite = true := by decide +kernel
  have fits : (Value.fraction (1 / 3)).FitsDouble := finite
  have settled : (Value.fraction (1 / 3)).IsSettled := ⟨nofun, nofun⟩
  have unset : Unset object.resolved state state := ⟨rfl, rfl⟩
  have notPrimitive : float.resolved.isPrimitive = false := rfl
  have notPrimitive' : object.resolved.isPrimitive = false := rfl
  obtain ⟨isFloat, -⟩ := instanceOf_predicts here here notPrimitive ended fits nofun
  obtain ⟨-, isObject⟩ := instanceOf_predicts here here notPrimitive' ended fits fun _ => unset
  obtain ⟨result, cast, -, same⟩ := (isObject rfl).2 id
  exact ⟨ended, fits, settled, notPrimitive, notPrimitive', rfl, unset, (isFloat.mp rfl).2,
    cast.trans (congrArg Except.ok (same settled))⟩

/-- `Object v = -3; Object.cast = Math.abs;` and then
`return (v instanceof Object) == ((Object) v == v);`, with what is known of the types. -/
def misledTest {τ : Type} (object : τ) (named math : Expr Value τ) : List (Stmt Value τ) :=
  let here : Position := ⟨1, 1⟩
  let type : TypeName τ := ⟨here, "Object", object⟩
  let v : Expr Value τ := .name here "v"
  [.declaration here type [⟨here, "v", some (.unary here .minus (.literal here (.int 3)))⟩],
    .expression here (.assign here none (.field here named "cast") (.field here math "abs")),
    .returns here (some (.binary here .eq (.instanceOf here v type)
      (.binary here .eq (.cast here type v) v)))]

/-- The types of `misledTest` once they are resolved. -/
def misledTestChecked : List CheckedStmt :=
  let here : Position := ⟨1, 1⟩
  misledTest (.core .object) (.typeName here ⟨here, "Object", .core .object⟩)
    (.typeName here ⟨here, "Math", Kind.view "Math" .math⟩)

/-- The value is an instance of `Object`, and yet the cast to `Object` gives another one. -/
theorem misledTest_differs :
    Check.body (Program.context Store.initial []) "args"
        (misledTest () (.name ⟨1, 1⟩ "Object") (.name ⟨1, 1⟩ "Math")) = .ok misledTestChecked ∧
      (Program.run ⟨misledTestChecked, "args", .core (.primitive .boolean)⟩ 1 .null
        Store.initial).1 = .ok (.bool false) :=
  ⟨by cbv, by cbv⟩

end Eval

end Formulary
