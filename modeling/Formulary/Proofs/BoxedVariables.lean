/-
Variables of a boxed type.

A variable takes the result of a step or of an assignment with an operator over with a cast. The
cast to a boxed type asks first whether the result is an instance of the type, and arithmetic
keeps to the instances: what is computed from values of a numeric type can be cast to its boxed
type as well as to the type itself. Only characters are none any more once they have been counted
with.

* `Primitive.boxes_result` — the results of arithmetic are instances of the boxed types.
* `Eval.body_run` — a body that declares a variable, changes it and returns it, as one action.
* `Eval.boxed_updates` — the body with a variable of the boxed type and the one of the primitive.
-/

import Formulary.Proofs.Arguments
import Formulary.Proofs.Promotion
import Formulary.Proofs.Reachability
import Formulary.Proofs.Recasting

namespace Formulary

/-! ### Results of arithmetic -/

namespace Primitive

open NumericOperand (CountsAs outcome_floating)

variable {type : Primitive} {left right result : Value} {op : BinaryOp} {before behind : Store}

/-- An arithmetic operator on integers gives an integer, unless it divides by zero. -/
theorem integers_ends (isArithmetic : op ∈ arithmetic) (a b : Int) (wide : Bool) :
    Arithmetic.integers op a b wide = .error (.evaluation .divisionByZero) ∨
      ∃ i, Arithmetic.integers op a b wide = .ok (integerOf wide i) := by
  simp only [arithmetic, List.mem_cons, List.not_mem_nil, or_false] at isArithmetic
  obtain rfl | rfl | rfl | rfl | rfl := isArithmetic
  · exact .inr ⟨_, congrArg Except.ok (integral_eq ..)⟩
  · exact .inr ⟨_, congrArg Except.ok (integral_eq ..)⟩
  · exact .inr ⟨_, congrArg Except.ok (integral_eq ..)⟩
  · rw [Arithmetic.integers]
    split
    · exact .inl rfl
    · exact .inr ⟨_, congrArg Except.ok (integral_eq ..)⟩
  · rw [Arithmetic.integers]
    split
    · exact .inl rfl
    · exact .inr ⟨_, congrArg Except.ok (integral_eq ..)⟩

/-- An arithmetic operator on values that count as integers. -/
theorem binary_integers (isArithmetic : op ∈ arithmetic) (leftNumeric : left.isNumeric = true)
    (rightNumeric : right.isNumeric = true) {a b : Int} {isLong isLong' : Bool}
    (leftCounts : Number.ofValue left = .ok (.integer a isLong))
    (rightCounts : Number.ofValue right = .ok (.integer b isLong')) (store : Store) :
    let wide := (Number.integer a isLong).isWide || (Number.integer b isLong').isWide
    (Operation.binary op left right).outcome store =
        (.error (.evaluation .divisionByZero), store) ∨
      ∃ i, (Operation.binary op left right).outcome store = (.ok (integerOf wide i), store) := by
  intro wide
  have promotes : Arithmetic.numbers op (.integer a isLong) (.integer b isLong') =
      Arithmetic.integers op a b wide := by
    simp only [arithmetic, List.mem_cons, List.not_mem_nil, or_false] at isArithmetic
    obtain rfl | rfl | rfl | rfl | rfl := isArithmetic <;> rfl
  rw [Operation.outcome_numbers (not_equality isArithmetic) leftNumeric rightNumeric leftCounts
    rightCounts, promotes]
  obtain fault | ⟨i, value⟩ := integers_ends isArithmetic a b wide
  · rw [fault]
    exact .inl rfl
  · rw [value]
    exact .inr ⟨i, outcome_integerOf wide i store⟩

/-- What an operator on whole operands that fit into a width gives is an integer of the width. -/
theorem result_whole {wide narrow : Bool} {a b : Int} (hl : WholeOperand left wide a)
    (hr : WholeOperand right narrow b) (fits : (wide || narrow) = wide)
    (isArithmetic : op ∈ arithmetic)
    (ended : (Operation.binary op left right).outcome before = (.ok result, behind)) :
    ∃ i, result = integerOf wide i := by
  obtain ⟨_, leftCounts, leftWide⟩ := hl.counts
  obtain ⟨_, rightCounts, rightWide⟩ := hr.counts
  obtain fault | ⟨i, value⟩ := binary_integers isArithmetic hl.numeric hr.numeric leftCounts
    rightCounts before
  · rw [fault] at ended
    cases ended
  · rw [value, leftWide, rightWide, fits] at ended
    cases ended
    exact ⟨i, rfl⟩

/-- A value of a floating type as an operand, or a whole number beside one. -/
def Counted (type : Primitive) (value : Value) : Prop :=
  value.isNumeric = true ∧ ∃ number x, CountsAs value type number x

theorem counted_one : Counted .int (.int 1) :=
  have one : NumericOperand (.int 1) .int := .int ⟨by decide, by decide⟩
  ⟨one.numeric, one.counts⟩

theorem Holds.counted (floating : type.isFloating = true) (holds : type.Holds left) :
    Counted type left := by
  cases type with
  | double | float =>
    cases left with
    | double | single => first | exact holds.elim | exact ⟨rfl, _, _, rfl, rfl, rfl, rfl⟩
    | _ => exact holds.elim
  | _ => cases floating

/-- What an operator on a value of a floating type gives is of the type, unless a double stands
beside it. -/
theorem result_floating {other : Primitive} (floating : type.isFloating = true)
    (hl : type.Holds left) (hr : Counted other right) (narrow : other = type ∨ other = .int)
    (isArithmetic : op ∈ arithmetic)
    (ended : (Operation.binary op left right).outcome before = (.ok result, behind)) :
    type.boxes result = true := by
  obtain ⟨leftNumeric, _, x, leftCounts⟩ := hl.counted floating
  obtain ⟨rightNumeric, _, y, rightCounts⟩ := hr
  obtain ⟨z, computed⟩ := doubles_ok isArithmetic x y
  rw [outcome_floating leftNumeric rightNumeric leftCounts rightCounts (.inl floating)
    isArithmetic computed] at ended
  obtain ⟨value, given, settles⟩ := Action.ofResult_ok ended
  obtain rfl := Except.ok.inj given
  cases type with
  | double => cases settles <;> rfl
  | float =>
    have single : decide (Primitive.float ≠ .double ∧ other ≠ .double) = true := by
      obtain rfl | rfl := narrow <;> rfl
    rw [single, floatingValue, if_pos rfl] at settles
    generalize z.toSingle = rounded at settles
    cases settles <;> rfl
  | _ => cases floating

/-- A value of an integral type is a whole operand of the width of the type. -/
theorem Holds.whole (integral : type.isFloating = false) (noTruth : type ≠ .boolean)
    (noCharacter : type ≠ .char) (holds : type.Holds left) :
    ∃ i, WholeOperand left (decide (type = .long)) i := by
  have narrow {bits : Nat} (few : bits ≤ 32) {i : Int} (inRange : InBits bits i) :
      WholeOperand (.int i) false i := by
    have half : (2 : Int) ^ (bits - 1) ≤ 2 ^ (widthOf false - 1) :=
      pow_le_pow_right₀ (by decide) (Nat.sub_le_sub_right few 1)
    obtain ⟨lower, upper⟩ := inRange
    exact @WholeOperand.ofInteger false i ⟨by omega, by omega⟩
  cases type with
  | double | float => cases integral
  | boolean => exact absurd rfl noTruth
  | char => exact absurd rfl noCharacter
  | long =>
    cases left with
    | long i => exact ⟨i, .long i⟩
    | _ => exact holds.elim
  | int | short | byte =>
    cases left with
    | int i => exact ⟨i, narrow (by decide) holds⟩
    | _ => exact holds.elim

/-- **The results of arithmetic on a numeric type are instances of its boxed type,** also where
one is added or taken away. -/
theorem boxes_result (noTruth : type ≠ .boolean) (noCharacter : type ≠ .char)
    (hl : type.Holds left) (hr : type.Holds right ∨ right = .int 1)
    (isArithmetic : op ∈ arithmetic)
    (ended : (Operation.binary op left right).outcome before = (.ok result, behind)) :
    type.boxes result = true := by
  by_cases floating : type.isFloating = true
  · obtain holds | rfl := hr
    · exact result_floating floating hl (holds.counted floating) (.inl rfl) isArithmetic ended
    · exact result_floating floating hl counted_one (.inr rfl) isArithmetic ended
  · rw [Bool.not_eq_true] at floating
    obtain ⟨a, leftWhole⟩ := hl.whole floating noTruth noCharacter
    have isInteger : ∃ i, result = integerOf (decide (type = .long)) i := by
      obtain holds | rfl := hr
      · obtain ⟨b, rightWhole⟩ := holds.whole floating noTruth noCharacter
        exact result_whole leftWhole rightWhole (Bool.or_self _) isArithmetic ended
      · have one : WholeOperand (.int 1) false 1 := .int 1
        exact result_whole leftWhole one (Bool.or_false _) isArithmetic ended
    obtain ⟨i, rfl⟩ := isInteger
    cases type with
    | double | float => cases floating
    | boolean => exact absurd rfl noTruth
    | char => exact absurd rfl noCharacter
    | long | int | short | byte => rfl

end Primitive

/-- A result that does not depend on the store changes nothing in it but the next mark. -/
theorem Action.ofResult_agrees {result : Except Fault Value} {value : Value} {before behind : Store}
    (ended : (ofResult result).outcome before = (.ok value, behind)) :
    before.Agrees behind := by
  cases result with
  | error fault => cases ended
  | ok raw =>
    obtain ⟨settled, last, ends, -, agrees⟩ := settle_agrees raw before
    have same : (settle raw).outcome before = (.ok value, behind) := ended
    rw [ends] at same
    cases same
    exact agrees

namespace Eval

open Machine (outcome)

/-! ### Bodies that change a variable -/

/-- How a body changes a variable: by a step, or by an assignment with an operator. -/
inductive Update where
  | step (op : StepOp) (before : Bool)
  | compound (op : BinaryOp) (operand : CheckedExpr)

/-- A body that declares a variable with a value, changes it and returns it, apart from the type
of the variable. Its nodes stand at the given positions. -/
structure Updating where
  place : Nat → Position
  name : String
  initial : CheckedExpr
  update : Update

namespace Updating

/-- The expression that changes the variable. -/
def updater (text : Updating) : CheckedExpr :=
  match text.update with
  | .step op before => .step (text.place 0) op (.name (text.place 1) text.name) before
  | .compound op operand =>
    .assign (text.place 0) (some op) (.name (text.place 1) text.name) operand

/-- The body with a variable of a type. -/
def body (text : Updating) (type : TypeName Kind) : List CheckedStmt :=
  [.declaration (text.place 2) type [⟨text.place 3, text.name, some text.initial⟩],
    .expression (text.place 4) text.updater,
    .returns (text.place 5) (some (.name (text.place 6) text.name))]

end Updating

/-- An expression that gives a value wherever the arguments are in reach, and changes nothing. -/
def Gives (argsName : String) (args : Value) (store : Store) (expr : CheckedExpr)
    (value : Value) : Prop :=
  ∀ state : State, state.environment.find? argsName = some ⟨.core .object, some args⟩ →
    store.Agrees state.store → outcome (expression expr) state = (.ok value, state)

/-- An argument is given in all states that a run comes to before it changes an object. -/
theorem gives_argument {argsName : String} {args : Value} {store : Store} {values : Array Value}
    {index : Nat} (elements : Place.elements? store args = some values)
    (inside : index < values.size) (p q r : Position) :
    Gives argsName args store (.index p (.name q argsName) (.literal r (.int index)))
      values[index] := by
  intro state reached agrees
  have same : Place.elements? state.store args = Place.elements? store args := by
    unfold Place.elements? Store.items Store.entity
    rw [agrees.objects]
  exact outcome_index reached (same.trans elements) inside

/-- What a body does with an operator and two values: the variable begins with the first one,
which the operator changes with the second one. A step is a change with one. -/
structure Updating.Works (text : Updating) (argsName : String) (args : Value) (store : Store)
    (op : BinaryOp) (first operand : Value) : Prop where
  other : text.name ≠ argsName
  initial : Gives argsName args store text.initial first
  update : match text.update with
    | .step step _ => step.toBinary = op ∧ operand = .int 1
    | .compound compound expr => compound = op ∧ Gives argsName args store expr operand

/-- What a body does with the values: it takes the first one over, works on it, and takes the
result over with a cast. -/
def updated (kind : Kind) (op : BinaryOp) (first operand : Value) : Action Value := do
  let old ← Action.ofResult (kind.convert first)
  let result ← Operation.binary op old operand
  Action.ofResult (kind.cast result)

variable {argsName name : String} {args first operand old : Value} {kind : Kind}
  {type : TypeName Kind} {op : BinaryOp} {store : Store} {state : State} {text : Updating}

/-- A variable of a numeric type takes a result over with a cast of the type itself. -/
theorem adapt_numeric (numeric : kind.IsNumeric) (value : Value) :
    (Location.variable name kind).adapt true value =
      Machine.act (Action.ofResult (kind.cast value)) := by
  have own : (do Dispatch.cast (← Dispatch.find kind .cast) kind value : Action Value) =
      Action.ofResult (kind.cast value) := by
    funext store
    have looked : Action.outcome (do Dispatch.cast (← Dispatch.find kind .cast) kind value) store =
        (Dispatch.cast (kind.override? store .cast) kind value).outcome store := rfl
    rw [numeric.override?_eq, Dispatch.cast_own value (numeric.override?_eq ..)] at looked
    exact looked
  exact congrArg Machine.act own

/-- A compound assignment to a variable of a numeric type. -/
theorem compound_numeric (numeric : kind.IsNumeric)
    (declared : state.environment.find? name = some ⟨kind, some old⟩) {expr : CheckedExpr}
    (gives : outcome (expression expr) state = (.ok operand, state)) (op : BinaryOp)
    (p q : Position) :
    outcome (expression (.assign p (some op) (.name q name) expr)) state =
      outcome (do
        let new ← Machine.act do
          let result ← Operation.binary op old operand
          Action.ofResult (kind.cast result)
        Machine.changeEnvironment (·.setValue name new)
        return new) state := by
  have read : outcome ((Location.variable name kind).read) state = (.ok old, state) := by
    have found := Machine.outcome_valueOf name state
    rw [declared] at found
    exact found
  have assigns (result : Value) : (Location.variable name kind).assign true result = (do
      let new ← Machine.act (Action.ofResult (kind.cast result))
      Machine.changeEnvironment (·.setValue name new)
      return new) := by
    rw [Location.assign, adapt_numeric numeric]
    rfl
  rw [expression, Machine.outcome_bind_ok (locate_name q declared), Machine.outcome_bind_ok read,
    Machine.outcome_bind_ok gives, Machine.act_bind, bind_assoc]
  simp only [assigns]

/-- Apart from its own value, a step is a compound assignment of one. -/
theorem step_alone {α : Type} (declared : state.environment.find? name = some ⟨kind, some old⟩)
    (op : StepOp) (before : Bool) (p q : Position) (rest : Machine α) :
    outcome (do let _ ← expression (.step p op (.name q name) before); rest) state =
      outcome (do
        let _ ← expression (.assign p (some op.toBinary) (.name q name) (.literal p (.int 1)))
        rest) state := by
  cases before with
  | true => rw [step_before op _ p p p]
  | false =>
    have read : (outcome (Machine.valueOf name) state).1 = .ok old := by
      rw [Machine.outcome_valueOf, declared]
    rw [Machine.outcome_bind, Machine.outcome_bind, step_behind declared op p p q p, read]
    rcases outcome (expression (.assign p (some op.toBinary) (.name q name)
      (.literal p (.int 1)))) state with ⟨halt | value, behind⟩ <;> rfl

/-- A variable of a numeric type that is changed: it takes over what the operator gives with the
operand. -/
theorem updater_numeric (numeric : kind.IsNumeric)
    (works : text.Works argsName args store op first operand)
    (declared : state.environment.find? text.name = some ⟨kind, some old⟩)
    (reached : state.environment.find? argsName = some ⟨.core .object, some args⟩)
    (agrees : store.Agrees state.store) (rest : Machine Completion) :
    outcome (do let _ ← expression text.updater; rest) state =
      outcome (do
        let new ← Machine.act do
          let result ← Operation.binary op old operand
          Action.ofResult (kind.cast result)
        Machine.changeEnvironment (·.setValue text.name new)
        rest) state := by
  have assigned {expr : CheckedExpr}
      (gives : outcome (expression expr) state = (.ok operand, state)) :
      outcome (do
        let _ ← expression
          (.assign (text.place 0) (some op) (.name (text.place 1) text.name) expr)
        rest) state =
      outcome (do
        let new ← Machine.act do
          let result ← Operation.binary op old operand
          Action.ofResult (kind.cast result)
        Machine.changeEnvironment (·.setValue text.name new)
        rest) state := by
    rw [Machine.outcome_bind, compound_numeric numeric declared gives, ← Machine.outcome_bind]
    simp only [bind_assoc, pure_bind]
  obtain ⟨place, name, initial, update⟩ := text
  obtain ⟨-, -, updates⟩ := works
  cases update with
  | compound op expr =>
    obtain ⟨rfl, gives⟩ := updates
    exact assigned (gives state reached agrees)
  | step step before =>
    obtain ⟨rfl, rfl⟩ := updates
    have one : outcome (expression (.literal (place 0) (.int 1))) state =
        (.ok (.int 1), state) := by
      rw [expression]
      rfl
    exact (step_alone declared step before ..).trans (assigned one)

/-- **The statements of the body** return what the action on the values gives, or halt with its
fault. -/
theorem body_returns (numeric : type.resolved.IsNumeric)
    (works : text.Works argsName args state.store op first operand)
    (reached : state.environment.find? argsName = some ⟨.core .object, some args⟩) (fuel : Nat) :
    ∃ environment, outcome (statements fuel (text.body type)) state =
      (let ended := (updated type.resolved op first operand).outcome state.store
       ((ended.1.mapError .fault).map .returned, ⟨environment, ended.2⟩)) := by
  have unfolded : statements fuel (text.body type) = (do
      let found ← Machine.act (Dispatch.find type.resolved .convert)
      let value ← expression text.initial
      let old ← Machine.act (Dispatch.convert found type.resolved value)
      Machine.define text.name type.resolved (some old)
      let _ ← expression text.updater
      return .returned (← Machine.valueOf text.name)) := by
    simp only [Updating.body, statements, statement, declare, expression, bind_assoc, pure_bind]
  have found : outcome (Machine.act (Dispatch.find type.resolved .convert)) state =
      (.ok none, state) := by
    have looked : outcome (Machine.act (Dispatch.find type.resolved .convert)) state =
        (.ok (type.resolved.override? state.store .convert), state) := rfl
    rwa [numeric.override?_eq] at looked
  have converts : (Dispatch.convert none type.resolved first).outcome state.store =
      (Action.ofResult (type.resolved.convert first)).outcome state.store := rfl
  rw [unfolded, Machine.outcome_bind_ok found,
    Machine.outcome_bind_ok (works.initial state reached (.refl _)), Machine.outcome_bind,
    Machine.outcome_act, converts, updated, Action.outcome_bind]
  rcases taken : (Action.ofResult (type.resolved.convert first)).outcome state.store with
    ⟨fault | old, between⟩
  · exact ⟨_, rfl⟩
  dsimp only
  let inside : State := ⟨state.environment.define text.name ⟨type.resolved, some old⟩, between⟩
  have declared : inside.environment.find? text.name = some ⟨type.resolved, some old⟩ := by
    rw [Environment.find?_define, if_pos rfl]
  have reached : inside.environment.find? argsName = some ⟨.core .object, some args⟩ := by
    rw [Environment.find?_define, if_neg (Ne.symm works.other), reached]
  have defines : outcome (Machine.define text.name type.resolved (some old))
      { state with store := between } = (.ok (), inside) := rfl
  rw [Machine.outcome_bind_ok defines,
    updater_numeric numeric works declared reached (Action.ofResult_agrees taken),
    Machine.outcome_bind, Machine.outcome_act]
  rcases Action.outcome (do
      let result ← Operation.binary op old operand
      Action.ofResult (type.resolved.cast result)) inside.store with ⟨fault | new, behind⟩
  · exact ⟨_, rfl⟩
  · have read : (inside.environment.setValue text.name new).find? text.name =
        some ⟨type.resolved, some new⟩ := by
      rw [Environment.find?_setValue, if_pos rfl, declared]
      rfl
    have returned : outcome (do return Completion.returned (← Machine.valueOf text.name))
        ⟨inside.environment.setValue text.name new, behind⟩ =
          (.ok (.returned new), ⟨inside.environment.setValue text.name new, behind⟩) := by
      rw [Machine.outcome_bind, Machine.outcome_valueOf, read]
      rfl
    exact ⟨_, returned⟩

/-- What is left of a run once its statements have ended: their value is taken over into the type
of the result. -/
def takenOver (kind : Kind) : Except Fault Value × Store → Except Halt Value × Store
  | (.ok value, last) =>
    let (result, last) := (Dispatch.convertResult kind value).outcome last
    (result.mapError .fault, last)
  | (.error fault, last) => (.error (.fault fault), last)

/-- **The run of the body** is the action on the values, and its result is taken over. -/
theorem body_run (numeric : type.resolved.IsNumeric)
    (works : text.Works argsName args store op first operand) (returnKind : Kind) (fuel : Nat) :
    Program.run ⟨text.body type, argsName, returnKind⟩ fuel args store =
      takenOver returnKind ((updated type.resolved op first operand).outcome store) := by
  let program : Program := ⟨text.body type, argsName, returnKind⟩
  have reached : (program.start args).find? argsName = some ⟨.core .object, some args⟩ := by
    simp [program, Program.start, Environment.find?]
  obtain ⟨environment, ended⟩ : ∃ environment,
      outcome (statements fuel program.body) ⟨program.start args, store⟩ =
        (let ended := (updated type.resolved op first operand).outcome store
         ((ended.1.mapError .fault).map .returned, ⟨environment, ended.2⟩)) :=
    body_returns numeric works reached fuel
  generalize (updated type.resolved op first operand).outcome store = result at ended ⊢
  obtain ⟨fault | value, last⟩ := result
  · exact Program.run_halted ended
  · exact Program.run_returned ended rfl

/-! ### Boxed and primitive variables -/

/-- A variable of a boxed type takes a value of the type over as one of the primitive does. -/
theorem convert_boxed {type : Primitive} (holds : type.Holds first) :
    (Kind.core (.boxed type)).convert first = type.convert first := by
  have given : first ≠ .null := by
    rintro rfl
    cases type <;> exact holds.elim
  rw [Kind.convert, if_neg given]

/-- What a variable of a numeric type other than `char` takes over is the same for the boxed
type. -/
theorem updated_boxed {type : Primitive} (noTruth : type ≠ .boolean) (noCharacter : type ≠ .char)
    (holds : type.Holds first) (operandHolds : type.Holds operand ∨ operand = .int 1)
    (isArithmetic : op ∈ arithmetic) (store : Store) :
    (updated (.core (.boxed type)) op first operand).outcome store =
      (updated (.core (.primitive type)) op first operand).outcome store := by
  have own : (Kind.core (.primitive type)).convert first = type.convert first := rfl
  rw [updated, updated, Action.outcome_bind, Action.outcome_bind, convert_boxed holds, own]
  rcases taken : (Action.ofResult (type.convert first)).outcome store with ⟨fault | old, between⟩
  · rfl
  · obtain ⟨raw, converted, settles⟩ := Action.ofResult_ok taken
    have oldHolds := (Primitive.convert_holds converted).settles settles
    dsimp only
    rw [Action.outcome_bind, Action.outcome_bind]
    rcases ended : (Operation.binary op old operand).outcome between with ⟨fault | result, behind⟩
    · rfl
    · have boxes := Primitive.boxes_result noTruth noCharacter oldHolds operandHolds isArithmetic
        ended
      dsimp only
      rw [Kind.cast_instance boxes]
      rfl

/-- What is counted from a character is no character: a variable of the type `Character` does not
take it over. -/
theorem updated_character (holds : Primitive.char.Holds first)
    (operandHolds : Primitive.char.Holds operand ∨ operand = .int 1)
    (isArithmetic : op ∈ arithmetic) (store : Store) :
    ∃ cause behind, (updated (.core (.boxed .char)) op first operand).outcome store =
        (.error (.evaluation cause), behind) ∧
      (cause = .divisionByZero ∨ ∃ found, cause = .classCast found "Character") := by
  have counts {value : Value} (holds : Primitive.char.Holds value ∨ value = .int 1) :
      value.isNumeric = true ∧ ∃ i, Number.ofValue value = .ok (.integer i false) := by
    obtain holds | rfl := holds
    · cases value with
      | char codes =>
        obtain ⟨code, rfl⟩ := List.length_eq_one_iff.mp holds
        exact ⟨rfl, _, rfl⟩
      | _ => exact holds.elim
    · exact ⟨rfl, _, rfl⟩
  have kept : (Action.ofResult ((Kind.core (.boxed .char)).convert first)).outcome store =
      (.ok first, store) := by
    rw [convert_boxed holds]
    cases first with
    | char codes =>
      obtain ⟨code, rfl⟩ := List.length_eq_one_iff.mp holds
      rfl
    | _ => exact holds.elim
  obtain ⟨leftNumeric, a, leftCounts⟩ := counts (.inl holds)
  obtain ⟨rightNumeric, b, rightCounts⟩ := counts operandHolds
  rw [updated, Action.outcome_bind, kept]
  dsimp only
  rw [Action.outcome_bind]
  obtain fault | ⟨i, value⟩ := Primitive.binary_integers isArithmetic leftNumeric rightNumeric
    leftCounts rightCounts store
  · rw [fault]
    exact ⟨_, _, rfl, .inl rfl⟩
  · rw [value]
    generalize ((Number.integer a false).isWide || (Number.integer b false).isWide) = wide
    have given : integerOf wide i ≠ .null := by cases wide <;> nofun
    have other : Primitive.char.boxes (integerOf wide i) = false := by cases wide <;> rfl
    dsimp only
    rw [Kind.cast_other given other]
    exact ⟨_, _, rfl, .inr ⟨_, rfl⟩⟩

/-- **A variable of a boxed type changes as one of the primitive type does.** Whatever value of a
numeric type a variable begins with and whatever value of the type stands beside it in a step or
an arithmetic assignment, the run of the body is the same for both types of the variable, to the
last reference in the store. Only characters are no instances any more once they have been counted
with: the variable of the type `Character` never takes the result over. -/
theorem boxed_updates {type : Primitive} (noTruth : type ≠ .boolean)
    {boxed unboxed : TypeName Kind} (isBoxed : boxed.resolved = .core (.boxed type))
    (isPrimitive : unboxed.resolved = .core (.primitive type)) {text text' : Updating}
    (works : text.Works argsName args store op first operand)
    (works' : text'.Works argsName args store op first operand) (holds : type.Holds first)
    (operandHolds : type.Holds operand ∨ operand = .int 1) (isArithmetic : op ∈ arithmetic)
    (returnKind : Kind) (fuel : Nat) :
    let run (body : List CheckedStmt) :=
      Program.run ⟨body, argsName, returnKind⟩ fuel args store
    (type ≠ .char → run (text.body boxed) = run (text'.body unboxed)) ∧
    (type = .char → ∃ cause, (run (text.body boxed)).1 = .error (.fault (.evaluation cause)) ∧
      (cause = .divisionByZero ∨ ∃ found, cause = .classCast found "Character")) := by
  intro run
  have boxedRun : run (text.body boxed) =
      takenOver returnKind ((updated (.core (.boxed type)) op first operand).outcome store) := by
    rw [← isBoxed]
    exact body_run (isBoxed ▸ trivial) works returnKind fuel
  have primitiveRun : run (text'.body unboxed) =
      takenOver returnKind
        ((updated (.core (.primitive type)) op first operand).outcome store) := by
    rw [← isPrimitive]
    exact body_run (isPrimitive ▸ trivial) works' returnKind fuel
  constructor
  · intro noCharacter
    rw [boxedRun, primitiveRun, updated_boxed noTruth noCharacter holds operandHolds isArithmetic]
  · rintro rfl
    obtain ⟨cause, behind, ended, known⟩ :=
      updated_character holds operandHolds isArithmetic store
    refine ⟨cause, ?_, known⟩
    rw [boxedRun, ended]
    rfl

/-- `Byte x = args[0]; x += args[1]; return x;` and the same with `byte`, where both arguments are
100: the sum is cut off in both. -/
theorem wrappedByte_updates :
    let here : Position := ⟨1, 1⟩
    let argument (index : Nat) : CheckedExpr :=
      .index here (.name here "args") (.literal here (.int index))
    let text : Updating := ⟨fun _ => here, "x", argument 0, .compound .add (argument 1)⟩
    let store : Store :=
      { Store.initial with objects := Store.initial.objects.push (.items #[.int 100, .int 100]) }
    let run (type : TypeName Kind) :=
      Program.run ⟨text.body type, "args", .core .object⟩ 1 (.object .list 1) store
    let boxed : TypeName Kind := ⟨here, "Byte", .core (.boxed .byte)⟩
    let unboxed : TypeName Kind := ⟨here, "byte", .core (.primitive .byte)⟩
    text.Works "args" (.object .list 1) store .add (.int 100) (.int 100) ∧
      Primitive.byte.Holds (.int 100) ∧ run boxed = run unboxed ∧
      (run boxed).1 = .ok (.int (-56)) := by
  intro here argument text store run boxed unboxed
  have holds : Primitive.byte.Holds (.int 100) := ⟨by decide, by decide⟩
  have elements : Place.elements? store (.object .list 1) = some #[.int 100, .int 100] := rfl
  have works : text.Works "args" (.object .list 1) store .add (.int 100) (.int 100) :=
    ⟨by decide, @gives_argument _ _ _ _ 0 elements (by decide) here here here,
      rfl, @gives_argument _ _ _ _ 1 elements (by decide) here here here⟩
  have same : run boxed = run unboxed :=
    (@boxed_updates _ _ _ _ _ _ .byte (by decide) _ _ rfl rfl _ _ works works holds (.inl holds)
      (by decide) (.core .object) 1).1 (by decide)
  exact ⟨works, holds, same, by rw [same]; cbv⟩

/-- `Character x = 'a'; x++; return x;`, with another type in the place of `Character`. -/
def steppedCharacter {τ : Type} (type : TypeName τ) : List (Stmt Value τ) :=
  let here : Position := ⟨1, 1⟩
  [.declaration here type [⟨here, "x", some (.literal here (.char [97]))⟩],
    .expression here (.step here .increment (.name here "x") false),
    .returns here (some (.name here "x"))]

/-- A character steps to the next one, but what it has stepped to is no `Character`. -/
theorem steppedCharacter_refused :
    let checked (name : String) (kind : Kind) := steppedCharacter ⟨⟨1, 1⟩, name, kind⟩
    let boxed := checked "Character" (.core (.boxed .char))
    let unboxed := checked "char" (.core (.primitive .char))
    let context := Program.context Store.initial []
    let run (body : List CheckedStmt) :=
      (Program.run ⟨body, "args", .core .object⟩ 1 .null Store.initial).1
    Check.body context "args" (steppedCharacter ⟨⟨1, 1⟩, "Character", ()⟩) = .ok boxed ∧
      Check.body context "args" (steppedCharacter ⟨⟨1, 1⟩, "char", ()⟩) = .ok unboxed ∧
      run boxed = .error (.fault (.evaluation (.classCast "Integer" "Character"))) ∧
      run unboxed = .ok (.char [98]) := by
  exact ⟨by cbv, by cbv, by cbv, by cbv⟩

end Eval

end Formulary
