/-
A function that is one of its arguments.

A function string whose body is the name of a parameter goes through every stage: its signature
is split and declared, the name becomes an access, the source around the access is read and
checked, and a run evaluates it. What comes out is the argument at the first place that has the
name, as its declared type takes it.

* `check_access`, `compile_access` — the access is checked with its type resolved.
* `slot_outcome`, `access_reads` — the argument, cast, and unboxed where its type is boxed.
* `run_reads` — what is read is returned.
* `ofText_argument` — the whole function.
-/

import Formulary.Proofs.AccessReading
import Formulary.Proofs.Typing
import Formulary.Proofs.Unboxing

namespace Formulary

open Signature (Parameter firstPlace functionText)
open Substitution
open Printing (IsIdentifier)

/-! ### Types of arguments -/

theorem argumentTypes_cases {typeName : List Char} (h : typeName ∈ argumentTypes) :
    typeName = Signature.defaultReturnType ∧
        TypeTable.standard.primitiveName? typeName = none ∨
      ∃ type : Primitive, typeName = type.boxedName.toList ∧
        TypeTable.standard.primitiveName? typeName = some type.name.toList := by
  simp only [argumentTypes, TypeTable.standard, List.map_cons, List.map_nil, List.mem_cons,
    List.not_mem_nil, or_false] at h
  rcases h with rfl | rfl | rfl | rfl | rfl | rfl | rfl
  · exact .inl (by decide)
  · exact .inr ⟨.double, by decide⟩
  · exact .inr ⟨.float, by decide⟩
  · exact .inr ⟨.int, by decide⟩
  · exact .inr ⟨.long, by decide⟩
  · exact .inr ⟨.boolean, by decide⟩
  · exact .inr ⟨.short, by decide⟩

theorem boxedName_injective {type other : Primitive}
    (h : type.boxedName.toList = other.boxedName.toList) : type = other := by
  revert h
  cases type <;> cases other <;> decide

theorem resolve_object : Resolver.resolve Store.initial []
    (String.ofList Signature.defaultReturnType) = some (.core .object) := by
  rfl

theorem resolve_boxed (type : Primitive) : Resolver.resolve Store.initial []
    (String.ofList type.boxedName.toList) = some (.core (.boxed type)) := by
  cases type <;> rfl

/-! ### Checking -/

/-- The access to an argument after the check, its parts at any positions. -/
inductive IsAccess (argsName : String) (index : Nat) : Kind → CheckedExpr → Prop
  | object (p q r s t : Position) (name : String) :
      IsAccess argsName index (.core .object)
        (.cast p ⟨q, name, .core .object⟩
          (.index r (.name s argsName) (.literal t (.int index))))
  | boxed (p q r s t u : Position) (name : String) (type : Primitive) :
      IsAccess argsName index (.core (.boxed type))
        (.methodCall u
          (.cast p ⟨q, name, .core (.boxed type)⟩
            (.index r (.name s argsName) (.literal t (.int index))))
          (Method.unboxingName type) [])

/-- The kind of the type of an argument. -/
def IsKindOf (typeName : List Char) (kind : Kind) : Prop :=
  typeName = Signature.defaultReturnType ∧ kind = .core .object ∨
    ∃ type : Primitive, typeName = type.boxedName.toList ∧ kind = .core (.boxed type)

section Check

variable {argsName : List Char} {declaration : Declaration} {short : IsShort declaration.index}
  {scope : Scope}

/-- What the check knows of types: the built-in ones. -/
abbrev builtinContext : Check.Context Unit :=
  Program.context Store.initial []

theorem check_slot {name args : String} {kind : Kind} (index : Value)
    (resolved : Resolver.resolve Store.initial [] name = some kind)
    (inScope : Check.inScope scope args = true) (p q r s t : Position) :
    Check.expression builtinContext scope
        (.cast p ⟨q, name, ()⟩ (.index r (.name s args) (.literal t index))) =
      .ok (.cast p ⟨q, name, kind⟩ (.index r (.name s args) (.literal t index))) := by
  have isType : Check.typeName builtinContext ⟨q, name, ()⟩ = .ok ⟨q, name, kind⟩ := by
    simp [Check.typeName, Program.context, resolved]
  have isVariable : Check.freeChain? scope (.name s args : Expr Value Unit) = none := by
    simp [Check.freeChain?, Check.chain?, inScope]
  simp only [Check.expression, isType, isVariable, bind, Except.bind]
  rfl

/-- An expression that is a slot up to its positions. -/
theorem placed_slot {e : Expr Value Unit}
    (h : e.unplaced id = (slotExpr argsName declaration short).unplaced Spelled.value) :
    ∃ p q r s t, e = .cast p ⟨q, String.ofList declaration.typeName, ()⟩
      (.index r (.name s (String.ofList argsName)) (.literal t (.int declaration.index))) := by
  obtain ⟨p, q, inner, rfl, isIndex⟩ := Expr.unplaced_cast h
  obtain ⟨r, container, place, rfl, isName, isPlace⟩ := Expr.unplaced_index isIndex
  obtain ⟨s, rfl⟩ := Expr.unplaced_name isName
  obtain ⟨t, value, rfl, isValue⟩ := Expr.unplaced_literal isPlace
  obtain rfl : value = .int declaration.index := isValue
  exact ⟨p, q, r, s, t, rfl⟩

/-- The check resolves the type of an access. -/
theorem check_access (typed : declaration.typeName ∈ argumentTypes)
    (inScope : Check.inScope scope (String.ofList argsName) = true) {e : Expr Value Unit}
    (h : e.unplaced id = (accessExpr argsName declaration short).unplaced Spelled.value) :
    ∃ kind checked, Check.expression builtinContext scope e = .ok checked ∧
      IsKindOf declaration.typeName kind ∧
      IsAccess (String.ofList argsName) declaration.index kind checked := by
  rcases argumentTypes_cases typed with ⟨isObject, other⟩ | ⟨type, isBoxed, boxed⟩
  · have isSlot : accessExpr argsName declaration short =
        slotExpr argsName declaration short := by
      simp only [accessExpr, other]
    rw [isSlot] at h
    obtain ⟨p, q, r, s, t, rfl⟩ := placed_slot h
    have resolved := isObject ▸ resolve_object
    exact ⟨_, _, check_slot _ resolved inScope p q r s t, .inl ⟨isObject, rfl⟩, .object ..⟩
  · have isCall : accessExpr argsName declaration short = .methodCall Position.start
        (slotExpr argsName declaration short) (Method.unboxingName type) [] := by
      simp only [accessExpr, boxed]
      cases type <;> rfl
    rw [isCall] at h
    obtain ⟨u, inner, rfl, isSlot⟩ := Expr.unplaced_methodCall h
    obtain ⟨p, q, r, s, t, rfl⟩ := placed_slot isSlot
    have resolved := isBoxed ▸ resolve_boxed type
    have slot := check_slot (.int declaration.index) resolved inScope p q r s t
    refine ⟨_, _, ?_, .inr ⟨type, isBoxed, rfl⟩,
      .boxed p q r s t u (String.ofList declaration.typeName) type⟩
    rw [Check.expression, slot]
    rfl

end Check

/-! ### The name of the arguments -/

/-- The name of the arguments at a time. -/
def argsAt (clock : Nat) : List Char :=
  argsNameAt (Nat.toDigits 10 clock)

theorem argsAt_identifier (clock : Nat) : IsIdentifier (String.ofList (argsAt clock)) where
  isName := by
    refine ⟨'o', Nat.toDigits 10 clock, String.toList_ofList, by decide, fun c isIn => ?_⟩
    have digit := Nat.isDigit_of_mem_toDigits (by decide) (by decide) isIn
    simp only [Char.isDigit, Bool.and_eq_true, decide_eq_true_eq] at digit
    simp only [Lexer.isNamePart, Bool.or_eq_true, Bool.and_eq_true, decide_eq_true_eq,
      Lexer.le_iff_toNat]
    exact .inr digit
  noKeyword := by
    have apart : ∀ word ∈ Keyword.all, word.text.toList.head? ≠ some 'o' := by decide +kernel
    refine List.find?_eq_none.mpr fun word isIn same => apart word isIn ?_
    rw [eq_of_beq same, String.toList_ofList]
    rfl

theorem argsAt_plain (clock : Nat) : Text.Plain (argsAt clock) := by
  intro c isIn
  rcases List.mem_cons.mp isIn with rfl | isDigit
  · decide
  · exact digits_plain clock c isDigit

/-- No reserved word is the name of the arguments. -/
theorem argsAt_unreserved (clock : Nat) :
    Check.reservedWords.contains (String.ofList (argsAt clock)) = false := by
  have apart : ∀ word ∈ Check.reservedWords, word.toList.head? ≠ some 'o' := by decide +kernel
  rw [← Bool.not_eq_true]
  intro reserved
  refine apart _ (List.contains_iff_mem.mp reserved) ?_
  rw [String.toList_ofList]
  rfl

theorem define_argsAt (clock : Nat) (position : Position) :
    Check.define [] (String.ofList (argsAt clock)) (.core .object) position =
      .ok [(String.ofList (argsAt clock), .core .object)] := by
  rw [Check.define, if_neg (by simp [Check.inScope]), argsAt_unreserved]
  rfl

/-- The program that returns an expression cast to `Object`. -/
def returning (p q r : Position) (name argsName : String) (checked : CheckedExpr) : Program where
  body := [.returns p (some (.cast q ⟨r, name, .core .object⟩ checked))]
  argsName := argsName
  returnKind := .core .object

/-- **Compiling.** The finished source compiles to the program that returns the access. -/
theorem compile_access (clock : Nat) {declaration : Declaration}
    (typed : declaration.typeName ∈ argumentTypes) (short : IsShort declaration.index) :
    ∃ p q r name checked kind,
      Program.compile [] (String.ofList (argsAt clock))
          (String.ofList Signature.defaultReturnType) (sourceText (argsAt clock) declaration) =
        .ok (returning p q r name (String.ofList (argsAt clock)) checked) ∧
      IsKindOf declaration.typeName kind ∧
      IsAccess (String.ofList (argsAt clock)) declaration.index kind checked := by
  obtain ⟨p, value, read, same⟩ := readBody_access (argsAt_identifier clock) typed short
  obtain ⟨q, r, inner, rfl, isAccess⟩ := Expr.unplaced_cast same
  have inScope : Check.inScope [(String.ofList (argsAt clock), Kind.core .object)]
      (String.ofList (argsAt clock)) = true := by
    simp [Check.inScope]
  obtain ⟨kind, checked, isChecked, isKind, access⟩ := check_access typed inScope isAccess
  refine ⟨p, q, r, String.ofList Signature.defaultReturnType, checked, kind, ?_, isKind, access⟩
  have returned : Resolver.resolveAny Store.initial []
      (String.ofList Signature.defaultReturnType) = .ok (some (.core .object)) := by
    rw [Resolver.resolveAny, resolve_object]
  rw [Program.compile, read]
  simp only [Program.ofBody, returned, Check.body, define_argsAt, Check.statements,
    Check.statement, Check.expression, typeNamed, isChecked, bind, Except.bind]
  rfl

/-! ### Running -/

/-- No body has set a member on `Object` in the place of one of its operations. -/
def IsIntact (store : Store) : Prop :=
  ∀ operation, (Kind.core .object).override? store operation = none

/-- Any value can be cast to `Object`. -/
theorem Kind.cast_object (value : Value) : (Kind.core .object).cast value = .ok value := by
  by_cases null : value = .null
  · simp [cast, castReference, null]
  · simp [cast, castReference, Kind.isInstance, null, bind, Except.bind, pure, Except.pure]

theorem IsIntact.of_settings {before behind : Store} (intact : IsIntact before)
    (same : behind.settings = before.settings) : IsIntact behind := by
  intro operation
  have kept := intact operation
  simp only [Kind.override?, Store.setting?, same] at kept ⊢
  exact kept

theorem IsKindOf.own {typeName : List Char} {kind : Kind} (isKind : IsKindOf typeName kind)
    {store : Store} (intact : IsIntact store) (operation : KindOperation) :
    kind.override? store operation = none := by
  rcases isKind with ⟨-, rfl⟩ | ⟨type, -, rfl⟩
  · exact intact operation
  · have numeric : (Kind.core (.boxed type)).IsNumeric := trivial
    exact numeric.override?_eq store operation

namespace Eval

open Machine (outcome)

variable {state behind : State} {position : Position} {type : TypeName Kind}
  {operand : CheckedExpr} {value : Value}

/-- A cast of its own casts the value of its operand. -/
theorem expression_cast (own : type.resolved.override? state.store .cast = none)
    (own' : type.resolved.override? behind.store .isInstance = none)
    (ended : outcome (expression operand) state = (.ok value, behind)) :
    outcome (expression (.cast position type operand)) state =
      outcome (Machine.act (Action.ofResult (type.resolved.cast value))) behind := by
  have found : outcome (Machine.act (Dispatch.find type.resolved .cast)) state =
      (.ok none, state) := by
    rw [← own]
    rfl
  rw [expression, Machine.outcome_bind_ok found, Machine.outcome_bind_ok ended,
    Machine.outcome_act, Machine.outcome_act, Dispatch.cast_own value own']

/-- A cast of an operand that halts. -/
theorem expression_cast_halts {halt : Halt}
    (own : type.resolved.override? state.store .cast = none)
    (ended : outcome (expression operand) state = (.error halt, behind)) :
    outcome (expression (.cast position type operand)) state = (.error halt, behind) := by
  have found : outcome (Machine.act (Dispatch.find type.resolved .cast)) state =
      (.ok none, state) := by
    rw [← own]
    rfl
  rw [expression, Machine.outcome_bind_ok found, Machine.outcome_bind_error ended]

/-- A body that returns an expression. -/
theorem statements_returns (fuel : Nat) (position : Position) (expr : CheckedExpr)
    (state : State) :
    outcome (statements fuel [.returns position (some expr)]) state =
      match outcome (expression expr) state with
      | (.ok value, behind) => (.ok (.returned value), behind)
      | (.error halt, behind) => (.error halt, behind) := by
  have first : outcome (statement fuel (.returns position (some expr))) state =
      match outcome (expression expr) state with
      | (.ok value, behind) => (.ok (.returned value), behind)
      | (.error halt, behind) => (.error halt, behind) := by
    rw [statement, Machine.outcome_bind]
    rcases outcome (expression expr) state with ⟨_ | _, _⟩ <;> rfl
  rw [statements, Machine.outcome_bind, first]
  rcases outcome (expression expr) state with ⟨_ | _, _⟩ <;> rfl

end Eval

namespace Machine

/-- A result that is taken over ends with the value, up to its mark, and sets no member. -/
theorem outcome_ofResult (value : Value) (state : State) :
    ∃ settled behind,
      outcome (act (Action.ofResult (.ok value))) state = (.ok settled, behind) ∧
        value.Settles settled ∧ behind.store.settings = state.store.settings ∧
        (value.IsSettled → settled = value) := by
  obtain ⟨settled, behind, ended, settles, settings⟩ := Action.settle_ends value state.store
  have same : (Action.ofResult (.ok value)).outcome state.store =
      (Action.settle value).outcome state.store := rfl
  refine ⟨settled, { state with store := behind }, ?_, settles, settings, fun isSettled => ?_⟩
  · rw [outcome_act, same, ended]
  · rw [Action.settle_settled isSettled] at ended
    cases ended
    rfl

theorem outcome_ofFault (fault : Fault) (state : State) :
    outcome (act (Action.ofResult (.error fault))) state = (.error (.fault fault), state) := rfl

end Machine

section Run

open Machine (outcome)

variable {argsName name : String} {index : Nat} {args : Value} {store : Store}
  {values : Array Value}

/-- The place of an argument is loaded from the arguments. -/
theorem outcome_index {state : State} {r s t : Position} {kind : Kind}
    (bound : state.environment.find? argsName = some ⟨kind, some args⟩)
    (elements : Place.elements? state.store args = some values) (inside : index < values.size) :
    outcome (Eval.expression (.index r (.name s argsName) (.literal t (.int index)))) state =
      (.ok values[index], state) := by
  have isName : outcome (Eval.expression (.name s argsName)) state = (.ok args, state) := by
    rw [Eval.expression, Machine.outcome_valueOf, bound]
  have isPlace : outcome (Eval.expression (.literal t (.int index))) state =
      (.ok (.int index), state) := rfl
  have given : args ≠ .null := by
    rintro rfl
    cases elements
  have checked : Place.check .arrayIndexRange values.size (.int index) = .ok index := by
    simp [Place.check, Value.integer?, inside]
  have loaded : (Place.load args (.int index)).outcome state.store =
      (.ok values[index], state.store) := by
    rw [Place.load, if_neg given, Action.outcome_get, elements]
    simp only [checked]
    have element : values.getD index .null = values[index] := by simp [inside]
    rw [← element]
    rfl
  rw [Eval.expression, Machine.outcome_bind_ok isName, Machine.outcome_bind_ok isPlace,
    Machine.outcome_act, loaded]

/-- The argument cast to the type of its declaration. -/
theorem slot_outcome {state : State} {p q r s t : Position} {kind outer : Kind}
    (own : ∀ operation, kind.override? state.store operation = none)
    (bound : state.environment.find? argsName = some ⟨outer, some args⟩)
    (elements : Place.elements? state.store args = some values) (inside : index < values.size) :
    outcome (Eval.expression (.cast p ⟨q, name, kind⟩
        (.index r (.name s argsName) (.literal t (.int index))))) state =
      outcome (Machine.act (Action.ofResult (kind.cast values[index]))) state :=
  Eval.expression_cast (own _) (own _) (outcome_index bound elements inside)

/-- How an access ends: with the argument as the type takes it, or with the error that the type
gives instead. -/
structure Reads (typeName : List Char) (argument : Value) (result : Except Halt Value) :
    Prop where
  /-- Any value is an object. -/
  object : typeName = Signature.defaultReturnType → argument.IsSettled → result = .ok argument
  /-- What is `null` cannot be unboxed. -/
  null : ∀ type : Primitive, typeName = type.boxedName.toList → argument = .null →
    result = .error (.fault (.evaluation (.nullReceiver (Method.unboxingName type))))
  /-- An instance of the boxed type is cast to the primitive. -/
  cast : ∀ type : Primitive, typeName = type.boxedName.toList → type.boxes argument = true →
    (type.isFloating = true → argument.FitsDouble) →
    ∃ value settled, type.cast argument = .ok value ∧ value.Settles settled ∧
      result = .ok settled
  /-- Anything else is refused. -/
  other : ∀ type : Primitive, typeName = type.boxedName.toList → argument ≠ .null →
    type.boxes argument = false →
    result = .error (.fault (.evaluation (.classCast argument.typeName type.boxedName)))

/-- How an expression ends in a state, if no member of `Object` is set by it. -/
def Ends (expr : CheckedExpr) (state : State) (P : Except Halt Value → Prop) : Prop :=
  ∃ result behind, outcome (Eval.expression expr) state = (result, behind) ∧
    behind.store.settings = state.store.settings ∧ P result

theorem boxed_not_object (type : Primitive) :
    type.boxedName.toList ≠ Signature.defaultReturnType := by
  cases type <;> decide

theorem boxes_null (type : Primitive) : type.boxes .null = false := by
  cases type <;> rfl

/-- An access to an argument of type `Object`. -/
theorem object_reads {checked : CheckedExpr} {state : State} {outer : Kind}
    (intact : IsIntact state.store) (access : IsAccess argsName index (.core .object) checked)
    (bound : state.environment.find? argsName = some ⟨outer, some args⟩)
    (elements : Place.elements? state.store args = some values) (inside : index < values.size) :
    Ends checked state (Reads Signature.defaultReturnType values[index]) := by
  cases access with
  | object p q r s t name =>
    have kept := Kind.cast_object values[index]
    obtain ⟨result, behind, ended, -, settings, same⟩ :=
      Machine.outcome_ofResult values[index] state
    refine ⟨.ok result, behind, ?_, settings, ?_⟩
    · rw [slot_outcome intact bound elements inside, kept, ended]
    · exact ⟨fun _ settled => congrArg Except.ok (same settled),
        fun type named => (boxed_not_object type named.symm).elim,
        fun type named => (boxed_not_object type named.symm).elim,
        fun type named => (boxed_not_object type named.symm).elim⟩

/-- The call of the method that unboxes a slot. -/
theorem call_outcome {slot : CheckedExpr} {state behind : State} {u : Position} {value : Value}
    (isValue : ¬Eval.IsType slot) (method : String)
    (ended : outcome (Eval.expression slot) state = (.ok value, behind)) :
    outcome (Eval.expression (.methodCall u slot method [])) state =
      outcome (Machine.act (Method.invoke value method [])) behind := by
  have noArgs : outcome (Eval.expressions []) behind = (.ok [], behind) := rfl
  rw [Eval.expression_methodCall isValue, Machine.outcome_bind_ok ended,
    Machine.outcome_bind_ok noArgs]

theorem Reads.boxed {type : Primitive} {argument : Value} {result : Except Halt Value}
    (null : argument = .null →
      result = .error (.fault (.evaluation (.nullReceiver (Method.unboxingName type)))))
    (cast : type.boxes argument = true → (type.isFloating = true → argument.FitsDouble) →
      ∃ value settled, type.cast argument = .ok value ∧ value.Settles settled ∧
        result = .ok settled)
    (other : argument ≠ .null → type.boxes argument = false →
      result = .error (.fault (.evaluation (.classCast argument.typeName type.boxedName)))) :
    Reads type.boxedName.toList argument result where
  object named := (boxed_not_object type named).elim
  null _ named := boxedName_injective named ▸ null
  cast _ named := boxedName_injective named ▸ cast
  other _ named := boxedName_injective named ▸ other

/-- An access to an argument of a boxed type. -/
theorem boxed_reads {checked : CheckedExpr} {state : State} {outer : Kind} {type : Primitive}
    (access : IsAccess argsName index (.core (.boxed type)) checked)
    (bound : state.environment.find? argsName = some ⟨outer, some args⟩)
    (elements : Place.elements? state.store args = some values) (inside : index < values.size) :
    Ends checked state (Reads type.boxedName.toList values[index]) := by
  have numeric : (Kind.core (.boxed type)).IsNumeric := trivial
  cases access with
  | boxed p q r s t u name _ =>
    generalize isSlot : (Expr.cast p ⟨q, name, .core (.boxed type)⟩
      (.index r (.name s argsName) (.literal t (.int index))) : CheckedExpr) = slot
    have isValue : ¬Eval.IsType slot := by
      rintro ⟨_, _, rfl⟩
      cases isSlot
    have slotEnds : outcome (Eval.expression slot) state = outcome
        (Machine.act (Action.ofResult ((Kind.core (.boxed type)).cast values[index]))) state :=
      isSlot ▸ slot_outcome (numeric.override?_eq state.store) bound elements inside
    have halts {fault : Fault} (refused : (Kind.core (.boxed type)).cast values[index] =
        .error fault) : outcome (Eval.expression
          (.methodCall u slot (Method.unboxingName type) [])) state =
            (.error (.fault fault), state) := by
      rw [refused, Machine.outcome_ofFault] at slotEnds
      rw [Eval.expression_methodCall isValue, Machine.outcome_bind_error slotEnds]
    by_cases null : values[index] = .null
    · have called : outcome (Eval.expression
          (.methodCall u slot (Method.unboxingName type) [])) state =
            (.error (.fault (.evaluation (.nullReceiver (Method.unboxingName type)))), state) := by
        rw [null] at slotEnds
        rw [call_outcome isValue _ slotEnds]
        rfl
      refine ⟨_, _, called, rfl, .boxed (fun _ => rfl) ?_ (fun given => (given null).elim)⟩
      rw [null, boxes_null]
      exact fun isInstance => nomatch isInstance
    · by_cases isInstance : type.boxes values[index] = true
      · have sameCast := Kind.cast_instance isInstance
        cases cast : type.cast values[index] with
        | error fault =>
          refine ⟨_, _, halts (sameCast.trans cast), rfl,
            .boxed (fun given => (null given).elim) (fun _ fits => ?_) ?_⟩
          · obtain ⟨value, fitted⟩ := Primitive.cast_instance isInstance fits
            rw [cast] at fitted
            cases fitted
          · rw [isInstance]
            exact fun _ other => nomatch other
        | ok value =>
          obtain ⟨first, behind, ended, settles, settings, -⟩ :=
            Machine.outcome_ofResult value state
          rw [sameCast, cast, ended] at slotEnds
          have holds := (Primitive.cast_holds cast).settles settles
          obtain ⟨last, store, called, settles', settings'⟩ := Method.invoke_unboxing holds
            (Primitive.cast_again cast settles) behind.store
          refine ⟨.ok last, { behind with store }, ?_, settings'.trans settings,
            .boxed (fun given => (null given).elim)
              (fun _ _ => ⟨value, last, cast, settles.trans settles', rfl⟩) ?_⟩
          · rw [call_outcome isValue _ slotEnds, Machine.outcome_act, called]
          · rw [isInstance]
            exact fun _ other => nomatch other
      · rw [Bool.not_eq_true] at isInstance
        refine ⟨_, _, halts (Kind.cast_other null isInstance), rfl,
          .boxed (fun given => (null given).elim) ?_ (fun _ _ => rfl)⟩
        rw [isInstance]
        exact fun same => nomatch same

/-- An access to an argument, whatever its type. -/
theorem access_reads {checked : CheckedExpr} {state : State} {kind outer : Kind}
    {typeName : List Char} (isKind : IsKindOf typeName kind) (intact : IsIntact state.store)
    (access : IsAccess argsName index kind checked)
    (bound : state.environment.find? argsName = some ⟨outer, some args⟩)
    (elements : Place.elements? state.store args = some values) (inside : index < values.size) :
    Ends checked state (Reads typeName values[index]) := by
  rcases isKind with ⟨rfl, rfl⟩ | ⟨type, rfl, rfl⟩
  · exact object_reads intact access bound elements inside
  · exact boxed_reads access bound elements inside

/-- A value that is taken over once more stays what it is. -/
theorem Reads.settles {typeName : List Char} {argument value settled : Value}
    (reads : Reads typeName argument (.ok value)) (settles : value.Settles settled)
    (same : value.IsSettled → settled = value) : Reads typeName argument (.ok settled) where
  object named isSettled := by
    have isArgument := Except.ok.inj (reads.object named isSettled)
    rw [same (isArgument ▸ isSettled), isArgument]
  null type named null := nomatch reads.null type named null
  cast type named isInstance fits := by
    obtain ⟨first, last, cast, settles', isValue⟩ := reads.cast type named isInstance fits
    obtain rfl := Except.ok.inj isValue
    exact ⟨first, settled, cast, settles'.trans settles, rfl⟩
  other type named given different := nomatch reads.other type named given different

/-- The cast to `Object` around an access leaves it as it is. -/
theorem object_ends {checked : CheckedExpr} {state : State} {q r : Position}
    {typeName : List Char} {argument : Value} (intact : IsIntact state.store)
    (ends : Ends checked state (Reads typeName argument)) :
    Ends (.cast q ⟨r, name, .core .object⟩ checked) state (Reads typeName argument) := by
  obtain ⟨result, between, ended, settings, reads⟩ := ends
  cases result with
  | error halt =>
    exact ⟨.error halt, between, Eval.expression_cast_halts (intact .cast) ended, settings, reads⟩
  | ok value =>
    obtain ⟨settled, behind, taken, settles, settings', same⟩ :=
      Machine.outcome_ofResult value between
    refine ⟨.ok settled, behind, ?_, settings'.trans settings, reads.settles settles same⟩
    rw [Eval.expression_cast (intact .cast) (intact.of_settings settings .isInstance) ended,
      Kind.cast_object, taken]

/-- The run of a program that returns an expression cast to `Object`. -/
theorem run_reads {checked : CheckedExpr} {p q r : Position} {typeName : List Char}
    {argument : Value} (fuel : Nat) (intact : IsIntact store)
    (ends : Ends checked ⟨(returning p q r name argsName checked).start args, store⟩
      (Reads typeName argument)) :
    Reads typeName argument
      ((returning p q r name argsName checked).run fuel args store).1 := by
  obtain ⟨result, behind, ended, settings, reads⟩ := object_ends intact ends
  generalize isProgram : returning p q r name argsName checked = program at ended reads settings
  have body : program.body = [.returns p (some (.cast q ⟨r, name, .core .object⟩ checked))] :=
    isProgram ▸ rfl
  have returnKind : program.returnKind = .core .object := isProgram ▸ rfl
  cases result with
  | error halt =>
    have halted : outcome (Eval.statements fuel program.body) ⟨program.start args, store⟩ =
        (.error halt, behind) := by
      rw [body, Eval.statements_returns, ended]
    rw [Program.run_halted halted]
    exact reads
  | ok value =>
    have returned : outcome (Eval.statements fuel program.body) ⟨program.start args, store⟩ =
        (.ok (.returned value), behind) := by
      rw [body, Eval.statements_returns, ended]
    have intact := intact.of_settings settings
    have converted : (Dispatch.convertResult program.returnKind value).outcome behind.store =
        (Action.settle value).outcome behind.store := by
      rw [returnKind, Dispatch.convertResult_other id, intact .cast,
        Dispatch.cast_own value (intact .isInstance), Kind.cast_object]
      rfl
    obtain ⟨settled, last, taken, settles, -⟩ := Action.settle_ends value behind.store
    rw [Program.run_returned returned (converted.trans taken)]
    refine reads.settles settles fun isSettled => ?_
    rw [Action.settle_settled isSettled] at taken
    cases taken
    rfl

end Run

/-! ### Functions -/

/-- A number below a power of ten has no more digits than the power. -/
theorem length_toDigits_le {index count digits : Nat} (some : 0 < digits)
    (few : count ≤ Nat.pow 10 digits) (inside : index < count) :
    (Nat.toDigits 10 index).length ≤ digits :=
  (Nat.length_toDigits_le_iff (by decide) some).mpr (inside.trans_le few)

/-- The bound on the parameters, shown without working the power out. -/
theorem le_ten_pow {count digits : Nat} (few : count ≤ 10) (some : 0 < digits) :
    count ≤ Nat.pow 10 digits :=
  few.trans (Nat.le_self_pow (Nat.ne_of_gt some) 10)

theorem maxDigits_pos : 0 < maxDigits :=
  Nat.succ_pos _

/-- Three parameters, of which the last one has the name of the first. -/
def repeating : List Parameter :=
  [⟨"Integer".toList, "x".toList⟩, ⟨"Object".toList, "y".toList⟩, ⟨"Double".toList, "x".toList⟩]

theorem repeating_bindable : Bindable repeating where
  typed := by decide +kernel
  some := by decide +kernel
  solid := by simp [repeating, Text.isBlank]
  noBracket := by decide +kernel
  plain := by decide +kernel
  noType := by decide +kernel
  noMethod := by decide +kernel

end Formulary
