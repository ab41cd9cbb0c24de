/-
Expressions and statements under a transfer.

Running a tree and running the relabelled one come to the same, as long as no name of the tree is
that of a variable that only the second run has. This holds node by node, and for loops by induction on the
rounds that are left.

* `Eval.expression_alike`, `Eval.statement_alike` — a tree and the relabelled one.
* `Program.run_renamed` — whole runs.
-/

import Formulary.Proofs.Execution
import Formulary.Proofs.Transfers

namespace Formulary.Eval

open Machine (Alike)

variable {T : Transfer} {depth : Nat}

/-! ### Locations -/

/-- A location as the second run has it. -/
def Location.rename (T : Transfer) : Location → Location
  | .variable name kind => .variable (T.ident name) (kind.rename T.renames)
  | .field receiver name => .field (receiver.rename T.renames) name
  | .element container index =>
    .element (container.rename T.renames) (index.rename T.renames)

/-- A location that is none of a variable that only the second run has. -/
def Location.Clear (T : Transfer) : Location → Prop
  | .variable name _ => T.Clear (.variable name)
  | _ => True

namespace Location

theorem read_alike {location : Location} (clear : location.Clear T) :
    Alike T depth (Value.rename T.renames) location.read (location.rename T).read := by
  cases location with
  | «variable» => exact .valueOf clear
  | field receiver name => exact .act (Member.read_alike receiver name)
  | element container index => exact .act (Place.load_alike container index)

theorem write_alike {location : Location} (clear : location.Clear T) (value : Value) :
    Alike T depth id (location.write value)
      ((location.rename T).write (value.rename T.renames)) :=
  match location, clear with
  | .variable _ _, clear => .changeEnvironment fun _ _ related => related.setValue clear value
  | .field receiver name, _ => .act (Member.write_alike receiver name value)
  | .element container index, _ => .act (Place.store_alike container index value)

theorem adapt_alike (narrowing : Bool) (value : Value) (location : Location) :
    Alike T depth (Value.rename T.renames) (location.adapt narrowing value)
      ((location.rename T).adapt narrowing (value.rename T.renames)) := by
  cases location with
  | «variable» name kind =>
    refine .act ?_
    cases narrowing with
    | true =>
      exact .bind (Dispatch.find_alike kind .cast) fun found =>
        Dispatch.cast_alike found kind value
    | false =>
      exact .bind (Dispatch.find_alike kind .convert) fun found =>
        Dispatch.convert_alike found kind value
  | field receiver name => exact .pure rfl
  | element container index => exact .pure rfl

theorem assign_alike (narrowing : Bool) (value : Value) {location : Location}
    (clear : location.Clear T) :
    Alike T depth (Value.rename T.renames) (location.assign narrowing value)
      ((location.rename T).assign narrowing (value.rename T.renames)) :=
  .bind (adapt_alike narrowing value location) fun taken =>
    .bind (write_alike clear taken) fun _ => .pure rfl

end Location

/-- A location that an expression stands for has no other name than the expression. -/
theorem locate_clear {target : CheckedExpr} (clear : ∀ m ∈ target.mentions, T.Clear m)
    (state : State) (location : Location) (behind : State)
    (h : Machine.outcome (locate target) state = (.ok location, behind)) :
    location.Clear T := by
  unfold locate at h
  split at h
  · obtain ⟨found, between, bound, h⟩ := Machine.bind_ok.mp h
    cases h
    exact clear (.variable _) (by simp [Expr.mentions])
  · obtain ⟨_, _, _, h⟩ := Machine.bind_ok.mp h
    cases h
    trivial
  · obtain ⟨_, _, _, h⟩ := Machine.bind_ok.mp h
    cases h
    trivial
  · obtain ⟨_, _, _, h⟩ := Machine.bind_ok.mp h
    obtain ⟨_, _, _, h⟩ := Machine.bind_ok.mp h
    cases h
    trivial
  · cases h

/-! ### Expressions -/

theorem isType_relabel {expr : CheckedExpr} :
    IsType (expr.relabel T.labels) ↔ IsType expr := by
  constructor
  · rintro ⟨position, type, same⟩
    cases expr with
    | typeName p inner => exact ⟨p, inner, rfl⟩
    | _ => cases same
  · rintro ⟨position, type, rfl⟩
    exact ⟨_, _, rfl⟩

/-- The truth value of a result. -/
theorem truth_alike (value : Value) :
    Alike T depth id (Machine.ofExcept (Arithmetic.truth value))
      (Machine.ofExcept (Arithmetic.truth (value.rename T.renames))) := by
  refine .ofExcept ?_
  rw [Arithmetic.truth_rename]
  cases Arithmetic.truth value <;> rfl

mutual

/-- **Evaluating a relabelled expression.** -/
theorem expression_alike : ∀ (expr : CheckedExpr), (∀ m ∈ expr.mentions, T.Clear m) →
    Alike T depth (Value.rename T.renames) (expression expr)
      (expression (expr.relabel T.labels))
  | .literal .., _ => by
    rw [Expr.relabel, expression, expression]
    exact .pure rfl
  | .name _ ident, clear => by
    rw [Expr.relabel, expression, expression]
    exact .valueOf (clear _ (by simp [Expr.mentions]))
  | .typeName _ type, _ => by
    rw [Expr.relabel, expression, expression]
    exact .act (Dispatch.asValue_alike type.resolved)
  | .field _ receiver member, clear => by
    by_cases static : IsType receiver
    · obtain ⟨_, type, rfl⟩ := static
      rw [Expr.relabel, Expr.relabel, expression, expression]
      exact .act (Dispatch.getStatic_alike type.resolved member)
    · rw [Expr.relabel, expression_field static, expression_field (mt isType_relabel.mp static)]
      exact .bind (expression_alike receiver clear) fun receiver =>
        .act (Member.read_alike receiver member)
  | .methodCall _ receiver method args, clear => by
    obtain ⟨inReceiver, inArgs⟩ := List.forall_mem_append.mp clear
    by_cases static : IsType receiver
    · obtain ⟨_, type, rfl⟩ := static
      rw [Expr.relabel, Expr.relabel, expression, expression]
      exact .bind (expressions_alike args inArgs) fun args =>
        .act (Dispatch.callStatic_alike type.resolved method args)
    · rw [Expr.relabel, expression_methodCall static,
        expression_methodCall (mt isType_relabel.mp static)]
      exact .bind (expression_alike receiver inReceiver) fun receiver =>
        .bind (expressions_alike args inArgs) fun args =>
          .act (Method.invoke_alike receiver method args)
  | .call _ callee args, clear => by
    rw [Expr.relabel, expression, expression]
    exact .bind (.act (Dispatch.find_alike callee.resolved .invoke)) fun found =>
      .bind (expressions_alike args (List.forall_mem_cons.mp clear).2) fun args =>
        .act (Dispatch.invoke_alike found callee.resolved args)
  | .index _ container place, clear => by
    obtain ⟨inContainer, inPlace⟩ := List.forall_mem_append.mp clear
    rw [Expr.relabel, expression, expression]
    exact .bind (expression_alike container inContainer) fun container =>
      .bind (expression_alike place inPlace) fun place =>
        .act (Place.load_alike container place)
  | .unary _ op operand, clear => by
    rw [Expr.relabel, expression, expression]
    exact .bind (expression_alike operand clear) fun value =>
      .act (Operation.unary_alike op value)
  | .step _ op target before, clear => by
    rw [Expr.relabel, expression, expression]
    refine .bindOf (locate_alike target clear) (locate_clear clear) fun location clear => ?_
    refine .bind (Location.read_alike clear) fun old => ?_
    refine .bind (.act (Operation.binary_alike op.toBinary old (.int 1))) fun result => ?_
    refine .bind (Location.assign_alike true result clear) fun new => .pure ?_
    cases before <;> rfl
  | .binary _ op left right, clear => by
    obtain ⟨inLeft, inRight⟩ := List.forall_mem_append.mp clear
    rw [Expr.relabel, expression, expression]
    exact .bind (expression_alike left inLeft) fun left =>
      .bind (expression_alike right inRight) fun right =>
        .act (Operation.binary_alike op left right)
  | .logical _ op left right, clear => by
    obtain ⟨inLeft, inRight⟩ := List.forall_mem_append.mp clear
    rw [Expr.relabel, expression, expression]
    refine .bind (expression_alike left inLeft) fun value =>
      .bind (truth_alike value) fun first => ?_
    have further : Alike T depth (Value.rename T.renames)
        (do return .bool (← Machine.ofExcept (Arithmetic.truth (← expression right))))
        (do return .bool (← Machine.ofExcept
          (Arithmetic.truth (← expression (right.relabel T.labels))))) :=
      .bind (expression_alike right inRight) fun value =>
        .bind (truth_alike value) fun _ => .pure rfl
    cases op <;> cases first
    · exact .pure rfl
    · exact further
    · exact further
    · exact .pure rfl
  | .conditional _ test thenValue elseValue, clear => by
    obtain ⟨inTest, inValues⟩ := List.forall_mem_append.mp clear
    obtain ⟨inThen, inElse⟩ := List.forall_mem_append.mp inValues
    rw [Expr.relabel, expression, expression]
    refine .bind (expression_alike test inTest) fun value =>
      .bind (truth_alike value) fun holds => ?_
    cases holds with
    | true => exact expression_alike thenValue inThen
    | false => exact expression_alike elseValue inElse
  | .assign _ none target value, clear => by
    obtain ⟨inTarget, inValue⟩ := List.forall_mem_append.mp clear
    rw [Expr.relabel, expression, expression]
    refine .bindOf (locate_alike target inTarget) (locate_clear inTarget)
      fun location clear => ?_
    exact .bind (expression_alike value inValue) fun value =>
      Location.assign_alike false value clear
  | .assign _ (some op) target value, clear => by
    obtain ⟨inTarget, inValue⟩ := List.forall_mem_append.mp clear
    rw [Expr.relabel, expression, expression]
    refine .bindOf (locate_alike target inTarget) (locate_clear inTarget)
      fun location clear => ?_
    refine .bind (Location.read_alike clear) fun old => ?_
    refine .bind (expression_alike value inValue) fun value => ?_
    exact .bind (.act (Operation.binary_alike op old value)) fun result =>
      Location.assign_alike true result clear
  | .cast _ type operand, clear => by
    rw [Expr.relabel, expression, expression]
    exact .bind (.act (Dispatch.find_alike type.resolved .cast)) fun found =>
      .bind (expression_alike operand clear) fun value =>
        .act (Dispatch.cast_alike found type.resolved value)
  | .instanceOf _ value type, clear => by
    rw [Expr.relabel, expression, expression]
    refine .bind (expression_alike value clear) fun value => ?_
    simp only [Value.rename_eq_null]
    split
    · exact .pure rfl
    · exact .act (Dispatch.isInstance_alike type.resolved value)
  | .new _ type args, clear => by
    rw [Expr.relabel, expression, expression]
    exact .bind (.act (Dispatch.find_alike type.resolved .instantiate)) fun found =>
      .bind (expressions_alike args clear) fun args =>
        .act (Dispatch.instantiate_alike found type.resolved args)

/-- Evaluating relabelled expressions. -/
theorem expressions_alike : ∀ (exprs : List CheckedExpr),
    (∀ m ∈ Expr.mentionsOfAll exprs, T.Clear m) →
    Alike T depth (List.map (·.rename T.renames)) (expressions exprs)
      (expressions (Expr.relabelAll T.labels exprs))
  | [], _ => by
    rw [Expr.relabelAll, expressions]
    exact .pure rfl
  | expr :: rest, clear => by
    obtain ⟨inFirst, inRest⟩ := List.forall_mem_append.mp clear
    rw [Expr.relabelAll, expressions, expressions]
    exact .bind (expression_alike expr inFirst) fun _ =>
      .bind (expressions_alike rest inRest) fun _ => .pure rfl

/-- The location that a relabelled expression stands for. -/
theorem locate_alike : ∀ (expr : CheckedExpr), (∀ m ∈ expr.mentions, T.Clear m) →
    Alike T depth (Location.rename T) (locate expr) (locate (expr.relabel T.labels))
  | .name _ ident, clear => by
    rw [Expr.relabel, locate, locate]
    exact .bind (.binding (clear _ (by simp [Expr.mentions]))) fun _ => .pure rfl
  | .field _ receiver _, clear => by
    by_cases static : IsType receiver
    · obtain ⟨_, type, rfl⟩ := static
      rw [Expr.relabel, Expr.relabel, locate, locate]
      exact .bind (.act (Dispatch.asValue_alike type.resolved)) fun _ => .pure rfl
    · rw [Expr.relabel, locate_field static, locate_field (mt isType_relabel.mp static)]
      exact .bind (expression_alike receiver clear) fun _ => .pure rfl
  | .index _ container place, clear => by
    obtain ⟨inContainer, inPlace⟩ := List.forall_mem_append.mp clear
    rw [Expr.relabel, locate, locate]
    exact .bind (expression_alike container inContainer) fun _ =>
      .bind (expression_alike place inPlace) fun _ => .pure rfl
  | .literal .., _ | .typeName .., _ | .methodCall .., _ | .call .., _ | .unary .., _
  | .step .., _ | .binary .., _ | .logical .., _ | .conditional .., _ | .assign .., _
  | .cast .., _ | .instanceOf .., _ | .new .., _ => .throw rfl

end

theorem condition_alike {test : CheckedExpr} (clear : ∀ m ∈ test.mentions, T.Clear m) :
    Alike T depth id (condition test) (condition (test.relabel T.labels)) :=
  .bind (expression_alike test clear) truth_alike

theorem effects_alike (exprs : List CheckedExpr)
    (clear : ∀ m ∈ Expr.mentionsOfAll exprs, T.Clear m) :
    Alike T depth id (effects exprs) (effects (Expr.relabelAll T.labels exprs)) := by
  induction exprs with
  | nil => exact .pure rfl
  | cons expr rest ih =>
    obtain ⟨inFirst, inRest⟩ := List.forall_mem_append.mp clear
    exact .bind (expression_alike expr inFirst) fun _ => ih inRest

/-! ### Loops -/

section Loops

variable {round round' : Machine Completion}
  (rounds : Alike T depth (Completion.rename T.renames) round round')

include rounds

theorem loop_alike {goOn goOn' : Machine Bool} {update update' : Machine Unit}
    (tested : Alike T depth id goOn goOn') (updated : Alike T depth id update update')
    (fuel : Nat) :
    Alike T depth (Completion.rename T.renames) (loop goOn round update fuel)
      (loop goOn' round' update' fuel) := by
  induction fuel with
  | zero => exact .throw rfl
  | succ fuel ih =>
    rw [loop, loop]
    refine .bind tested fun holds => ?_
    cases holds with
    | false => exact .pure rfl
    | true =>
      refine .bind rounds fun completion => ?_
      cases completion with
      | broke => exact .pure rfl
      | returned value => exact .pure rfl
      | normal => exact .bind updated fun _ => ih
      | continued => exact .bind updated fun _ => ih

theorem loopOnce_alike {goOn goOn' : Machine Bool} (tested : Alike T depth id goOn goOn')
    (fuel : Nat) :
    Alike T depth (Completion.rename T.renames) (loopOnce goOn round fuel)
      (loopOnce goOn' round' fuel) := by
  induction fuel with
  | zero => exact .throw rfl
  | succ fuel ih =>
    have again : Alike T depth (Completion.rename T.renames)
        (do if ← goOn then loopOnce goOn round fuel else return .normal)
        (do if ← goOn' then loopOnce goOn' round' fuel else return .normal) := by
      refine .bind tested fun holds => ?_
      cases holds with
      | true => exact ih
      | false => exact .pure rfl
    rw [loopOnce, loopOnce]
    refine .bind rounds fun completion => ?_
    cases completion with
    | broke => exact .pure rfl
    | returned value => exact .pure rfl
    | normal => exact again
    | continued => exact again

end Loops

theorem loopOver_alike {round round' : Value → Machine Completion}
    (rounds : ∀ value, Alike T depth (Completion.rename T.renames) (round value)
      (round' (value.rename T.renames))) (fuel : Nat) :
    ∀ cursor, Alike T depth (Completion.rename T.renames) (loopOver round fuel cursor)
      (loopOver round' fuel (cursor.rename T.renames)) := by
  induction fuel with
  | zero => exact fun _ => .throw rfl
  | succ fuel ih =>
    intro cursor
    rw [loopOver, loopOver]
    refine .bind (.act (Iteration.next_alike cursor)) fun passed => ?_
    obtain ⟨element, cursor⟩ := passed
    cases element with
    | none => exact .pure rfl
    | some value =>
      refine .bind (rounds value) fun completion => ?_
      cases completion with
      | broke => exact .pure rfl
      | returned value => exact .pure rfl
      | normal => exact ih cursor
      | continued => exact ih cursor

/-- Where an iteration starts depends on the store, and starting it changes nothing. -/
theorem outcome_startIteration (value : Value) (state : State) :
    Machine.outcome (startIteration value) state =
      (if value = .null then .error (.fault (.evaluation .nullIteration))
        else (Cursor.start? state.store value).elim
          (.error (.fault (.evaluation .notIterable))) .ok, state) := by
  rw [startIteration]
  split
  · rfl
  · rw [Machine.outcome_bind, Machine.outcome_get]
    cases started : Cursor.start? state.store value <;>
      simp only [started, Option.elim] <;> rfl

theorem startIteration_alike (value : Value) :
    Alike T depth (Cursor.rename T.renames) (startIteration value)
      (startIteration (value.rename T.renames)) where
  grows s := by
    rw [Machine.sizeBehind, outcome_startIteration]
  maps s t related _ := by
    simp only [outcome_startIteration, Value.rename_eq_null, related.store.toRenamed.start?]
    refine ⟨?_, related⟩
    split
    · rfl
    · cases Cursor.start? s.store value <;> rfl

/-! ### Declarations -/

section Declarations

variable (isOpen : T.Open depth)

include isOpen

theorem declare_alike (kind : Kind) (names : List (Declarator Value Kind))
    (clear : ∀ m ∈ names.flatMap Declarator.mentions, T.Clear m) :
    Alike T depth id (declare kind names)
      (declare (kind.rename T.renames) (names.map (·.relabel T.labels))) := by
  induction names with
  | nil => exact .pure rfl
  | cons declarator rest ih =>
    obtain ⟨position, name, value⟩ := declarator
    rw [List.flatMap_cons] at clear
    obtain ⟨inFirst, inRest⟩ := List.forall_mem_append.mp clear
    obtain ⟨inValue, -⟩ := List.forall_mem_append.mp inFirst
    cases value with
    | none => exact .bind (.define isOpen name kind none) fun _ => ih inRest
    | some initial =>
      rw [List.map_cons, declare, declare]
      refine .bind (g := id) (.act (Dispatch.find_alike kind .convert)) fun found => ?_
      refine .bind (expression_alike initial inValue) fun value => ?_
      refine .bind (.act (Dispatch.convert_alike found kind value)) fun value => ?_
      exact .bind (.define isOpen name kind (some value)) fun _ => ih inRest

theorem enter_alike (init : ForInit Value Kind) (clear : ∀ m ∈ init.mentions, T.Clear m) :
    Alike T depth id (enter init) (enter (init.relabel T.labels)) := by
  cases init with
  | none => exact .pure rfl
  | declaration position type names => exact declare_alike isOpen type.resolved names clear
  | expressions values =>
    have mentioned (values : List (Position × CheckedExpr)) :
        Expr.mentionsOfAll (values.map Prod.snd) = values.flatMap (·.2.mentions) := by
      induction values with
      | nil => rfl
      | cons value rest ih => rw [List.map_cons, Expr.mentionsOfAll, ih, List.flatMap_cons]
    have relabelled : (values.map (relabelPlaced T.labels)).map Prod.snd =
        Expr.relabelAll T.labels (values.map Prod.snd) := by
      rw [Expr.relabelAll_eq_map, List.map_map, List.map_map]
      rfl
    rw [ForInit.relabel, enter, enter, relabelled]
    refine effects_alike _ ?_
    rw [mentioned]
    exact clear

end Declarations

theorem bindElement_alike (isOpen : T.Open depth) (kind : Kind) (name : String)
    (element : Value) :
    Alike T depth id (bindElement kind name element)
      (bindElement (kind.rename T.renames) (T.ident name) (element.rename T.renames)) :=
  .bind (.act (.bind (Dispatch.find_alike kind .convert) fun found =>
    Dispatch.convert_alike found kind element)) fun value =>
      .define isOpen name kind (some value)

theorem goesOn_alike {test : Option CheckedExpr}
    (clear : ∀ m ∈ test.elim [] Expr.mentions, T.Clear m) :
    Alike T depth id (goesOn test) (goesOn (test.map (·.relabel T.labels))) :=
  match test, clear with
  | none, _ => .pure rfl
  | some _, clear => condition_alike clear

/-! ### Statements -/

mutual

/-- **Running a relabelled statement,** where variables can be declared or the statement declares
none in the block around it. -/
theorem statement_alike (fuel : Nat) : ∀ (stmt : CheckedStmt) {depth : Nat},
    T.Open depth ∨ DeclaresNothing stmt → (∀ m ∈ stmt.mentions, T.Clear m) →
    Alike T depth (Completion.rename T.renames) (statement fuel stmt)
      (statement fuel (stmt.relabel T.labels))
  | .block _ inner, depth, _, clear => by
    rw [Stmt.relabel, statement, statement]
    exact .inBlock (statements_alike fuel inner (T.open_succ depth) clear)
  | .empty _, _, _, _ => by
    rw [Stmt.relabel, statement, statement]
    exact .pure rfl
  | .declaration _ type names, _, sort, clear => by
    rw [Stmt.relabel, statement, statement]
    exact .bind (declare_alike (sort.resolve_right id) type.resolved names clear) fun _ => .pure rfl
  | .expression _ value, _, _, clear => by
    rw [Stmt.relabel, statement, statement]
    exact .bind (expression_alike value clear) fun _ => .pure rfl
  | .ifThen _ test thenBranch, _, sort, clear => by
    obtain ⟨inTest, inThen⟩ := List.forall_mem_append.mp clear
    rw [Stmt.relabel, statement, statement]
    refine .bind (condition_alike inTest) fun holds => ?_
    cases holds with
    | true => exact statement_alike fuel thenBranch sort inThen
    | false => exact .pure rfl
  | .ifThenElse _ test thenBranch elseBranch, _, sort, clear => by
    obtain ⟨inTest, inBranches⟩ := List.forall_mem_append.mp clear
    obtain ⟨inThen, inElse⟩ := List.forall_mem_append.mp inBranches
    rw [Stmt.relabel, statement, statement]
    refine .bind (condition_alike inTest) fun holds => ?_
    cases holds with
    | true => exact statement_alike fuel thenBranch (sort.imp_right And.left) inThen
    | false => exact statement_alike fuel elseBranch (sort.imp_right And.right) inElse
  | .whileLoop _ test body, _, sort, clear => by
    obtain ⟨inTest, inBody⟩ := List.forall_mem_append.mp clear
    rw [Stmt.relabel, statement, statement]
    exact loop_alike (statement_alike fuel body sort inBody) (condition_alike inTest)
      (.pure rfl) fuel
  | .doLoop _ body test, _, sort, clear => by
    obtain ⟨inBody, inTest⟩ := List.forall_mem_append.mp clear
    rw [Stmt.relabel, statement, statement]
    exact loopOnce_alike (statement_alike fuel body sort inBody) (condition_alike inTest) fuel
  | .forLoop _ init test update body, depth, _, clear => by
    obtain ⟨inInit, inRest⟩ := List.forall_mem_append.mp clear
    obtain ⟨inTest, inRest⟩ := List.forall_mem_append.mp inRest
    obtain ⟨inUpdate, inBody⟩ := List.forall_mem_append.mp inRest
    rw [Stmt.relabel, statement, statement]
    refine .inBlock (.bind (enter_alike (T.open_succ depth) init inInit) fun _ => ?_)
    exact loop_alike (statement_alike fuel body (.inl (T.open_succ depth)) inBody)
      (goesOn_alike inTest) (effects_alike update inUpdate) fuel
  | .forEach _ type name iterable body, depth, _, clear => by
    obtain ⟨inIterable, inRest⟩ := List.forall_mem_append.mp clear
    have inBody := (List.forall_mem_cons.mp inRest).2
    rw [Stmt.relabel, statement_forEach, statement_forEach]
    refine .bind (expression_alike iterable inIterable) fun value =>
      .bind (startIteration_alike value) fun cursor =>
        loopOver_alike (fun element => .inBlock ?_) fuel cursor
    exact .bind (bindElement_alike (T.open_succ depth) type.resolved name element) fun _ =>
      statement_alike fuel body (.inl (T.open_succ depth)) inBody
  | .returns _ none, _, _, _ => by
    rw [Stmt.relabel, statement, Option.map_none, statement]
    exact .pure rfl
  | .returns _ (some value), _, _, clear => by
    rw [Stmt.relabel, statement, Option.map_some, statement]
    exact .bind (expression_alike value clear) fun _ => .pure rfl
  | .breaks _, _, _, _ => by
    rw [Stmt.relabel, statement, statement]
    exact .pure rfl
  | .continues _, _, _, _ => by
    rw [Stmt.relabel, statement, statement]
    exact .pure rfl

/-- Running relabelled statements. -/
theorem statements_alike (fuel : Nat) : ∀ (stmts : List CheckedStmt) {depth : Nat},
    T.Open depth → (∀ m ∈ Stmt.mentionsOfAll stmts, T.Clear m) →
    Alike T depth (Completion.rename T.renames) (statements fuel stmts)
      (statements fuel (Stmt.relabelAll T.labels stmts))
  | [], _, _, _ => by
    rw [Stmt.relabelAll, statements]
    exact .pure rfl
  | first :: rest, _, isOpen, clear => by
    obtain ⟨inFirst, inRest⟩ := List.forall_mem_append.mp clear
    rw [Stmt.relabelAll, statements, statements]
    refine .bind (statement_alike fuel first (.inl isOpen) inFirst) fun completion => ?_
    cases completion with
    | normal => exact statements_alike fuel rest isOpen inRest
    | broke => exact .pure rfl
    | continued => exact .pure rfl
    | returned value => exact .pure rfl

end

end Formulary.Eval

namespace Formulary.Program

/-- A program as the second run has it. -/
def relabel (T : Transfer) (program : Program) : Program where
  body := Stmt.relabelAll T.labels program.body
  argsName := T.ident program.argsName
  returnKind := program.returnKind.rename T.renames

variable {T : Transfer}

theorem execute_alike (nothing : T.extra = []) (program : Program) (fuel : Nat) :
    Machine.Alike T 0 (Value.rename T.renames) (program.execute fuel)
      ((program.relabel T).execute fuel) := by
  refine .bind (Eval.statements_alike fuel program.body (fun _ => nothing)
    fun m _ => T.clear_of_extra_nil nothing m) fun completion => ?_
  cases completion with
  | normal => exact .throw rfl
  | broke => exact .throw rfl
  | continued => exact .throw rfl
  | returned value => exact .act (Dispatch.convertResult_alike program.returnKind value)

/-- **Running a relabelled program** from the beginning on gives what running the program gives,
renamed. -/
theorem run_renamed (nothing : T.extra = []) (program : Program) (fuel : Nat) (args : Value)
    {s t : Store} (alike : Store.Alike T.renames T.margin s t)
    (bounded : (program.run fuel args s).2.objects.size ≤ T.margin.limit) :
    ((program.relabel T).run fuel (args.rename T.renames) t).1 =
        T.result (Value.rename T.renames) (program.run fuel args s).1 ∧
      Store.Alike T.renames T.margin (program.run fuel args s).2
        ((program.relabel T).run fuel (args.rename T.renames) t).2 := by
  have start : T.States 0 ⟨program.start args, s⟩
      ⟨(program.relabel T).start (args.rename T.renames), t⟩ := by
    refine ⟨⟨[], program.start args, rfl, rfl, ?_⟩, alike⟩
    rw [nothing]
    rfl
  obtain ⟨same, behind⟩ := (execute_alike nothing program fuel).maps _ _ start bounded
  exact ⟨same, behind.store⟩

/-- A run takes no object away. -/
theorem run_grows (program : Program) (fuel : Nat) (args : Value) (store : Store) :
    store.objects.size ≤ (program.run fuel args store).2.objects.size := by
  let T : Transfer := ⟨.identity, ⟨0, store⟩, id, id, Function.injective_id, []⟩
  exact (execute_alike (T := T) rfl program fuel).grows ⟨program.start args, store⟩

end Formulary.Program
