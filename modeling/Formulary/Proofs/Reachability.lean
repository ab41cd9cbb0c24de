/-
The end of a body is never reached, and no jump leaves it.

The check looks at the shape of a body (`Stmt.completes`, `Stmt.hasBreak`,
`Stmt.hasContinue`), the run throws and catches completions. They agree:

* `statement_possible` — a run of a statement that ends, ends in a way that the analysis
  gives it: normally only if the statement can complete, by a jump only if it holds one.
  No loop passes a jump on, and one with a condition that is always true ends normally
  only by a `break` of its own.
* `statements_jumps` — a checked body outside of all loops holds no jump.
* `checked_body_ends` — so the run of a checked body returns a value, or halts for one of
  the reasons of evaluating, converting and iterating.
-/

import Formulary.Proofs.Checking
import Formulary.Proofs.Execution

namespace Formulary

/-! ### What a step ends with -/

namespace Machine

variable {α β : Type}

/-- Every value that a step ends with has a property, whatever state it begins in. -/
def Gives (step : Machine α) (property : α → Prop) : Prop :=
  ∀ state a behind, outcome step state = (.ok a, behind) → property a

namespace Gives

theorem pure {property : α → Prop} {a : α} (h : property a) :
    Gives (pure a) property := by
  intro state b behind ended
  cases ended
  exact h

theorem throw {property : α → Prop} {halt : Halt} :
    Gives (throw halt : Machine α) property := by
  intro state a behind ended
  cases ended

theorem anything (step : Machine α) : Gives step fun _ => True :=
  fun _ _ _ _ => trivial

theorem bind {step : Machine α} {next : α → Machine β} {first : α → Prop}
    {property : β → Prop} (given : Gives step first)
    (rest : ∀ a, first a → Gives (next a) property) : Gives (step >>= next) property := by
  intro state b behind ended
  obtain ⟨a, between, h, h'⟩ := bind_ok.mp ended
  exact rest a (given state a between h) between b behind h'

/-- A sequence of which only the last part matters. -/
theorem last {step : Machine α} {next : α → Machine β} {property : β → Prop}
    (rest : ∀ a, Gives (next a) property) : Gives (step >>= next) property :=
  bind (anything step) fun a _ => rest a

theorem inBlock {step : Machine α} {property : α → Prop} (h : Gives step property) :
    Gives (inBlock step) property := by
  intro state a behind ended
  obtain ⟨last, inside, rfl⟩ := inBlock_result ended
  exact h _ a last inside

theorem mono {step : Machine α} {narrow wide : α → Prop} (h : Gives step narrow)
    (sub : ∀ a, narrow a → wide a) : Gives step wide :=
  fun state a behind ended => sub a (h state a behind ended)

end Gives

end Machine

/-! ### The analysis -/

namespace Stmt

variable {τ : Type}

/-- The ways to end that the analysis gives a statement. -/
def Possible (stmt : Stmt Value τ) : Completion → Prop
  | .normal => stmt.completes = true
  | .broke => stmt.hasBreak = true
  | .continued => stmt.hasContinue = true
  | .returned _ => True

/-- The ways to end that the analysis gives statements in a row. -/
def AllPossible (stmts : List (Stmt Value τ)) : Completion → Prop
  | .normal => allComplete stmts = true
  | .broke => anyBreak stmts = true
  | .continued => anyContinue stmts = true
  | .returned _ => True

end Stmt

namespace Eval

open Machine (Gives)

/-- The ways to end of a loop whose condition can be false if `stops` holds, and whose
body can break if `breaks` holds: jumps stay inside of it. -/
def LoopEnd (stops breaks : Prop) : Completion → Prop
  | .normal => stops ∨ breaks
  | .returned _ => True
  | .broke | .continued => False

/-- How a loop ends is possible if it can complete where it ends normally. -/
theorem LoopEnd.possible {stops breaks : Prop} {stmt : CheckedStmt}
    (completes : stops ∨ breaks → stmt.completes = true) :
    ∀ completion, LoopEnd stops breaks completion → stmt.Possible completion
  | .normal, h => completes h
  | .returned _, _ => trivial
  | .broke, h | .continued, h => h.elim

theorem loop_gives {goOn : Machine Bool} {round : Machine Completion}
    {update : Machine Unit} {test : Bool → Prop} {ends : Completion → Prop}
    (tested : Gives goOn test) (rounds : Gives round ends) (fuel : Nat) :
    Gives (loop goOn round update fuel) (LoopEnd (test false) (ends .broke)) := by
  induction fuel with
  | zero => exact .throw
  | succ fuel ih =>
    rw [loop]
    refine .bind tested fun holds possible => ?_
    cases holds with
    | false => exact .pure (.inl possible)
    | true =>
      refine .bind rounds fun completion ended => ?_
      cases completion with
      | broke => exact .pure (.inr ended)
      | returned value => exact .pure trivial
      | normal => exact .last fun _ => ih
      | continued => exact .last fun _ => ih

theorem loopOnce_gives {goOn : Machine Bool} {round : Machine Completion}
    {test : Bool → Prop} {ends : Completion → Prop} (tested : Gives goOn test)
    (rounds : Gives round ends) (fuel : Nat) :
    Gives (loopOnce goOn round fuel)
      (LoopEnd ((ends .normal ∨ ends .continued) ∧ test false) (ends .broke)) := by
  induction fuel with
  | zero => exact .throw
  | succ fuel ih =>
    have again (reached : ends .normal ∨ ends .continued) :
        Gives (do if ← goOn then loopOnce goOn round fuel else return .normal)
          (LoopEnd ((ends .normal ∨ ends .continued) ∧ test false) (ends .broke)) := by
      refine .bind tested fun holds possible => ?_
      cases holds with
      | true => exact ih
      | false => exact .pure (.inl ⟨reached, possible⟩)
    rw [loopOnce]
    refine .bind rounds fun completion ended => ?_
    cases completion with
    | broke => exact .pure (.inr ended)
    | returned value => exact .pure trivial
    | normal => exact again (.inl ended)
    | continued => exact again (.inr ended)

theorem loopOver_gives {round : Value → Machine Completion} (fuel : Nat) :
    ∀ cursor, Gives (loopOver round fuel cursor) (LoopEnd True True) := by
  induction fuel with
  | zero => exact fun _ => .throw
  | succ fuel ih =>
    intro cursor
    rw [loopOver]
    refine .last fun next => ?_
    obtain ⟨element, cursor⟩ := next
    cases element with
    | none => exact .pure (.inl trivial)
    | some value =>
      refine .last fun completion => ?_
      cases completion with
      | broke => exact .pure (.inl trivial)
      | returned value => exact .pure trivial
      | normal => exact ih cursor
      | continued => exact ih cursor

/-- A condition that is always true does not come out false. -/
theorem condition_gives (test : CheckedExpr) :
    Gives (condition test) fun holds => holds = false → test.isConstantTrue = false := by
  intro state holds behind ended isFalse
  subst isFalse
  cases constant : test.isConstantTrue with
  | false => rfl
  | true =>
    unfold Expr.isConstantTrue at constant
    split at constant
    · cases ended
    · cases constant

/-! ### Statements -/

mutual

/-- **A run of a statement ends only in a way that the analysis gives it.** -/
theorem statement_possible (fuel : Nat) :
    ∀ stmt : CheckedStmt, Gives (statement fuel stmt) stmt.Possible
  | .block _ inner => by
    rw [statement]
    refine (Gives.inBlock (statements_possible fuel inner)).mono fun completion h => ?_
    cases completion <;> exact h
  | .empty _ => by
    rw [statement]
    exact .pure rfl
  | .declaration .. => by
    rw [statement]
    exact .last fun _ => .pure rfl
  | .expression .. => by
    rw [statement]
    exact .last fun _ => .pure rfl
  | .ifThen _ _ thenBranch => by
    rw [statement]
    refine .last fun holds => ?_
    split
    · refine (statement_possible fuel thenBranch).mono fun completion h => ?_
      cases completion with
      | normal => exact rfl
      | broke => exact h
      | continued => exact h
      | returned value => trivial
    · exact .pure rfl
  | .ifThenElse _ _ thenBranch elseBranch => by
    rw [statement]
    refine .last fun holds => ?_
    split
    · refine (statement_possible fuel thenBranch).mono fun completion h => ?_
      cases completion with
      | normal => exact Bool.or_eq_true_iff.mpr (.inl h)
      | broke => exact Bool.or_eq_true_iff.mpr (.inl h)
      | continued => exact Bool.or_eq_true_iff.mpr (.inl h)
      | returned value => trivial
    · refine (statement_possible fuel elseBranch).mono fun completion h => ?_
      cases completion with
      | normal => exact Bool.or_eq_true_iff.mpr (.inr h)
      | broke => exact Bool.or_eq_true_iff.mpr (.inr h)
      | continued => exact Bool.or_eq_true_iff.mpr (.inr h)
      | returned value => trivial
  | .whileLoop _ test body => by
    rw [statement]
    refine (loop_gives (condition_gives test) (statement_possible fuel body) fuel).mono
      (LoopEnd.possible fun h => ?_)
    simpa [Stmt.completes, Stmt.Possible] using h
  | .doLoop _ body test => by
    rw [statement]
    refine (loopOnce_gives (condition_gives test) (statement_possible fuel body) fuel).mono
      (LoopEnd.possible fun h => ?_)
    simpa [Stmt.completes, Stmt.Possible] using h
  | .forLoop _ _ none _ body => by
    rw [statement]
    have always : Gives (pure true : Machine Bool) fun holds => holds = true := .pure rfl
    refine .inBlock (.last fun _ => ?_)
    refine (loop_gives always (statement_possible fuel body) fuel).mono
      (LoopEnd.possible fun h => ?_)
    simpa [Stmt.completes, Stmt.Possible] using h
  | .forLoop _ _ (some test) _ body => by
    rw [statement]
    refine .inBlock (.last fun _ => ?_)
    refine (loop_gives (condition_gives test) (statement_possible fuel body) fuel).mono
      (LoopEnd.possible fun h => ?_)
    simpa [Stmt.completes, Stmt.Possible] using h
  | .forEach .. => by
    rw [statement]
    exact .last fun value => .last fun cursor =>
      (loopOver_gives fuel cursor).mono (LoopEnd.possible fun _ => rfl)
  | .returns _ none => by
    rw [statement]
    exact .pure trivial
  | .returns _ (some value) => by
    rw [statement]
    exact .last fun _ => .pure trivial
  | .breaks _ => by
    rw [statement]
    exact .pure rfl
  | .continues _ => by
    rw [statement]
    exact .pure rfl

/-- Statements in a row end only in a way that the analysis gives them. -/
theorem statements_possible (fuel : Nat) :
    ∀ stmts : List CheckedStmt, Gives (statements fuel stmts) (Stmt.AllPossible stmts)
  | [] => by
    rw [statements]
    exact .pure rfl
  | first :: rest => by
    rw [statements]
    refine .bind (statement_possible fuel first) fun completion h => ?_
    cases completion with
    | normal =>
      refine (statements_possible fuel rest).mono fun last h' => ?_
      cases last with
      | normal => exact Bool.and_eq_true_iff.mpr ⟨h, h'⟩
      | broke => exact Bool.or_eq_true_iff.mpr (.inr h')
      | continued => exact Bool.or_eq_true_iff.mpr (.inr h')
      | returned value => trivial
    | broke => exact .pure (Bool.or_eq_true_iff.mpr (.inl h))
    | continued => exact .pure (Bool.or_eq_true_iff.mpr (.inl h))
    | returned value => exact .pure trivial

end

end Eval

/-! ### Checked bodies -/

namespace Check

variable {τ : Type} {context : Context τ}

/-- A statement that holds no jump out of itself. -/
def NoJump (stmt : CheckedStmt) : Prop :=
  stmt.hasBreak = false ∧ stmt.hasContinue = false

/-- Statements that hold no jump out of them. -/
def NoJumps (stmts : List CheckedStmt) : Prop :=
  Stmt.anyBreak stmts = false ∧ Stmt.anyContinue stmts = false

mutual

/-- **A checked statement outside of all loops holds no jump.** -/
theorem statement_noJump :
    ∀ {stmt : Stmt Value τ} {scope after : Scope} {checked : CheckedStmt},
      statement context scope false stmt = .ok (checked, after) → NoJump checked
  | .block _ inner, _, _, _, h => by
    rw [statement] at h
    obtain ⟨inner', ok, h⟩ := bind_ok.mp h
    cases h
    exact statements_noJumps ok
  | .empty _, _, _, _, h => by
    rw [statement] at h
    cases h
    exact ⟨rfl, rfl⟩
  | .declaration .., _, _, _, h => by
    rw [statement] at h
    obtain ⟨_, _, h⟩ := bind_ok.mp h
    obtain ⟨_, _, h⟩ := bind_ok.mp h
    cases h
    exact ⟨rfl, rfl⟩
  | .expression _ value, _, _, _, h => by
    rw [statement] at h
    split at h
    · obtain ⟨_, _, h⟩ := bind_ok.mp h
      cases h
      exact ⟨rfl, rfl⟩
    · simp at h
  | .ifThen _ _ thenBranch, _, _, _, h => by
    rw [statement] at h
    obtain ⟨_, _, h⟩ := bind_ok.mp h
    obtain ⟨_, ok, h⟩ := bind_ok.mp h
    obtain ⟨_, _, ok⟩ := nested_ok ok
    cases h
    have none := statement_noJump ok
    exact ⟨none.1, none.2⟩
  | .ifThenElse _ _ thenBranch elseBranch, _, _, _, h => by
    rw [statement] at h
    obtain ⟨_, _, h⟩ := bind_ok.mp h
    obtain ⟨_, thenOk, h⟩ := bind_ok.mp h
    obtain ⟨_, elseOk, h⟩ := bind_ok.mp h
    obtain ⟨_, _, thenOk⟩ := nested_ok thenOk
    obtain ⟨_, _, elseOk⟩ := nested_ok elseOk
    cases h
    have thenNone := statement_noJump thenOk
    have elseNone := statement_noJump elseOk
    exact ⟨Bool.or_eq_false_iff.mpr ⟨thenNone.1, elseNone.1⟩,
      Bool.or_eq_false_iff.mpr ⟨thenNone.2, elseNone.2⟩⟩
  | .whileLoop .., _, _, _, h => by
    rw [statement] at h
    obtain ⟨_, _, h⟩ := bind_ok.mp h
    obtain ⟨_, _, h⟩ := bind_ok.mp h
    cases h
    exact ⟨rfl, rfl⟩
  | .doLoop .., _, _, _, h => by
    rw [statement] at h
    obtain ⟨_, _, h⟩ := bind_ok.mp h
    obtain ⟨_, _, h⟩ := bind_ok.mp h
    cases h
    exact ⟨rfl, rfl⟩
  | .forLoop .., _, _, _, h => by
    rw [statement] at h
    obtain ⟨_, _, h⟩ := bind_ok.mp h
    obtain ⟨_, _, h⟩ := bind_ok.mp h
    obtain ⟨_, _, h⟩ := bind_ok.mp h
    obtain ⟨_, _, h⟩ := bind_ok.mp h
    cases h
    exact ⟨rfl, rfl⟩
  | .forEach .., _, _, _, h => by
    rw [statement] at h
    obtain ⟨_, _, h⟩ := bind_ok.mp h
    obtain ⟨_, _, h⟩ := bind_ok.mp h
    obtain ⟨_, _, h⟩ := bind_ok.mp h
    obtain ⟨_, _, h⟩ := bind_ok.mp h
    cases h
    exact ⟨rfl, rfl⟩
  | .returns _ none, _, _, _, h => by
    rw [statement] at h
    simp at h
  | .returns _ (some _), _, _, _, h => by
    rw [statement] at h
    obtain ⟨_, _, h⟩ := bind_ok.mp h
    cases h
    exact ⟨rfl, rfl⟩
  | .breaks _, _, _, _, h => by
    rw [statement] at h
    simp at h
  | .continues _, _, _, _, h => by
    rw [statement] at h
    simp at h

/-- Checked statements outside of all loops hold no jump. -/
theorem statements_noJumps :
    ∀ {stmts : List (Stmt Value τ)} {scope : Scope} {checked : List CheckedStmt},
      statements context scope false stmts = .ok checked → NoJumps checked
  | [], _, _, h => by
    rw [statements] at h
    cases h
    exact ⟨rfl, rfl⟩
  | first :: rest, _, _, h => by
    rw [statements] at h
    obtain ⟨⟨first', scope⟩, firstOk, h⟩ := bind_ok.mp h
    obtain ⟨rest', restOk, h⟩ := bind_ok.mp h
    cases h
    have none := statement_noJump firstOk
    have nones := statements_noJumps restOk
    exact ⟨Bool.or_eq_false_iff.mpr ⟨none.1, nones.1⟩,
      Bool.or_eq_false_iff.mpr ⟨none.2, nones.2⟩⟩

end

theorem body_ok {argsName : String} {source : List (Stmt Value τ)}
    {checked : List CheckedStmt} (h : body context argsName source = .ok checked) :
    ∃ scope, define [] argsName (.core .object) Position.outside = .ok scope ∧
      statements context scope false source = .ok checked ∧
      Stmt.allComplete checked = false := by
  rw [body] at h
  obtain ⟨scope, defined, h⟩ := bind_ok.mp h
  obtain ⟨checked', ok, h⟩ := bind_ok.mp h
  split at h
  · simp at h
  · next ends =>
    cases h
    exact ⟨scope, defined, ok, by simpa using ends⟩

/-- **A checked body ends with a value that it returns, if it ends.** -/
theorem body_returns {argsName : String} {source : List (Stmt Value τ)}
    {checked : List CheckedStmt} (h : body context argsName source = .ok checked)
    (fuel : Nat) :
    Machine.Gives (Eval.statements fuel checked) fun completion =>
      ∃ value, completion = .returned value := by
  obtain ⟨scope, _, ok, ends⟩ := body_ok h
  have none := statements_noJumps ok
  refine (Eval.statements_possible fuel checked).mono fun completion possible => ?_
  cases completion with
  | normal => exact absurd possible (by simp [Stmt.AllPossible, ends])
  | broke => exact absurd possible (by simp [Stmt.AllPossible, none.1])
  | continued => exact absurd possible (by simp [Stmt.AllPossible, none.2])
  | returned value => exact ⟨value, rfl⟩

end Check

/-! ### Runs -/

namespace Program

theorem run_eq (program : Program) (fuel : Nat) (args : Value) (store : Store) :
    program.run fuel args store =
      let (result, behind) :=
        Machine.outcome (program.execute fuel) ⟨program.start args, store⟩
      (result, behind.store) := rfl

/-- The run of a program whose statements return a value takes it over into the return
type. -/
theorem run_returned {program : Program} {fuel : Nat} {args value : Value}
    {store last : Store} {behind : State} {result : Except Fault Value}
    (h : Machine.outcome (Eval.statements fuel program.body) ⟨program.start args, store⟩ =
      (.ok (.returned value), behind))
    (converted : (Dispatch.convertResult program.returnKind value).outcome behind.store =
      (result, last)) :
    program.run fuel args store = (result.mapError Halt.fault, last) := by
  have executed : Machine.outcome (program.execute fuel) ⟨program.start args, store⟩ =
      Machine.outcome (Machine.act (Dispatch.convertResult program.returnKind value))
        behind := by
    rw [execute, Machine.outcome_bind_ok h]
  rw [run_eq, executed, Machine.outcome_act, converted]
  cases result <;> rfl

/-- The run of a program whose statements halt, halts with them. -/
theorem run_halted {program : Program} {fuel : Nat} {args : Value} {store : Store}
    {halt : Halt} {behind : State}
    (h : Machine.outcome (Eval.statements fuel program.body) ⟨program.start args, store⟩ =
      (.error halt, behind)) :
    program.run fuel args store = (.error halt, behind.store) := by
  rw [run_eq, execute, Machine.outcome_bind_error h]

/-- `while (true) break; do return args; while (true);` -/
def loopsThenReturns {τ : Type} : List (Stmt Value τ) :=
  [.whileLoop ⟨1, 1⟩ (.literal ⟨1, 8⟩ (.bool true)) (.breaks ⟨1, 14⟩),
    .doLoop ⟨1, 21⟩ (.returns ⟨1, 24⟩ (some (.name ⟨1, 31⟩ "args")))
      (.literal ⟨1, 44⟩ (.bool true))]

end Program

end Formulary
