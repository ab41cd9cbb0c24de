/-
Running statements.

A statement completes normally, jumps out of or within the loop around it, or
returns a value. Every loop may go round as often as the fuel says; all loops of a
run get the same fuel, so that statements are run by recursion on their shape.
-/

import Formulary.Eval.Expression

namespace Formulary

/-- How a statement ends. -/
inductive Completion where
  | normal
  | broke
  | continued
  | returned (value : Value)
deriving DecidableEq, Repr

namespace Eval

/-! ### Loops -/

/-- Goes round as long as a condition holds, with an update behind every round
that does not leave the loop. -/
def loop (goOn : Machine Bool) (round : Machine Completion) (update : Machine Unit) :
    (fuel : Nat) → Machine Completion
  | 0 => throw .outOfFuel
  | fuel + 1 => do
    if ← goOn then
      match ← round with
      | .broke => return .normal
      | .returned value => return .returned value
      | .normal | .continued =>
        update
        loop goOn round update fuel
    else return .normal

/-- Goes round once, and again as long as a condition holds. -/
def loopOnce (goOn : Machine Bool) (round : Machine Completion) :
    (fuel : Nat) → Machine Completion
  | 0 => throw .outOfFuel
  | fuel + 1 => do
    match ← round with
    | .broke => return .normal
    | .returned value => return .returned value
    | .normal | .continued =>
      if ← goOn then loopOnce goOn round fuel else return .normal

/-- Goes round once for every element that an iteration yields. -/
def loopOver (round : Value → Machine Completion) :
    (fuel : Nat) → Cursor → Machine Completion
  | 0, _ => throw .outOfFuel
  | fuel + 1, cursor => do
    let (element, cursor) ← Machine.act (Iteration.next cursor)
    match element with
    | none => return .normal
    | some value =>
      match ← round value with
      | .broke => return .normal
      | .returned value => return .returned value
      | .normal | .continued => loopOver round fuel cursor

/-- The iteration over a value. -/
def startIteration (value : Value) : Machine Cursor := do
  if value = .null then Machine.failWith .nullIteration
  else
    match Cursor.start? (← get).store value with
    | some cursor => return cursor
    | none => Machine.failWith .notIterable

/-! ### Declarations -/

/-- Brings declared names into reach, one after the other. -/
def declare (kind : Kind) : List (Declarator Value Kind) → Machine Unit
  | [] => pure ()
  | declarator :: rest => do
    match declarator.value with
    | none => Machine.define declarator.name kind none
    | some initial =>
      let found ← Machine.act (Dispatch.find kind .convert)
      let value ← expression initial
      let value ← Machine.act (Dispatch.convert found kind value)
      Machine.define declarator.name kind (some value)
    declare kind rest

/-- Starts a `for` loop. -/
def enter : ForInit Value Kind → Machine Unit
  | .none => pure ()
  | .declaration _ type names => declare type.resolved names
  | .expressions values => effects (values.map Prod.snd)

/-! ### Statements -/

mutual

/-- Runs a statement. -/
def statement (fuel : Nat) : CheckedStmt → Machine Completion
  | .block _ inner => Machine.inBlock (statements fuel inner)
  | .empty _ => pure .normal
  | .declaration _ type names => do
    declare type.resolved names
    return .normal
  | .expression _ value => do
    let _ ← expression value
    return .normal
  | .ifThen _ test thenBranch => do
    if ← condition test then statement fuel thenBranch else return .normal
  | .ifThenElse _ test thenBranch elseBranch => do
    if ← condition test then statement fuel thenBranch else statement fuel elseBranch
  | .whileLoop _ test body => loop (condition test) (statement fuel body) (pure ()) fuel
  | .doLoop _ body test => loopOnce (condition test) (statement fuel body) fuel
  | .forLoop _ init test update body =>
    Machine.inBlock do
      enter init
      loop (test.elim (pure true) condition) (statement fuel body) (effects update) fuel
  | .forEach _ type name iterable body => do
    let cursor ← startIteration (← expression iterable)
    loopOver
      (fun value => Machine.inBlock do
        let value ← Machine.act do
          Dispatch.convert (← Dispatch.find type.resolved .convert) type.resolved value
        Machine.define name type.resolved (some value)
        statement fuel body)
      fuel cursor
  | .returns _ none => return .returned .null
  | .returns _ (some value) => do return .returned (← expression value)
  | .breaks _ => pure .broke
  | .continues _ => pure .continued

/-- Runs statements in a row, up to the first that does not complete normally. -/
def statements (fuel : Nat) : List CheckedStmt → Machine Completion
  | [] => pure .normal
  | first :: rest => do
    match ← statement fuel first with
    | .normal => statements fuel rest
    | other => return other

end

end Eval

end Formulary
