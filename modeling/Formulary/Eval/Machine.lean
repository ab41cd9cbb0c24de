/-
The machine that runs a body: the variables in reach and the store.

A run halts with a fault of a value, with a failure of its own, or because it has
used up its fuel. What it has changed by then stays changed, and the blocks that it
has entered are left.
-/

import Formulary.Eval.Environment
import Formulary.Store

namespace Formulary

/-- Why a run does not end with a value. -/
inductive Halt where
  | fault (fault : Fault)
  | failure (error : RunError)
  | outOfFuel
  /-- A jump that no loop takes up. -/
  | strayJump
deriving DecidableEq, Repr

/-- The variables in reach and the store. -/
structure State where
  environment : Environment
  store : Store
deriving Repr

/-- A step of a run. -/
abbrev Machine (α : Type) := ExceptT Halt (StateM State) α

namespace Machine

variable {α : Type}

/-- The failure with a fault. -/
def fail (fault : Fault) : Machine α :=
  throw (.fault fault)

/-- The failure with a cause. -/
def failWith (error : EvaluationError) : Machine α :=
  fail (.evaluation error)

/-- The failure of the run itself. -/
def stop (error : RunError) : Machine α :=
  throw (.failure error)

/-- Runs an action on the store. -/
def act (action : Action α) : Machine α := do
  let state ← get
  let (result, store) := action.run.run state.store
  set { state with store }
  match result with
  | .ok a => return a
  | .error fault => fail fault

/-- Takes a result that depends on nothing. -/
def ofExcept (result : Except Fault α) : Machine α :=
  match result with
  | .ok a => pure a
  | .error fault => fail fault

/-- Changes the variables in reach. -/
def changeEnvironment (change : Environment → Environment) : Machine Unit :=
  modify fun state => { state with environment := change state.environment }

/-- Adds a variable to the innermost block. -/
def define (name : String) (kind : Kind) (value : Option Value) : Machine Unit :=
  changeEnvironment (·.define name ⟨kind, value⟩)

/-- The variable of a name. -/
def binding (name : String) : Machine Binding := do
  match (← get).environment.find? name with
  | some binding => return binding
  | none => stop (.unknownVariable name)

/-- The value of a variable. -/
def valueOf (name : String) : Machine Value := do
  match (← binding name).value with
  | some value => return value
  | none => stop (.uninitialized name)

/-- Runs a step in a new block, which is left again however the step ends. -/
def inBlock (step : Machine α) : Machine α := fun state =>
  let (result, after) := step { state with environment := [] :: state.environment }
  (result, { after with environment := after.environment.tail })

end Machine

end Formulary
