/-
Programs: checked bodies that can be run.

A program is compiled from the source of a body, the name of its arguments and its
return type. A run puts the arguments under their name into an otherwise empty
environment and takes the result over into the return type.
-/

import Formulary.Eval.Statement
import Formulary.Resolver
import Formulary.Syntax.Literal

namespace Formulary

/-- A checked body. -/
structure Program where
  body : List CheckedStmt
  argsName : String
  returnKind : Kind
deriving Repr

/-- Why a body does not become a program. -/
inductive CompileError where
  | read (error : ReadError)
  | check (error : CheckError)
  /-- The return type cannot even be asked for. -/
  | host (fault : Fault)
deriving DecidableEq, Repr

/-- The report of a body that does not become a program. -/
def CompileError.message : CompileError → List Char
  | .read error => error.message
  | .check error => error.message
  | .host _ => []

namespace Program

/-- What the check of a body that has only been read looks names up with. -/
def context (store : Store) (names : Namespace) : Check.Context Unit where
  resolve := Resolver.resolve store names
  known := fun _ => none

/-- Compiles a body that has been read. -/
def ofBody (names : Namespace) (argsName returnType : String)
    (body : List ParsedStmt) : Except CompileError Program :=
  match Resolver.resolveAny Store.initial names returnType with
  | .error fault => .error (.host fault)
  | .ok none => .error (.check ⟨Position.outside, .unknownClass returnType⟩)
  | .ok (some returnKind) =>
    match Check.body (context Store.initial names) argsName body with
    | .error error => .error (.check error)
    | .ok body => .ok { body, argsName, returnKind }

/-- Compiles the source of a body. -/
def compile (names : Namespace) (argsName returnType : String) (source : List Char) :
    Except CompileError Program :=
  match readBody source with
  | .error error => .error (.read error)
  | .ok body => ofBody names argsName returnType body

/-- The variables that a run begins with. -/
def start (program : Program) (args : Value) : Environment :=
  [[(program.argsName, ⟨.core .object, some args⟩)]]

/-- Runs the statements of a program and takes the result over. -/
def execute (program : Program) (fuel : Nat) : Machine Value := do
  match ← Eval.statements fuel program.body with
  | .returned value => Machine.act (Dispatch.convertResult program.returnKind value)
  | .normal => Machine.stop .missingReturn
  | .broke | .continued => throw .strayJump

/-- Runs a program on its arguments: the result, and the store that the run
leaves. -/
def run (program : Program) (fuel : Nat) (args : Value) (store : Store) :
    Except Halt Value × Store :=
  let (result, state) := (program.execute fuel).run.run ⟨program.start args, store⟩
  (result, state.store)

end Program

end Formulary
