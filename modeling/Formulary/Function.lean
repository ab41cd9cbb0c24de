/-
Functions: function strings with what they have been compiled to.

A function string is split into its signature and its body, accesses to the
arguments are put in the place of the parameters, and a backend compiles the
finished source. Of the ways to call a function only the one that its return type
selects is live.
-/

import Formulary.Program
import Formulary.Source
import Formulary.Substitution

namespace Formulary

/-- What a backend is given. -/
structure CompileRequest where
  source : List Char
  returnType : List Char
  entryPoint : EntryPoint
  bindings : List Declaration
  functionString : List Char
  argsName : List Char
deriving DecidableEq, Repr

/-- The request for a function string. -/
def CompileRequest.ofText (table : TypeTable) (argsName text : List Char) :
    Except SignatureError CompileRequest := do
  let signature ← Signature.split text
  let declarations ← Signature.declare signature.parameters
  let body := Substitution.substitute table argsName declarations signature.body
  return {
    source := (Source.ofBody body signature.returnType).text
    returnType := signature.returnType
    entryPoint := EntryPoint.ofReturnType table signature.returnType
    bindings := Signature.bind declarations
    functionString := text
    argsName := argsName }

/-- A function string and what a backend made of it. -/
structure ParsedFunction (ρ : Type) where
  functionString : List Char
  parameterNames : List (List Char)
  entryPoint : EntryPoint
  executable : ρ

/-- Why a function string does not become a function. -/
inductive FunctionError (ε : Type) where
  | signature (error : SignatureError)
  | compilation (error : ε) (request : CompileRequest)
deriving Repr

/-- The report of a function that was not compiled. -/
def CompileRequest.failure (request : CompileRequest) (message : List Char) :
    List Char :=
  "cannot compile '".toList ++ request.functionString ++ "': ".toList ++ message ++
    " (positions refer to: ".toList ++ request.source ++ [')']

/-- The identifier of the argument array for a value of the clock. -/
def argsNameAt (clock : List Char) : List Char :=
  'o' :: clock

/-- A use of a function: by a method of its own, or as a whole. -/
inductive Use where
  | method (entry : EntryPoint)
  | whole
deriving DecidableEq, Repr

namespace Use

/-- The entry points that functions have methods for. -/
def entryPoints : List EntryPoint :=
  TypeTable.standard.pairs.map (fun pair => .primitive pair.1) ++ [.object]

/-- The use that a name asks for. -/
def ofName? (name : List Char) : Option Use :=
  if name = "call".toList then some .whole
  else if name = "evaluate".toList then some (.method .object)
  else (entryPoints.find? fun entry => entry.name == name).map .method

end Use

/-- A method that is not live. -/
structure UnsupportedOperation where
  requested : EntryPoint
  functionString : List Char
  live : EntryPoint
deriving DecidableEq, Repr

namespace ParsedFunction

variable {ρ ε : Type}

/-- Parses a function string with a backend. -/
def ofText (backend : CompileRequest → Except ε ρ) (table : TypeTable)
    (argsName text : List Char) : Except (FunctionError ε) (ParsedFunction ρ) :=
  match CompileRequest.ofText table argsName text with
  | .error error => .error (.signature error)
  | .ok request =>
    match backend request with
    | .error error => .error (.compilation error request)
    | .ok executable =>
      .ok {
        functionString := text
        parameterNames := request.bindings.map (·.name)
        entryPoint := request.entryPoint
        executable := executable }

/-- The text of a function. -/
def chars (function : ParsedFunction ρ) : List Char :=
  "ParsedFunction[".toList ++ function.functionString ++ [']']

/-- What a use of a function runs. -/
def select (function : ParsedFunction ρ) (use : Use) :
    Except UnsupportedOperation ρ :=
  match use with
  | .whole => .ok function.executable
  | .method entry =>
    if entry.name = function.entryPoint.name then .ok function.executable
    else .error ⟨entry, function.functionString, function.entryPoint⟩

end ParsedFunction

/-- The report of a method that is not live. -/
def UnsupportedOperation.message (error : UnsupportedOperation) : List Char :=
  error.requested.name ++ " is not available for ParsedFunction[".toList ++
    error.functionString ++ "]; its return type selects ".toList ++ error.live.name

/-- The backend that runs bodies itself. -/
def Program.backend (names : Namespace) (request : CompileRequest) :
    Except CompileError Program :=
  Program.compile names (String.ofList request.argsName)
    (String.ofList request.returnType) request.source

end Formulary
