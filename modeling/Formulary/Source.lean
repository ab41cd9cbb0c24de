/-
The finished source of a function body, and the entry point its return type
selects.

A body in which the word `return` stands free is kept as a block of statements.
Any other body is one expression: it is cast to the return type and returned.
-/

import Formulary.Text.FreeStanding
import Formulary.TypeTable

namespace Formulary

/-- The source of a body, and whether the body returned by itself. -/
structure Source where
  text : List Char
  explicitReturn : Bool
deriving DecidableEq, Repr

namespace Source

/-- The word that marks a body as a block of statements. -/
def returnWord : List Char := "return".toList

/-- The source for a body after substitution. -/
def ofBody (body returnType : List Char) : Source :=
  if Text.containsFree returnWord body then
    { text := body, explicitReturn := true }
  else
    { text := "return (".toList ++ returnType ++ ")(".toList ++ body ++ ");".toList
      explicitReturn := false }

end Source

/-- The one way in which a compiled function may be called. -/
inductive EntryPoint where
  | object
  | primitive (name : List Char)
deriving DecidableEq, Repr

namespace EntryPoint

/-- The name of an entry point. -/
def name : EntryPoint → List Char
  | .object => "evaluate_to_object".toList
  | .primitive name => "evaluate_to_".toList ++ name

/-- A return type that the table has as a primitive gets an entry point of its
own; all others share one. -/
def ofReturnType (table : TypeTable) (returnType : List Char) : EntryPoint :=
  if table.isPrimitive returnType then .primitive returnType else .object

end EntryPoint

end Formulary
