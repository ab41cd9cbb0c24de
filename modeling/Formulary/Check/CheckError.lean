/-
What is wrong with a body that can be read but makes no sense.
-/

import Formulary.Syntax.Token

namespace Formulary

/-- The reasons for which a body is refused. -/
inductive CheckFault where
  | unknownClass (name : String)
  | unknownVariable (name : String)
  | unknownMethod (name : String)
  | alreadyDefined (name : String)
  | reserved (name : String)
  | calledVariable (name : String)
  | notStatement
  | missingValue
  | breakOutside
  | continueOutside
  | misplacedDeclaration
  | primitiveTest (name : String)
  | primitiveInstance (name : String)
  | notVariable
  | missingReturn
deriving DecidableEq, Repr

/-- The report of a reason. -/
def CheckFault.text : CheckFault → String
  | .unknownClass name => "cannot find symbol: class " ++ name
  | .unknownVariable name => "cannot find symbol: variable " ++ name
  | .unknownMethod name => "cannot find symbol: method " ++ name
  | .alreadyDefined name => "variable '" ++ name ++ "' is already defined"
  | .reserved name => "'" ++ name ++ "' is a reserved keyword"
  | .calledVariable name => "cannot call variable '" ++ name ++ "'"
  | .notStatement => "not a statement"
  | .missingValue => "missing return value"
  | .breakOutside => "break outside switch or loop"
  | .continueOutside => "continue outside of loop"
  | .misplacedDeclaration => "variable declaration not allowed here"
  | .primitiveTest name => "unexpected type: required reference, found " ++ name
  | .primitiveInstance name => "cannot instantiate primitive type " ++ name
  | .notVariable => "unexpected type: required variable, found value"
  | .missingReturn => "missing return statement"

/-- A reason and where it holds. -/
structure CheckError where
  position : Position
  fault : CheckFault
deriving DecidableEq, Repr

/-- The report of a check. -/
def CheckError.message (error : CheckError) : List Char :=
  error.position.chars ++ ": ".toList ++ error.fault.text.toList

/-- The position of what stands outside the text of a body. -/
def Position.outside : Position := ⟨0, 0⟩

end Formulary
