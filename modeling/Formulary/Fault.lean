/-
What can go wrong while a body runs.

An `EvaluationError` is a cause that the body language knows; its report is
worked out by `report`. A `HostFault` comes from the objects that a body is given
and from what they refuse; it has a kind and no report. A `RunError` is a failure of
the run of a body rather than of a value in it.
-/

import Formulary.Number.Integer
import Formulary.Value

namespace Formulary

/-- The failures of the body language. Types are given by their names. -/
inductive EvaluationError where
  | divisionByZero
  | nullNumber
  | nullOperand (symbol : String)
  | nullReceiver (method : String)
  | nullFieldRead (field : String)
  | nullFieldWrite (field : String)
  | nullArray
  | nullIteration
  | booleanAsNumber
  | notNumber (type : String)
  | notBoolean (type : String)
  | notIndex (type : String)
  | notText (type : String)
  | lossy (source target : String)
  | badOperands (symbol : String)
  | badOperandTypes (symbol left right : String)
  | badComplement
  | unsupportedOperator (symbol : String)
  | unknownUnary (symbol : String)
  | classCast (type target : String)
  | untestable (type : String)
  | notClass (name : String)
  | noStatic (type name : String)
  | noStaticMethod (type name : String)
  | noParse (type : String)
  | notMethod (type name : String)
  | noInstances (type : String)
  | notCallable (type : String)
  | noField (field type : String)
  | noMethod (signature type : String)
  | noOverload (method : String) (count : Nat) (type : String)
  | fixedField (field type : String)
  | fixedContainer (type : String)
  | notArray (type : String)
  | numberFormat (text : Codes)
  | numberRange (text : Codes)
  | indexRange (index : Int) (length : Nat)
  | arrayIndexRange (index : Int) (length : Nat)
  | substringStart (start : Codes) (length : Nat)
  | substringRange (start stop : Codes) (length : Nat)
  | noSuchElement
  | notIterable
deriving DecidableEq, Repr

namespace EvaluationError

/-- The code points of a text. -/
def said (text : String) : Codes :=
  codesOfString text

/-- The decimal text of a number. -/
def counted (n : Nat) : Codes :=
  codesOf (natChars n)

/-- What a failed access shows of its index. -/
def outOfBounds (kind : String) (index : Int) (length : Nat) : Codes :=
  said (kind ++ ": Index ") ++ codesOf (intChars index) ++
    said " out of bounds for length " ++ counted length

/-- The report of an evaluation error. -/
def report : EvaluationError → Codes
  | .divisionByZero => said "ArithmeticException: / by zero"
  | .nullNumber => said "NullPointerException: cannot unbox null value"
  | .nullOperand symbol =>
    said ("NullPointerException: null operand for binary operator '" ++ symbol ++ "'")
  | .nullReceiver method =>
    said ("NullPointerException: cannot invoke '" ++ method ++ "()' on null")
  | .nullFieldRead field =>
    said ("NullPointerException: cannot read field '" ++ field ++ "' of null")
  | .nullFieldWrite field =>
    said ("NullPointerException: cannot assign field '" ++ field ++ "' of null")
  | .nullArray => said "NullPointerException: cannot load from null array"
  | .nullIteration => said "NullPointerException: cannot iterate over null"
  | .booleanAsNumber =>
    said "incompatible types: boolean cannot be converted to a number"
  | .notNumber type =>
    said ("incompatible types: " ++ type ++ " cannot be converted to a number")
  | .notBoolean type =>
    said ("incompatible types: " ++ type ++ " cannot be converted to boolean")
  | .notIndex type =>
    said ("incompatible types: " ++ type ++ " cannot be converted to int")
  | .notText type =>
    said ("incompatible types: " ++ type ++ " cannot be converted to String")
  | .lossy source target =>
    said ("incompatible types: possible lossy conversion from " ++ source ++ " to " ++
      target)
  | .badOperands symbol =>
    said ("bad operand types for binary operator '" ++ symbol ++ "'")
  | .badOperandTypes symbol left right =>
    said ("bad operand types for binary operator '" ++ symbol ++ "': " ++ left ++
      " and " ++ right)
  | .badComplement => said "bad operand type for unary operator '~'"
  | .unsupportedOperator symbol => said ("Unsupported operator " ++ symbol)
  | .unknownUnary symbol => said ("Unknown unary operator " ++ symbol)
  | .classCast type target =>
    said ("ClassCastException: " ++ type ++ " cannot be cast to " ++ target)
  | .untestable type => said ("unexpected type: required reference, found " ++ type)
  | .notClass name => said ("unexpected type: " ++ name ++ " is not a class")
  | .noStatic type name => said ("cannot find symbol: " ++ type ++ "." ++ name)
  | .noStaticMethod type name =>
    said ("cannot find symbol: method " ++ type ++ "." ++ name)
  | .noParse type => said ("cannot find symbol: method " ++ type ++ ".parse")
  | .notMethod type name => said (type ++ "." ++ name ++ " is not a method")
  | .noInstances type => said (type ++ " cannot be instantiated")
  | .notCallable type => said (type ++ " is not callable")
  | .noField field type =>
    said ("cannot find symbol: field " ++ field ++ " in " ++ type)
  | .noMethod signature type =>
    said ("cannot find symbol: method " ++ signature ++ " in " ++ type)
  | .noOverload method count type =>
    said ("cannot find symbol: method " ++ method ++ "(") ++ counted count ++
      said (" args) in " ++ type)
  | .fixedField field type =>
    said ("cannot assign a value to field " ++ field ++ " of " ++ type)
  | .fixedContainer type => said ("cannot assign into " ++ type)
  | .notArray type => said ("array required, but " ++ type ++ " found")
  | .numberFormat text =>
    said "NumberFormatException: For input string: \"" ++ text ++ said "\""
  | .numberRange text =>
    said "NumberFormatException: Value out of range. Value:\"" ++ text ++ said "\""
  | .indexRange index length =>
    outOfBounds "IndexOutOfBoundsException" index length
  | .arrayIndexRange index length =>
    outOfBounds "ArrayIndexOutOfBoundsException" index length
  | .substringStart start length =>
    said "StringIndexOutOfBoundsException: begin " ++ start ++ said ", length " ++
      counted length
  | .substringRange start stop length =>
    said "StringIndexOutOfBoundsException: begin " ++ start ++ said ", end " ++ stop ++
      said ", length " ++ counted length
  | .noSuchElement => said "NoSuchElementException"
  | .notIterable => said "for-each not applicable to expression type"

end EvaluationError

/-- The failures of a run itself: of its variables and of its control flow. No
action on the store raises them. -/
inductive RunError where
  | unknownVariable (name : String)
  | uninitialized (name : String)
  | missingReturn
  | notVariable
deriving DecidableEq, Repr

/-- The report of the failure of a run. -/
def RunError.report : RunError → Codes
  | .unknownVariable name =>
    EvaluationError.said ("Unknown variable '" ++ name ++ "'")
  | .uninitialized name =>
    EvaluationError.said ("variable " ++ name ++ " might not have been initialized")
  | .missingReturn => EvaluationError.said "missing return statement"
  | .notVariable =>
    EvaluationError.said "unexpected type: required variable, found value"

/-- The failures of host objects. -/
inductive HostFault where
  /-- A wrong type, or a wrong number of arguments. -/
  | wrongType
  | wrongValue
  | missingKey
  | missingIndex
  | missingAttribute
  | overflow
  /-- A container that changed while it was iterated over. -/
  | changedDuringIteration
  /-- Objects inside one another without end. -/
  | endlessNesting
deriving DecidableEq, Repr

/-- Everything that can go wrong. -/
inductive Fault where
  | evaluation (error : EvaluationError)
  | host (fault : HostFault)
deriving DecidableEq, Repr

namespace Fault

def wrongType : Fault := .host .wrongType
def wrongValue : Fault := .host .wrongValue

end Fault

end Formulary
