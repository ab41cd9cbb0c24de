/-
The eight primitive types.
-/

namespace Formulary

/-- The primitive types of the body language. -/
inductive Primitive where
  | double
  | float
  | long
  | int
  | short
  | byte
  | char
  | boolean
deriving DecidableEq, Repr

namespace Primitive

/-- All primitive types. -/
def all : List Primitive :=
  [.double, .float, .long, .int, .short, .byte, .char, .boolean]

/-- The keyword that names a primitive type. -/
def name : Primitive → String
  | .double => "double"
  | .float => "float"
  | .long => "long"
  | .int => "int"
  | .short => "short"
  | .byte => "byte"
  | .char => "char"
  | .boolean => "boolean"

/-- The name of the boxed type of a primitive. -/
def boxedName : Primitive → String
  | .double => "Double"
  | .float => "Float"
  | .long => "Long"
  | .int => "Integer"
  | .short => "Short"
  | .byte => "Byte"
  | .char => "Character"
  | .boolean => "Boolean"

/-- The primitive type of a keyword. -/
def ofName? (name : String) : Option Primitive :=
  all.find? fun primitive => primitive.name == name

/-- The width of an integral primitive. -/
def bits? : Primitive → Option Nat
  | .long => some 64
  | .int => some 32
  | .short => some 16
  | .byte => some 8
  | _ => none

/-- `double` and `float`. -/
def isFloating : Primitive → Bool
  | .double | .float => true
  | _ => false

end Primitive

end Formulary
