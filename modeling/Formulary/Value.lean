/-
Values.

Numbers, booleans, characters and strings are values in themselves; what has an
identity is a reference into a store, together with the kind of the object it
leads to. Classes, functions and modules that a body reaches by name are values
too. The integral kinds below `long` share one constructor: they differ in the
variables they are kept in, not as values.
-/

import Formulary.Number.Double
import Formulary.Primitive

namespace Formulary

/-- The code points of a string value. Surrogates may stand alone. -/
abbrev Codes := List Nat

/-- The code points of a text. -/
def codesOf (text : List Char) : Codes :=
  text.map Char.toNat

/-- The code points of a text. -/
def codesOfString (text : String) : Codes :=
  codesOf text.toList

/-! ### What a body reaches by name -/

/-- The functions of the class `Math`. -/
inductive MathFunction where
  | sqrt
  | cbrt
  | exp
  | log
  | log10
  | sin
  | cos
  | tan
  | asin
  | acos
  | atan
  | atan2
  | hypot
  | floor
  | ceil
  | rint
  | toRadians
  | toDegrees
  | pow
  | abs
  | max
  | min
  | round
  | signum
  | floorDiv
  | floorMod
  | random
deriving DecidableEq, Repr

/-- Classes. The abstract ones among them are views that classes of containers
share. -/
inductive HostClass where
  | math
  | number
  | iterable
  | collection
  | sequence
  | iterator
  | mapping
  | setView
  | list
  | map
  | set
  | point
  | label
  | limits
deriving DecidableEq, Repr

/-- Functions. -/
inductive HostFunction where
  | math (function : MathFunction)
  /-- The product of a value with itself. -/
  | square
  /-- The value itself. -/
  | same
  /-- No value: always a missing key. -/
  | boom
  /-- The sum of a value with itself. -/
  | twice
  /-- The text of a label. -/
  | labelText
  /-- The label with the texts of two labels. -/
  | labelJoin
deriving DecidableEq, Repr

/-- Modules. -/
inductive HostModule where
  | geom
deriving DecidableEq, Repr

/-- The name by which a module is found. -/
def HostModule.name : HostModule → String
  | .geom => "hostlib.geom"

/-- The types that are values themselves. -/
inductive CoreType where
  | primitive (type : Primitive)
  | boxed (type : Primitive)
  | object
  | string
deriving DecidableEq, Repr

namespace CoreType

/-- The name of a type. -/
def name : CoreType → String
  | .primitive type => type.name
  | .boxed type => type.boxedName
  | .object => "Object"
  | .string => "String"

end CoreType

/-! ### Values -/

/-- A place in a store. -/
abbrev Ref := Nat

/-- What kind of object a reference leads to. -/
inductive ObjectKind where
  | list
  | tuple
  | map
  | set
  | keys
  | iterator
  | bare
  | record (type : HostClass)
deriving DecidableEq, Repr

/-- Values. -/
inductive Value where
  | null
  | bool (b : Bool)
  | int (i : Int)
  | long (i : Int)
  | double (x : Double)
  | single (x : Double)
  | fraction (q : Rat)
  /-- A character; usually one code point. -/
  | char (codes : Codes)
  | str (codes : Codes)
  | object (kind : ObjectKind) (ref : Ref)
  | type (type : CoreType)
  | hostClass (type : HostClass)
  | hostFunction (function : HostFunction)
  | hostModule (name : HostModule)
  /-- A method of a value that is not called yet. -/
  | method (receiver : Value) (name : String)
deriving DecidableEq, Repr

namespace HostClass

/-- The name of the class of an instance. -/
def name : HostClass → String
  | .math => "JavaMath"
  | .number => "Number"
  | .iterable => "Iterable"
  | .collection => "Collection"
  | .sequence => "Sequence"
  | .iterator => "Iterator"
  | .mapping => "Mapping"
  | .setView => "Set"
  | .list => "list"
  | .map => "dict"
  | .set => "set"
  | .point => "Point"
  | .label => "Label"
  | .limits => "Limits"

/-- Whether a class is a view that other classes share. -/
def isView : HostClass → Bool
  | .number | .iterable | .collection | .sequence | .iterator | .mapping
  | .setView => true
  | _ => false

end HostClass

/-- The name of a kind of object, as reports show it. -/
def ObjectKind.name : ObjectKind → String
  | .list => "list"
  | .tuple => "tuple"
  | .map => "dict"
  | .set => "set"
  | .keys => "dict_keys"
  | .iterator => "JavaIterator"
  | .bare => "object"
  | .record type => type.name

namespace Value

/-- The name of the kind of a value, as reports show it. -/
def typeName : Value → String
  | .null => "null"
  | .bool _ => "Boolean"
  | .int _ => "Integer"
  | .long _ => "Long"
  | .double _ => "Double"
  | .single _ => "Float"
  | .fraction _ => "Fraction"
  | .char _ => "Character"
  | .str _ => "String"
  | .object kind _ => kind.name
  | .type (.primitive _) => "PrimitiveType"
  | .type (.boxed _) => "BoxedType"
  | .type .object => "ObjectType"
  | .type .string => "StringType"
  | .hostClass c => if c.isView then "ABCMeta" else "type"
  | .hostFunction _ => "function"
  | .hostModule _ => "module"
  | .method (.object (.record _) _) _ => "method"
  | .method (.object .iterator _) _ => "method"
  | .method .. => "builtin_function_or_method"

/-- Whether a value is compared by its numeric value. -/
def isQuantity : Value → Bool
  | .bool _ | .int _ | .long _ | .double _ | .single _ | .fraction _ => true
  | _ => false

/-- Truth values. -/
def isTruth : Value → Bool
  | .bool _ => true
  | _ => false

/-- Integers, floating numbers, fractions and characters. -/
def isNumeric : Value → Bool
  | .int _ | .long _ | .double _ | .single _ | .fraction _ | .char _ => true
  | _ => false

/-- Strings, characters excluded. -/
def isString : Value → Bool
  | .str _ => true
  | _ => false

/-- The code points of a string or a character. -/
def text? : Value → Option Codes
  | .char codes | .str codes => some codes
  | _ => none

/-- The integer that an index may be. -/
def integer? : Value → Option Int
  | .int i | .long i => some i
  | _ => none

/-- What a class, a function or a method is and other values are not. -/
def isCallable : Value → Bool
  | .hostClass _ | .hostFunction _ | .method .. => true
  | _ => false

end Value

end Formulary
