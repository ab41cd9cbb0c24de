/-
Kinds: the types that a body can name.

A kind decides which values are its instances, and takes values over in two ways:
a cast may cut numbers down to the width of a primitive, a conversion refuses
what may lose digits. A kind of the host stands for a class, a module, a function
or any other object.
-/

import Formulary.Number.Arithmetic

namespace Formulary

/-- A type that a body can name. -/
inductive Kind where
  | core (type : CoreType)
  /-- The type of all numbers. -/
  | number
  /-- An object of the host; of an abstract class there are no instances. -/
  | host (name : String) (target : Value) (isAbstract : Bool)
deriving DecidableEq, Repr

/-! ### Primitive types -/

namespace Primitive

/-- Cuts a number down to a primitive type. -/
def castNumber (type : Primitive) (number : Number) : Except Fault Value :=
  let asIntegral (bits : Nat) : Int :=
    match number with
    | .integer i _ => wrap i bits
    | .floating x _ => Arithmetic.toIntegral x bits
  match type with
  | .double => do return .double (← number.toDouble)
  | .float => do return .single (← number.toDouble).toSingle
  | .long => .ok (.long (asIntegral 64))
  | .int => .ok (.int (asIntegral 32))
  | .short => .ok (.int (asIntegral 16))
  | .byte => .ok (.int (asIntegral 8))
  | .char =>
    let code :=
      match number with
      | .integer i _ => i
      | .floating x _ => Arithmetic.toIntegral x 32
    .ok (.char [(code % 0x10000).toNat])
  | .boolean => .error (.evaluation (.notBoolean number.toValue.typeName))

/-- Casts a value to a primitive type. A text of one character is a character. -/
def cast (type : Primitive) (value : Value) : Except Fault Value :=
  match type with
  | .boolean => do return .bool (← Arithmetic.truth value)
  | .char =>
    match value.text? with
    | some [code] => .ok (.char [code])
    | _ => do castNumber .char (← Number.ofValue value)
  | type => do castNumber type (← Number.ofValue value)

/-- Whether a primitive type takes whole numbers only. -/
def isWhole (type : Primitive) : Bool :=
  type.bits?.isSome || type = .char

/-- Takes a value over into a primitive type. Floating numbers are refused where
whole ones are asked for, and a `long` anywhere but in a `long`. -/
def convert (type : Primitive) (value : Value) : Except Fault Value :=
  if type.isWhole then
    match value with
    | .double _ => .error (.evaluation (.lossy "double" type.name))
    | .single _ => .error (.evaluation (.lossy "float" type.name))
    | .long _ =>
      if type = .long then type.cast value
      else .error (.evaluation (.lossy "long" type.name))
    | value => type.cast value
  else type.cast value

/-- Whether a value is an instance of the boxed type of a primitive. An `int`, or
a fraction where numbers may be broken, is one of every boxed number. -/
def boxes (type : Primitive) (value : Value) : Bool :=
  match type, value with
  | .boolean, .bool _ => true
  | .boolean, _ => false
  | .char, .char codes | .char, .str codes => codes.length == 1
  | .char, _ => false
  | type, .long _ => type = .long
  | type, .single _ => type = .float
  | _, .int _ => true
  | type, .double _ | type, .fraction _ => type.isFloating
  | _, _ => false

end Primitive

/-! ### Classes of the host -/

/-- Whether a value is an instance of a class. -/
def HostClass.hasInstance (type : HostClass) (value : Value) : Bool :=
  match type, value with
  | .iterable, .str _ | .iterable, .char _ => true
  | .collection, .str _ | .collection, .char _ => true
  | .sequence, .str _ | .sequence, .char _ => true
  | .number, .object (.record .number) _ => true
  | .number, value => value.isQuantity && !value.isTruth
  | .iterable, .object kind _ =>
    match kind with
    | .list | .tuple | .map | .set | .keys | .iterator => true
    | _ => false
  | .collection, .object kind _ =>
    match kind with
    | .list | .tuple | .map | .set | .keys => true
    | _ => false
  | .sequence, .object kind _ => kind = .list || kind = .tuple
  | .iterator, .object kind _ => kind = .iterator
  | .mapping, .object kind _ => kind = .map
  | .setView, .object kind _ => kind = .set || kind = .keys
  | .list, .object kind _ => kind = .list
  | .map, .object kind _ => kind = .map
  | .set, .object kind _ => kind = .set
  | type, .object (.record other) _ => type = other
  | _, _ => false

/-! ### Kinds -/

namespace Kind

/-- The name of a kind, as reports show it. -/
def name : Kind → String
  | .core type => type.name
  | .number => "Number"
  | .host name _ _ => name

/-- Whether a kind is a primitive type. -/
def isPrimitive : Kind → Bool
  | .core (.primitive _) => true
  | _ => false

/-- A kind as a value. -/
def toValue : Kind → Value
  | .core type => .type type
  | .number => .hostClass .number
  | .host _ target _ => target

/-- Whether a value is an instance of a kind. Primitive types have no instances
that could be asked for, and neither has an object that is no class. -/
def isInstance (kind : Kind) (value : Value) : Except Fault Bool :=
  match kind with
  | .core (.primitive type) => .error (.evaluation (.untestable type.name))
  | .core (.boxed type) => .ok (type.boxes value)
  | .core .object => .ok (value != .null)
  | .core .string => .ok value.isString
  | .number => .ok (HostClass.number.hasInstance value)
  | .host _ (.hostClass type) _ => .ok (type.hasInstance value)
  | .host name _ _ => .error (.evaluation (.notClass name))

/-- A value as it is if it is `null` or an instance of a kind. -/
def castReference (kind : Kind) (value : Value) : Except Fault Value :=
  if value = .null then .ok value
  else do
    if ← kind.isInstance value then return value
    else throw (.evaluation (.classCast value.typeName kind.name))

/-- Casts a value to a kind. -/
def cast (kind : Kind) (value : Value) : Except Fault Value :=
  match kind with
  | .core (.primitive type) => type.cast value
  | .core (.boxed type) => do
    let value ← castReference kind value
    if value = .null then return .null else type.cast value
  | kind => castReference kind value

/-- Takes a value over into a variable of a kind. Only primitive and boxed types
look at it. -/
def convert (kind : Kind) (value : Value) : Except Fault Value :=
  match kind with
  | .core (.primitive type) => type.convert value
  | .core (.boxed type) => if value = .null then .ok .null else type.convert value
  | _ => .ok value

/-- Takes a value over as the result of a body of a kind. -/
def convertResult (kind : Kind) (value : Value) : Except Fault Value :=
  match kind with
  | .core (.primitive _) | .core (.boxed _) => kind.convert value
  | kind => kind.cast value

end Kind

end Formulary
