/-
What kinds themselves offer: constants, static methods and new instances.
-/

import Formulary.Host.Call
import Formulary.Host.Template
import Formulary.Kind
import Formulary.Value.Constant

namespace Formulary

namespace Primitive

/-! ### Numbers from texts -/

/-- An integer in ASCII digits, with or without a sign. -/
def integerOfText? (codes : Codes) : Option Int :=
  let (negative, digits) :=
    match codes with
    | 45 :: rest => (true, rest)
    | 43 :: rest => (false, rest)
    | rest => (false, rest)
  if digits.isEmpty || !digits.all isAsciiDigit || maxDigits < digits.length then none
  else
    let n : Int := natOfDigits digits
    some (if negative then -n else n)

/-- The value of a primitive type that a text writes. -/
def parse (type : Primitive) (value : Value) : Except Fault Value :=
  match value.text? with
  | none => .error (.evaluation (.notText value.typeName))
  | some codes =>
    match type with
    | .boolean => .ok (.bool (Text.toLower codes == codesOfString "true"))
    | .char => .error (.evaluation (.noParse type.boxedName))
    | .double | .float =>
      match Double.ofText? (Text.Search.stripWhere Text.Search.isBlankCode codes) with
      | some x => type.castNumber (.floating x false)
      | none => .error (.evaluation (.numberFormat codes))
    | .long | .int | .short | .byte =>
      match integerOfText? codes, type.bits? with
      | some i, some bits =>
        if wrap i bits = i then type.castNumber (.integer i false)
        else .error (.evaluation (.numberRange codes))
      | _, _ => .error (.evaluation (.numberFormat codes))

/-- The name of the static method that reads a primitive type from a text. -/
def parseName (type : Primitive) : String :=
  match type with
  | .int => "parseInt"
  | type => "parse" ++ type.boxedName

/-! ### Static methods -/

/-- The order of two values of a boxed type, as minus one, zero or one. -/
def order (type : Primitive) (left right : Value) : Action Value := do
  if type = .boolean then
    let above ← Action.consult fun store => store.before right left
    let below ← Action.consult fun store => store.before left right
    return .int ((if above then 1 else 0) - (if below then 1 else 0))
  else
    Action.ofExcept do
      let a ← Number.ofValue (← type.convert left)
      let b ← Number.ofValue (← type.convert right)
      return .int (Number.signOfOrder (a.compare? b))

/-- Whether a number as a double is of a sort. -/
def isOfSort (sort : Double → Bool) (value : Value) : Except Fault Value := do
  return .bool (sort (← (← Number.ofValue value).toDouble))

/-- The greater, the smaller or the sum of two values of a primitive type. -/
def ofTwo (type : Primitive) (name : String) (left right : Value) :
    Except Fault Value := do
  let left ← type.convert left
  let right ← type.convert right
  match name with
  | "sum" =>
    type.cast (← Arithmetic.numbers .add (← Number.ofValue left)
      (← Number.ofValue right))
  | "max" => Arithmetic.extremum true left right
  | _ => Arithmetic.extremum false left right

/-- A static method of the boxed type of a primitive. -/
def callStatic (type : Primitive) (name : String) (args : List Value) :
    Action Value := do
  let noMethod : Action Value := Action.fail (.noStaticMethod type.boxedName name)
  match args with
  | [value] =>
    if name = "valueOf" then
      if value.text?.isSome && type != .char then Action.ofResult (type.parse value)
      else Action.ofResult (type.convert value)
    else if name = type.parseName then Action.ofResult (type.parse value)
    else if name = "toString" then
      let converted ← Action.ofExcept (type.convert value)
      return .str (← Display.text converted)
    else if type.isFloating then
      match name with
      | "isNaN" => Action.ofExcept (isOfSort Double.isNaN value)
      | "isInfinite" => Action.ofExcept (isOfSort Double.isInfinite value)
      | "isFinite" => Action.ofExcept (isOfSort Double.isFinite value)
      | _ => noMethod
    else noMethod
  | [left, right] =>
    if name = "compare" then type.order left right
    else if ["max", "min", "sum"].contains name && type != .boolean && type != .char then
      Action.ofResult (type.ofTwo name left right)
    else noMethod
  | _ => noMethod

end Primitive

/-! ### Texts -/

namespace StringKind

/-- The texts of all values of a list. -/
def textOfEach : List Value → Action (List Codes)
  | [] => pure []
  | value :: rest => do return (← Display.text value) :: (← textOfEach rest)

/-- Texts joined by a separator: those of the elements of one value that is no
text itself, or those of all values. -/
def joined (separator : Value) (values : List Value) : Action Value := do
  let separator ← Display.text separator
  let values ←
    match values with
    | [value] => if value.text?.isSome then pure [value] else Iteration.all value
    | values => pure values
  return .str (Text.Search.joined separator (← textOfEach values))

/-- A template filled with values; `%n` stands for a line end in it. -/
def filled (template : Value) (values : List Value) : Action Value := do
  let template ← Display.text template
  let lines := Text.Search.replace [37, 110] [10] (template.length + 1) template
  return .str (← Action.consult fun store => Template.write store lines values)

/-- A static method of the type of texts. -/
def callStatic (name : String) (args : List Value) : Action Value := do
  match name, args with
  | "valueOf", [value] => return .str (← Display.text value)
  | "join", separator :: values => joined separator values
  | "format", template :: values => filled template values
  | _, _ => Action.fail (.noStaticMethod CoreType.string.name name)

end StringKind

/-! ### Kinds -/

namespace Kind

/-- The constant or the member that a kind has under a name. -/
def getStatic (store : Store) (kind : Kind) (name : String) : Except Fault Value :=
  let found? :=
    match kind with
    | .core (.boxed type) => type.constant? name
    | .core _ => none
    | kind => store.member? kind.toValue name
  match found? with
  | some value => .ok value
  | none => .error (.evaluation (.noStatic kind.name name))

/-- Calls a static method of a kind. -/
def callStatic (kind : Kind) (name : String) (args : List Value) : Action Value := do
  match kind with
  | .core (.boxed type) => type.callStatic name args
  | .core .string => StringKind.callStatic name args
  | .core type => Action.fail (.noStaticMethod type.name name)
  | kind =>
    let member ← Action.consult fun store => kind.getStatic store name
    if member.isCallable then Host.call member args
    else Action.fail (.notMethod kind.name name)

/-- A new instance of a kind. -/
def instantiate (kind : Kind) (args : List Value) : Action Value := do
  match kind, args with
  | .core (.boxed type), [value] => type.callStatic "valueOf" [value]
  | .core .object, [] => Action.create .bare .bare
  | .core .string, [] => return .str []
  | .core .string, [value] => return .str (← Display.text value)
  | .host name target isAbstract, args =>
    if isAbstract || !target.isCallable then Action.fail (.noInstances name)
    else Host.call target args
  | kind, _ => Action.fail (.noInstances kind.name)

/-- Calls what a kind stands for. -/
def invoke (kind : Kind) (args : List Value) : Action Value :=
  match kind with
  | .core type => Action.fail (.notCallable type.name)
  | kind =>
    if kind.toValue.isCallable then Host.call kind.toValue args
    else Action.fail (.notCallable kind.name)

end Kind

end Formulary
