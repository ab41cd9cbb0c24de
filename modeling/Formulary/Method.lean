/-
Methods and elements of values, as bodies use them.

A method that a value has itself comes first; of the others every value has those
that are listed here, as far as they make sense for it. Places in texts, lists and
tuples are integers from zero to below the length.
-/

import Formulary.Host.Call
import Formulary.Kind

namespace Formulary

/-! ### Places -/

namespace Place

/-- The place that a value stands for in something of some length. -/
def check (outOfRange : Int → Nat → EvaluationError) (length : Nat) (index : Value) :
    Except Fault Nat :=
  match index.integer? with
  | none => .error (.evaluation (.notIndex index.typeName))
  | some i =>
    if 0 ≤ i && i < (length : Int) then .ok i.toNat
    else if isTooLong i then .error .wrongValue
    else .error (.evaluation (outOfRange i length))

/-- The elements of a list, a tuple or a text. -/
def elements? (store : Store) : Value → Option (Array Value)
  | .str codes | .char codes => some (codes.map fun code => Value.str [code]).toArray
  | .object .list ref | .object .tuple ref => some (store.items ref)
  | _ => none

/-- The element at a place. -/
def load (container index : Value) : Action Value := do
  if container = .null then Action.fail .nullArray
  else
    match elements? (← get) container with
    | none => Action.fail (.notArray container.typeName)
    | some values =>
      let place ← Action.ofExcept (check .arrayIndexRange values.size index)
      return values.getD place .null

/-- Puts a value at a place of a list. -/
def store (container index value : Value) : Action Unit := do
  let _ ← load container index
  match container, index.integer? with
  | .object .list ref, some i =>
    let values := (← get).items ref
    Action.write ref (.items (values.setIfInBounds i.toNat value))
  | _, _ => Action.fail (.fixedContainer container.typeName)

end Place

/-! ### Methods that every value may have -/

namespace Method

/-- The failure of a method that a value does not have. -/
def missing {α : Type} (signature : String) (receiver : Value) : Action α :=
  Action.fail (.noMethod signature receiver.typeName)

/-- The code points of a text that has a method. -/
def textOf (signature : String) (receiver : Value) : Action Codes :=
  match receiver.text? with
  | some codes => pure codes
  | none => missing signature receiver

/-- How many elements a value has. -/
def size? (store : Store) : Value → Option Nat
  | .object .iterator _ => none
  | value => if Cursor.isIterable value then some (Cursor.count store value) else none

/-- How many elements a value has that has a method. -/
def sizeOf (signature : String) (receiver : Value) : Action Nat := do
  match size? (← get) receiver with
  | some size => return size
  | none => missing signature receiver

/-- Whether one number is at most another one. -/
def atMost (a b : Value) : Except Fault Bool :=
  if a.isQuantity && b.isQuantity then
    .ok (Arithmetic.ordered .le (Value.compareQuantities? a b))
  else .error .wrongType

/-- The place in a text that a value stands for. -/
def cutPlace (value : Value) : Except Fault Nat := do
  return (← Argument.integer value).toNat

/-- The end of a text from a place on. -/
def substringFrom (text : Codes) (start : Value) : Action Value := do
  let good ← Action.ofExcept do
    return (← atMost (.int 0) start) && (← atMost start (.int text.length))
  if good then return .str (text.drop (← Action.ofExcept (cutPlace start)))
  else
    let shown ← Action.consult fun store => store.plainText start
    Action.fail (.substringStart shown text.length)

/-- The stretch of a text from one place to another. -/
def substring (text : Codes) (start stop : Value) : Action Value := do
  let good ← Action.ofExcept do
    if ← atMost (.int 0) start then
      if ← atMost start stop then atMost stop (.int text.length) else return false
    else return false
  if good then
    let first ← Action.ofExcept (cutPlace start)
    let last ← Action.ofExcept (cutPlace stop)
    return .str ((text.take last).drop first)
  else
    let first ← Action.consult fun store => store.plainText start
    let last ← Action.consult fun store => store.plainText stop
    Action.fail (.substringRange first last text.length)

/-- The order of two values: of two texts, or of two numbers. -/
def order (receiver other : Value) : Except Fault Int :=
  match receiver.text?, other.text? with
  | some s, some t =>
    .ok (if Store.textBefore s t then -1 else if Store.textBefore t s then 1 else 0)
  | _, _ => do
    let a ← Number.ofValue receiver
    let b ← Number.ofValue other
    return Number.signOfOrder (a.compare? b)

/-- The place of the first element that equals a value. -/
def placeOf (receiver item : Value) : Action Int := do
  match receiver.text? with
  | some text =>
    match Text.Search.find? (← Display.text item) text with
    | some place => return place
    | none => return -1
  | none =>
    match receiver with
    | .object .list ref | .object .tuple ref =>
      let found ← Action.consult fun store =>
        Sequence.place? store.equals item (store.items ref).toList
      match found with
      | some place => return place
      | none => return -1
    | receiver => missing "indexOf" receiver

/-- Whether a value is among the elements of another one. -/
def contains (receiver item : Value) : Action Bool := do
  match receiver.text? with
  | some text => return (Text.Search.find? (← Display.text item) text).isSome
  | none =>
    match receiver with
    | .object .list ref | .object .tuple ref =>
      Action.consult fun store =>
        Store.holds store.same item (store.items ref).toList
    | .object .map ref => return (← Mapping.find? ref item).isSome
    | .object .keys ref =>
      let map ← Action.read fun store => store.viewed ref
      return (← Mapping.find? map item).isSome
    | .object .set ref => SetOf.asks ref item
    | receiver => missing "contains" receiver

/-- The element at a place of a text, a list or a tuple. -/
def element (receiver index : Value) : Action Value := do
  match Place.elements? (← get) receiver with
  | none => missing "get" receiver
  | some values =>
    let place ← Action.ofExcept (Place.check .indexRange values.size index)
    return values.getD place .null

/-- Puts a value at a place of a list; the value that was there. -/
def replace (receiver index value : Value) : Action Value := do
  match receiver with
  | .object .list ref =>
    let values := (← get).items ref
    let place ← Action.ofExcept (Place.check .indexRange values.size index)
    Action.write ref (.items (values.setIfInBounds place value))
    return values.getD place .null
  | receiver => missing "set" receiver

/-- The map that has a method. -/
def mapOf (signature : String) (receiver : Value) : Action Ref :=
  match receiver with
  | .object .map ref => pure ref
  | receiver => missing signature receiver

/-- The primitive that a method takes a value over into. -/
def valueMethod? (name : String) : Option Primitive :=
  Primitive.all.find? fun type => type.name ++ "Value" == name

/-- The value of a boxed number or truth value. -/
def unboxed (type : Primitive) (receiver : Value) : Action Value :=
  if type = .boolean then
    Action.ofExcept do return .bool (← Arithmetic.truth receiver)
  else if receiver.isNumeric then Action.ofResult (type.cast receiver)
  else missing (type.name ++ "Value()") receiver

/-- A method without arguments. -/
def callPlain? (receiver : Value) (name : String) : Option (Action Value) :=
  match name with
  | "hashCode" => some do return .int (← Action.consult fun store => store.hash receiver)
  | "toString" => some do return .str (← Display.text receiver)
  | "isNaN" => some (Action.ofExcept do
    return .bool (← (← Number.ofValue receiver).toDouble).isNaN)
  | "isInfinite" => some (Action.ofExcept do
    return .bool (← (← Number.ofValue receiver).toDouble).isInfinite)
  | "length" => some do return .int (← textOf "length()" receiver).length
  | "toUpperCase" => some do
    return .str (Text.toUpper (← textOf "toUpperCase()" receiver))
  | "toLowerCase" => some do
    return .str (Text.toLower (← textOf "toLowerCase()" receiver))
  | "trim" => some do
    return .str (Text.Search.stripWhere [32, 9, 10, 11, 12, 13].contains
      (← textOf "trim()" receiver))
  | "size" => some do return .int (← sizeOf "size()" receiver)
  | "isEmpty" => some do return .bool ((← sizeOf "isEmpty()" receiver) == 0)
  | "iterator" => some do
    match Cursor.start? (← get) receiver with
    | some cursor => Iteration.newIterator cursor
    | none => missing "iterator()" receiver
  | "keySet" => some do Action.create .keys (.keysOf (← mapOf "keySet()" receiver))
  | name => (valueMethod? name).map fun type => unboxed type receiver

/-- A method with one argument. -/
def callOne? (receiver : Value) (name : String) (arg : Value) : Option (Action Value) :=
  match name with
  | "equals" => some do
    return .bool (← Action.consult fun store => store.equals receiver arg)
  | "compareTo" => some do return .int (← Action.ofExcept (order receiver arg))
  | "charAt" => some do
    let text ← textOf "charAt(int)" receiver
    let place ← Action.ofExcept (Place.check .indexRange text.length arg)
    return .char [text.getD place 0]
  | "substring" => some do substringFrom (← textOf "substring(int)" receiver) arg
  | "startsWith" => some do
    let text ← textOf "startsWith(String)" receiver
    return .bool (← Action.consult fun store => TextMethod.begins store text [arg])
  | "endsWith" => some do
    let text ← textOf "endsWith(String)" receiver
    return .bool (← Action.consult fun store => TextMethod.ends store text arg)
  | "concat" => some do
    let front ← textOf "concat(String)" receiver
    return .str (front ++ (← textOf "concat(String)" arg))
  | "equalsIgnoreCase" => some do
    match arg.text? with
    | none => return .bool false
    | some other =>
      let text ← textOf "equalsIgnoreCase(String)" receiver
      return .bool (Text.toLower text == Text.toLower other)
  | "indexOf" => some do return .int (← placeOf receiver arg)
  | "contains" => some do return .bool (← contains receiver arg)
  | "get" => some (element receiver arg)
  | "add" => some do
    match receiver with
    | .object .list ref =>
      let values := (← get).items ref
      Action.write ref (.items (values.push arg))
      return .bool true
    | receiver => missing "add" receiver
  | "containsKey" => some do
    let ref ← mapOf "containsKey" receiver
    return .bool (← Mapping.find? ref arg).isSome
  | _ => none

/-- A method with two arguments. -/
def callTwo? (receiver : Value) (name : String) (first second : Value) :
    Option (Action Value) :=
  match name with
  | "substring" => some do
    substring (← textOf "substring(int,int)" receiver) first second
  | "set" => some (replace receiver first second)
  | "put" => some do
    let ref ← mapOf "put" receiver
    let previous ← Mapping.find? ref first
    Mapping.put ref first second
    return previous.getD .null
  | "getOrDefault" => some do
    let ref ← mapOf "getOrDefault" receiver
    return (← Mapping.find? ref first).getD second
  | _ => none

/-- A method that every value may have, by the number of its arguments. -/
def builtin? (receiver : Value) (name : String) (args : List Value) :
    Option (Action Value) :=
  match args with
  | [] => callPlain? receiver name
  | [arg] => callOne? receiver name arg
  | [first, second] => callTwo? receiver name first second
  | _ => none

/-- Calls a method of a value. -/
def invoke (receiver : Value) (name : String) (args : List Value) : Action Value := do
  if receiver = .null then Action.fail (.nullReceiver name)
  else
    let own := ((← get).member? receiver name).filter Value.isCallable
    match own with
    | some method => Host.call method args
    | none =>
      match builtin? receiver name args with
      | some result => result
      | none => Action.fail (.noOverload name args.length receiver.typeName)

end Method

end Formulary
