/-
Calling what can be called: classes, functions and methods.

A class makes an instance of itself, a function answers with a value, and a method
does so for the value that it belongs to. Arguments that do not fit are of a wrong
type.
-/

import Formulary.Host.ContainerMethod
import Formulary.Host.Math
import Formulary.Host.TextMethod
import Formulary.Value.Written

namespace Formulary

namespace Host

/-! ### Sums and products -/

/-- An integer or a truth value, as an integer. -/
def wholeNumber? : Value → Option Int := Argument.integer?

/-- A double of either precision. -/
def floatingNumber? : Value → Option Double
  | .double x => some x
  | .single x => some (if x.isNaN then .freshNaN else x)
  | _ => none

/-- A quantity as a double. -/
def asDouble (value : Value) : Except Fault Double :=
  match floatingNumber? value with
  | some x => .ok x
  | none =>
    match value.exactValue? with
    | some q =>
      let x := Double.ofRat false q
      if x.isFinite then .ok x else .error (.host .overflow)
    | none => .error .wrongType

/-- Combines two quantities: integers to an unbounded integer, fractions to a
fraction, and anything beside a double to a double. -/
def combine (onInt : Int → Int → Int) (onRat : Rat → Rat → Rat)
    (onDouble : Double → Double → Double) (a b : Value) : Except Fault Value :=
  if !a.isQuantity || !b.isQuantity then .error .wrongType
  else
    match wholeNumber? a, wholeNumber? b with
    | some i, some j => .ok (.int (onInt i j))
    | _, _ =>
      if (floatingNumber? a).isSome || (floatingNumber? b).isSome then do
        return .double (onDouble (← asDouble a) (← asDouble b))
      else
        match a.exactValue?, b.exactValue? with
        | some x, some y => .ok (.fraction (onRat x y))
        | _, _ => .error .wrongType

/-- The sum of two values: numbers are added, texts, lists and tuples joined. -/
def sum (a b : Value) : Action Value := do
  match a.text?, b.text? with
  | some s, some t => return .str (s ++ t)
  | _, _ =>
    match a, b with
    | .object .list r, .object .list s =>
      let store ← get
      Action.newList (store.items r ++ store.items s)
    | .object .tuple r, .object .tuple s =>
      let store ← get
      if (store.items r).isEmpty then return b
      else if (store.items s).isEmpty then return a
      else Action.newTuple (store.items r ++ store.items s)
    | _, _ => Action.ofResult (combine (· + ·) (· + ·) Double.add a b)

/-! ### Instances -/

/-- The text that an object holds. -/
def heldText (receiver : Value) : Action Value := do
  match (← get).member? receiver "text" with
  | some value => return value
  | none => Action.refuse .missingAttribute

/-- The two values that an entry of a new map is made of. -/
def entryOf (value : Value) : Action (Value × Value) := do
  match ← Iteration.all value with
  | [key, value] => return (key, value)
  | _ => Action.refuse .wrongValue

/-- Puts entries into a map, one after the other. -/
def putAll (ref : Ref) : List Value → Action Unit
  | [] => pure ()
  | value :: rest => do
    let (key, value) ← entryOf value
    Mapping.put ref key value
    putAll ref rest

/-- Adds elements to a set, one after the other. -/
def addAll (ref : Ref) : List Value → Action Unit
  | [] => pure ()
  | value :: rest => do
    SetOf.add ref value
    addAll ref rest

/-- A new map with the entries of a map, or with entries that are given as pairs of
a key and a value. -/
def newMap (source : Option Value) : Action Value := do
  match source with
  | none => Action.create .map (.entries .empty)
  | some (.object .map ref) =>
    let pairs := (← get).entries ref
    Action.create .map (.entries (.ofPairs pairs))
  | some source =>
    let values ← Iteration.all source
    let (ref, store) := (← get).add (.entries .empty)
    set store
    putAll ref values
    return .object .map ref

/-- A new set with the elements of a value. -/
def newSet (source : Option Value) : Action Value := do
  let values ←
    match source with
    | none => pure []
    | some source => Iteration.all source
  let (ref, store) := (← get).add (.elements [])
  set store
  addAll ref values
  return .object .set ref

/-- A new instance of a class. -/
def instantiate (type : HostClass) (args : List Value) : Action Value := do
  match type, args with
  | .list, [] => Action.newList #[]
  | .list, [source] => Action.newList (← Iteration.all source).toArray
  | .map, [] => newMap none
  | .map, [source] => newMap (some source)
  | .set, [] => newSet none
  | .set, [source] => newSet (some source)
  | .point, [x, y] => Action.create (.record .point) (.record [("x", x), ("y", y)])
  | .label, [text] => Action.create (.record .label) (.record [("text", text)])
  | .limits, [] | .math, [] | .number, [] => Action.create (.record type) (.record [])
  | _, _ => Action.refuse .wrongType

/-! ### Calls -/

/-- The value of a function. -/
def callFunction (function : HostFunction) (args : List Value) : Action Value := do
  match function, args with
  | .math f, args => Action.ofResult (f.apply args)
  | .square, [value] =>
    Action.ofResult (combine (· * ·) (· * ·) Double.mul value value)
  | .same, [value] => return value
  | .boom, [_] => Action.refuse .missingKey
  | .twice, [value] => sum value value
  | .labelText, [receiver] =>
    let text ← Action.ofExcept (Argument.text (← heldText receiver))
    return .str (60 :: text ++ [62])
  | .labelJoin, [receiver, other] =>
    let text ← heldText receiver
    instantiate .label [← sum text (← heldText other)]
  | _, _ => Action.refuse .wrongType

/-- The result of a method of a number. -/
def callNumber (receiver : Value) (name : String) (args : List Value) :
    Except Fault Value :=
  match name, args with
  | "bit_length", [] =>
    match wholeNumber? receiver with
    | some i => .ok (.int (if i = 0 then 0 else i.natAbs.log2 + 1))
    | none => .error .wrongType
  | "is_integer", [] =>
    .ok (.bool (match receiver.exactValue? with
      | some q => q.den == 1
      | none => false))
  | _, _ => .error .wrongType

/-- The result of a method of an iterator. -/
def callIterator (ref : Ref) (name : String) (args : List Value) : Action Value := do
  match name, args with
  | "hasNext", [] => return .bool (← Iteration.hasNext ref)
  | "next", [] =>
    match ← Iteration.take? ref with
    | some value => return value
    | none => Action.fail .noSuchElement
  | _, _ => Action.refuse .wrongType

/-- The result of a method. -/
def callMethod (receiver : Value) (name : String) (args : List Value) :
    Action Value := do
  match receiver with
  | .str codes | .char codes => TextMethod.call receiver codes name args
  | .object .list ref | .object .tuple ref => Sequence.call ref name args
  | .object .map ref => Mapping.call ref name args
  | .object .set ref => SetOf.call ref name args
  | .object .iterator ref => callIterator ref name args
  | .object (.record type) _ =>
    match (← get).classMember? type name with
    | some (.hostFunction function) => callFunction function (receiver :: args)
    | _ => Action.refuse .wrongType
  | receiver => Action.ofExcept (callNumber receiver name args)

/-- Calls a value. -/
def call (callee : Value) (args : List Value) : Action Value :=
  match callee with
  | .hostClass type => instantiate type args
  | .hostFunction function => callFunction function args
  | .method receiver name => callMethod receiver name args
  | _ => Action.refuse .wrongType

end Host

/-! ### Texts of values -/

namespace Display

/-- The text of a value: that of its method `toString` where it has one. -/
def text (value : Value) : Action Codes := do
  match value with
  | .null => return codesOfString "null"
  | .bool b => return codesOfString (if b then "true" else "false")
  | .single x => return codesOf (writeSingle x)
  | .double x => return codesOf (Layout.display.write x)
  | .char codes | .str codes => return codes
  | value =>
    match (← get).member? value "toString" with
    | some method =>
      if method.isCallable then
        let result ← Host.call method []
        Action.consult fun store => store.plainText result
      else Action.consult fun store => store.plainText value
    | none => Action.consult fun store => store.plainText value

end Display

end Formulary
