/-
The methods of lists, tuples, maps and sets.

Keys of maps and elements of sets need a hash code; one that has none is refused
before anything else is looked at.
-/

import Formulary.Host.Argument
import Formulary.Host.Iteration
import Formulary.Host.Sorting
import Formulary.Text.Search
import Formulary.Value.Hash

namespace Formulary

/-! ### Maps and sets -/

namespace Mapping

/-- The value under a key of a map, if there is one. -/
def find? (ref : Ref) (key : Value) : Action (Option Value) := do
  Action.consult fun store => store.checkKey key
  Action.consult fun store => Store.valueAt? store.same key (store.entries ref)

/-- Puts a value under a key. The key that is there stays. -/
def assigned (same : Value → Value → Except Fault Bool) (key value : Value) :
    List (Value × Value) → Except Fault (List (Value × Value))
  | [] => .ok [(key, value)]
  | (other, old) :: rest => do
    if ← same other key then return (other, value) :: rest
    else return (other, old) :: (← assigned same key value rest)

/-- How many entries stand before the one under a key, if there is one. -/
def index? (same : Value → Value → Except Fault Bool) (key : Value) :
    List (Value × Value) → Except Fault (Option Nat)
  | [] => .ok none
  | (other, _) :: rest => do
    if ← same other key then return some 0
    else return (← index? same key rest).map (· + 1)

/-- Puts a value under a key of a map. -/
def put (ref : Ref) (key value : Value) : Action Unit := do
  Action.consult fun store => store.checkKey key
  let pairs ← Action.consult fun store =>
    assigned store.same key value (store.entries ref)
  Action.write ref (.entries (((← get).table ref).update pairs))

/-- Takes the entry under a key away; the value that was there. -/
def pop? (ref : Ref) (key : Value) : Action (Option Value) := do
  let table := (← get).table ref
  if table.pairs.isEmpty then return none
  else
    let value ← find? ref key
    match ← Action.consult fun store => index? store.same key table.pairs with
    | some index => Action.write ref (.entries (table.erase index))
    | none => pure ()
    return value

/-- The result of a method of a map. -/
def call (ref : Ref) (name : String) (args : List Value) : Action Value := do
  match name, args with
  | "get", [key] => return (← find? ref key).getD .null
  | "get", [key, otherwise] => return (← find? ref key).getD otherwise
  | "pop", [key] =>
    match ← pop? ref key with
    | some value => return value
    | none => Action.refuse .missingKey
  | "pop", [key, otherwise] => return (← pop? ref key).getD otherwise
  | "clear", [] =>
    Action.write ref (.entries .empty)
    return .null
  | "keys", [] => Action.create .keys (.keysOf ref)
  | _, _ => Action.refuse .wrongType

end Mapping

namespace SetOf

/-- Whether an element is in a list of elements. -/
def contains (ref : Ref) (element : Value) : Action Bool := do
  Action.consult fun store => store.checkKey element
  Action.consult fun store => Store.holds store.same element (store.elements ref)

/-- Whether an element is in a set. A set is no element, but it may be asked
for. -/
def asks (ref : Ref) (element : Value) : Action Bool :=
  match element with
  | .object .set _ => pure false
  | element => contains ref element

/-- Adds an element that is not there yet. -/
def add (ref : Ref) (element : Value) : Action Unit := do
  if !(← contains ref element) then
    let elements := (← get).elements ref
    Action.write ref (.elements (elements ++ [element]))

/-- The elements without one. -/
def without (same : Value → Value → Except Fault Bool) (element : Value) :
    List Value → Except Fault (List Value)
  | [] => .ok []
  | other :: rest => do
    if ← same other element then return rest
    else return other :: (← without same element rest)

/-- Takes an element away, and whether it was there. -/
def discard (ref : Ref) (element : Value) : Action Bool := do
  if ← asks ref element then
    let elements ← Action.consult fun store =>
      without store.same element (store.elements ref)
    Action.write ref (.elements elements)
    return true
  else return false

/-- The result of a method of a set. -/
def call (ref : Ref) (name : String) (args : List Value) : Action Value := do
  match name, args with
  | "add", [element] =>
    add ref element
    return .null
  | "discard", [element] =>
    let _ ← discard ref element
    return .null
  | "remove", [element] =>
    if ← discard ref element then return .null else Action.refuse .missingKey
  | _, _ => Action.refuse .wrongType

end SetOf

/-! ### Lists and tuples -/

namespace Sequence

/-- The place of the first element that is the same as a value. -/
def place? (same : Value → Value → Except Fault Bool) (value : Value) :
    List Value → Except Fault (Option Nat)
  | [] => .ok none
  | element :: rest => do
    if ← same element value then return some 0
    else return (← place? same value rest).map (· + 1)

/-- How many elements are the same as a value. -/
def occurrences (same : Value → Value → Except Fault Bool) (value : Value) :
    List Value → Except Fault Nat
  | [] => .ok 0
  | element :: rest => do
    let here ← same element value
    return (← occurrences same value rest) + (if here then 1 else 0)

/-- The place of a value in a stretch of a list. -/
def index (ref : Ref) (value : Value) (bounds : List Value) : Action Value := do
  let values := ((← get).items ref).toList
  let (start, stop) ← Action.ofExcept <|
    match bounds with
    | [] => .ok (0, (values.length : Int))
    | [start] => do return (← Argument.integer start, (values.length : Int))
    | [start, stop] => do return (← Argument.integer start, ← Argument.integer stop)
    | _ => .error .wrongType
  let first := Text.Search.placeIn values.length start
  let last := Text.Search.placeIn values.length stop
  let found ← Action.consult fun store =>
    place? store.same value ((values.drop first).take (last - first))
  match found with
  | some place => return .int ((first + place : Nat) : Int)
  | none => Action.refuse .wrongValue

/-- Takes the element at a place away, counted from the end if it is negative. -/
def pop (ref : Ref) (place : Int) : Action Value := do
  let values := (← get).items ref
  let place := if place < 0 then place + values.size else place
  match values[place.toNat]? with
  | some value =>
    if place < 0 then Action.refuse .missingIndex
    else
      Action.write ref (.items (values.eraseIdxIfInBounds place.toNat))
      return value
  | none => Action.refuse .missingIndex

/-- Takes the first element that is the same as a value away. -/
def remove (ref : Ref) (value : Value) : Action Unit := do
  let values := (← get).items ref
  match ← Action.consult fun store => place? store.same value values.toList with
  | some place => Action.write ref (.items (values.eraseIdxIfInBounds place))
  | none => Action.refuse .wrongValue

/-- The result of a method of a list. -/
def call (ref : Ref) (name : String) (args : List Value) : Action Value := do
  let values := (← get).items ref
  match name, args with
  | "append", [value] =>
    Action.write ref (.items (values.push value))
    return .null
  | "clear", [] =>
    Action.write ref (.items #[])
    return .null
  | "count", [value] =>
    return .int (← Action.consult fun store =>
      occurrences store.same value values.toList)
  | "extend", [source] =>
    let more ← Iteration.all source
    Action.write ref (.items (((← get).items ref) ++ more.toArray))
    return .null
  | "index", value :: bounds => index ref value bounds
  | "insert", [place, value] =>
    let place := Text.Search.placeIn values.size
      (← Action.ofExcept (Argument.machineInteger place))
    Action.write ref (.items (values.insertIdxIfInBounds (min place values.size) value))
    return .null
  | "pop", [] => pop ref (-1)
  | "pop", [place] => pop ref (← Action.ofExcept (Argument.machineInteger place))
  | "remove", [value] =>
    remove ref value
    return .null
  | "reverse", [] =>
    Action.write ref (.items values.reverse)
    return .null
  | "sort", [] =>
    let store ← get
    let (sorted, fault) := Sorting.sort store.before values.toList
    Action.write ref (.items sorted)
    match fault with
    | none => return .null
    | some fault => throw fault
  | _, _ => Action.refuse .wrongType

end Sequence

end Formulary
