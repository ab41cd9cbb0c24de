/-
Iterating over values.

A cursor passes over the elements of a container as they are when their turn
comes: a list may grow or shrink meanwhile, while a map or a set that changes its
size breaks the iteration for good. A map that has more keys to come than it had
at the start fails once and ends then. An iterator is an object with a cursor and
room for one element that it has looked ahead to; iterating over an iterator
takes its elements away.
-/

import Formulary.Store

namespace Formulary

namespace Cursor

/-- How many elements the source of a cursor has. -/
def count (store : Store) : Value → Nat
  | .str codes | .char codes => codes.length
  | .object .list ref | .object .tuple ref => (store.items ref).size
  | .object .map ref => (store.entries ref).length
  | .object .set ref => (store.elements ref).length
  | .object .keys ref => (store.entries (store.viewed ref)).length
  | _ => 0

/-- The first element at a place of a container or behind it, with its place. -/
def element? (store : Store) (place : Nat) : Value → Option (Value × Nat)
  | .str codes | .char codes => codes[place]?.map fun code => (.str [code], place)
  | .object .list ref | .object .tuple ref => (store.items ref)[place]?.map (·, place)
  | .object .map ref => (store.table ref).keyFrom? place
  | .object .set ref => (store.elements ref)[place]?.map (·, place)
  | .object .keys ref => (store.table (store.viewed ref)).keyFrom? place
  | _ => none

/-- Whether an iteration depends on the size that its source had at the start. -/
def isSized : Value → Bool
  | .object .map _ | .object .set _ | .object .keys _ => true
  | _ => false

/-- Whether the elements of a value are the keys of a map. -/
def hasKeys : Value → Bool
  | .object .map _ | .object .keys _ => true
  | _ => false

/-- Whether a value has elements. -/
def isIterable : Value → Bool
  | .str _ | .char _ => true
  | .object kind _ =>
    match kind with
    | .list | .tuple | .map | .set | .keys | .iterator => true
    | .bare | .record _ => false
  | _ => false

/-- The cursor before the first element of a value, if it has elements. -/
def start? (store : Store) (value : Value) : Option Cursor :=
  if isIterable value then some ⟨value, 0, 0, count store value, .underWay⟩ else none

/-- The next element of a container, if there is one, and the cursor behind
it. -/
def step (store : Store) (cursor : Cursor) : Except HostFault (Option Value) × Cursor :=
  match cursor.progress with
  | .finished => (.ok none, cursor)
  | .broken => (.error .changedDuringIteration, cursor)
  | .underWay =>
    if isSized cursor.source && count store cursor.source != cursor.size then
      (.error .changedDuringIteration, { cursor with progress := .broken })
    else
      match element? store cursor.place cursor.source with
      | some (value, place) =>
        if hasKeys cursor.source && cursor.passed == cursor.size then
          (.error .changedDuringIteration, { cursor with progress := .finished })
        else
          (.ok (some value),
            { cursor with place := place + 1, passed := cursor.passed + 1 })
      | none => (.ok none, { cursor with progress := .finished })

end Cursor

namespace Iteration

/-- The element that an iterator yields next, which it looks ahead to if it has
not done so yet. An iterator over an iterator takes the element from there. Such
an iterator is younger than the one that it is over, so that fuel beyond its
reference is enough for every chain of them. -/
def lookAhead : (fuel : Nat) → Ref → Action (Option Value)
  | 0, _ => pure none
  | fuel + 1, ref => do
    match (← get).entity ref with
    | .iterator _ (some value) => return some value
    | .iterator cursor none =>
      match cursor.source with
      | .object .iterator inner =>
        if inner < ref then
          let value ← lookAhead fuel inner
          match (← get).entity inner with
          | .iterator innerCursor _ => Action.write inner (.iterator innerCursor none)
          | _ => pure ()
          Action.write ref (.iterator cursor value)
          return value
        else return none
      | _ =>
        let (result, after) := cursor.step (← get)
        match result with
        | .error fault =>
          Action.write ref (.iterator after none)
          Action.refuse fault
        | .ok value =>
          Action.write ref (.iterator after value)
          return value
    | _ => return none

/-- Whether an iterator has a next element. -/
def hasNext (ref : Ref) : Action Bool := do
  return (← lookAhead (ref + 1) ref).isSome

/-- Takes the next element of an iterator away. -/
def take? (ref : Ref) : Action (Option Value) := do
  let value ← lookAhead (ref + 1) ref
  match (← get).entity ref with
  | .iterator cursor _ => Action.write ref (.iterator cursor none)
  | _ => pure ()
  return value

/-- A new iterator over a value with elements. -/
def newIterator (cursor : Cursor) : Action Value :=
  Action.create .iterator (.iterator cursor none)

/-- The next element of an iteration, if there is one, and the cursor behind
it. -/
def next (cursor : Cursor) : Action (Option Value × Cursor) := do
  match cursor.source with
  | .object .iterator ref => return (← take? ref, cursor)
  | _ =>
    let (result, after) := cursor.step (← get)
    match result with
    | .ok value => return (value, after)
    | .error fault => Action.refuse fault

/-- All elements that an iteration still yields, at most `fuel` of them. -/
def rest : (fuel : Nat) → Cursor → Action (List Value)
  | 0, _ => pure []
  | fuel + 1, cursor => do
    match ← next cursor with
    | (none, _) => return []
    | (some value, after) => return value :: (← rest fuel after)

/-- How many elements a chain of iterators yields at most: those of the container
at which it ends, and one that each iterator holds. -/
def chainLength (store : Store) : (fuel : Nat) → Ref → Nat
  | 0, _ => 0
  | fuel + 1, ref =>
    match store.entity ref with
    | .iterator cursor _ =>
      match cursor.source with
      | .object .iterator inner =>
        if inner < ref then chainLength store fuel inner + 1 else 0
      | source => Cursor.count store source + 1
    | _ => 0

/-- How many elements an iteration over a value yields at most. -/
def length (store : Store) : Value → Nat
  | .object .iterator ref => chainLength store (ref + 1) ref
  | value => Cursor.count store value

/-- All elements of a value; a wrong type where it has none. -/
def all (value : Value) : Action (List Value) := do
  let store ← get
  match Cursor.start? store value with
  | none => Action.refuse .wrongType
  | some cursor => rest (length store value + 1) cursor

end Iteration

end Formulary
