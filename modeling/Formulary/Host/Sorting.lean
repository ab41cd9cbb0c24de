/-
Sorting a list in place.

The run that the list begins with is found first, and turned round if it falls.
Then one value after the other is put into its place among those before it, found
by halving. Equal values keep their order. Where two values do not compare, the
list stays as it is at that moment.
-/

import Formulary.Value.Equality

namespace Formulary.Sorting

variable {ε : Type} (before : Value → Value → Except ε Bool)

/-- The length of the run that goes on behind `last`: as long as each value does,
or does not, come before the one in front of it. -/
def runLength (falling : Bool) (last : Value) : List Value → Except ε Nat
  | [] => .ok 0
  | value :: rest => do
    if (← before value last) == falling then
      return (← runLength falling value rest) + 1
    else return 0

/-- The length of the run at the start of a list, and whether it falls. -/
def firstRun : List Value → Except ε (Nat × Bool)
  | first :: second :: rest => do
    let falling ← before second first
    return ((← runLength before falling second rest) + 2, falling)
  | values => .ok (values.length, false)

/-- The place of a value among sorted values from `low` to `high`: behind those
that it does not come before. -/
def placeAmong (sorted : Array Value) (value : Value) :
    (fuel : Nat) → (low high : Nat) → Except ε Nat
  | 0, low, _ => .ok low
  | fuel + 1, low, high =>
    if low < high then do
      let middle := low + (high - low) / 2
      if ← before value (sorted.getD middle .null) then
        placeAmong sorted value fuel low middle
      else placeAmong sorted value fuel (middle + 1) high
    else .ok low

/-- Puts the values of a list into their places among sorted ones. -/
def insertAll (sorted : Array Value) : List Value → Array Value × Option ε
  | [] => (sorted, none)
  | value :: rest =>
    match placeAmong before sorted value sorted.size 0 sorted.size with
    | .error fault => (sorted ++ (value :: rest).toArray, some fault)
    | .ok place => insertAll (sorted.insertIdxIfInBounds place value) rest

/-- The sorted values, or the values as they are where two do not compare. -/
def sort (values : List Value) : Array Value × Option ε :=
  match firstRun before values with
  | .error fault => (values.toArray, some fault)
  | .ok (length, falling) =>
    let run := values.take length
    insertAll before (if falling then run.reverse else run).toArray (values.drop length)

end Formulary.Sorting
