/-
The store: objects with an identity, and what is set on shared things.

A reference is the place of its object. Objects are added at the end and never
taken away, so a reference stays good. The first object is the empty tuple, which
is the same thing wherever it comes from. An action on the store keeps what it
has changed when it fails.
-/

import Formulary.Fault

namespace Formulary

/-- Whether there may be more elements to come from an iteration. -/
inductive Progress where
  | underWay
  | finished
  /-- The container has changed while it was iterated over. -/
  | broken
deriving DecidableEq, Repr

/-- An iteration over the elements of a value. -/
structure Cursor where
  source : Value
  /-- The place behind the element that was passed last. -/
  place : Nat
  /-- How many elements have been passed. -/
  passed : Nat
  /-- How many elements a map or a set had at the start. -/
  size : Nat
  progress : Progress
deriving DecidableEq, Repr

/-- The entries of a map, in the order in which their keys came, and the places
that they take. The place of an entry that is taken away stays empty, and a new
entry takes the next place behind all that have been taken. -/
structure Table where
  pairs : List (Value × Value)
  /-- The places of the entries, in the same order. -/
  places : List Nat
  next : Nat
deriving DecidableEq, Repr

namespace Table

/-- A table without empty places. -/
def ofPairs (pairs : List (Value × Value)) : Table :=
  ⟨pairs, List.range pairs.length, pairs.length⟩

/-- The table without entries. -/
def empty : Table := ofPairs []

/-- The table whose entries have become others, of which at most the last one is
new. -/
def update (table : Table) (pairs : List (Value × Value)) : Table :=
  if pairs.length = table.pairs.length then { table with pairs }
  else ⟨pairs, table.places ++ [table.next], table.next + 1⟩

/-- The table without one of its entries. -/
def erase (table : Table) (index : Nat) : Table :=
  { table with
    pairs := table.pairs.eraseIdx index, places := table.places.eraseIdx index }

/-- The first key at a place or behind it, with its place. -/
def keyFrom? (table : Table) (place : Nat) : Option (Value × Nat) :=
  let keys := (table.pairs.map Prod.fst).zip table.places
  keys.find? fun key => place ≤ key.2

end Table

/-- Objects. -/
inductive Entity where
  /-- A list or a tuple. -/
  | items (values : Array Value)
  /-- A map. -/
  | entries (table : Table)
  | elements (values : List Value)
  /-- The keys of a map, as a view on it. -/
  | keysOf (map : Ref)
  /-- An iterator, with the element that it has looked ahead to. -/
  | iterator (cursor : Cursor) (ahead : Option Value)
  /-- An instance of a class of the host, with its own members. -/
  | record (members : List (String × Value))
  | bare
deriving DecidableEq, Repr

/-- The store. -/
structure Store where
  objects : Array Entity
  /-- The members that have been set on classes, functions, modules, types and
  iterators. -/
  settings : List ((Value × String) × Value)
  /-- The mark of the next result that is no number. -/
  nextMark : Nat
deriving Repr

/-- An action on the store. -/
abbrev Action (α : Type) := ExceptT Fault (StateM Store) α

namespace Store

/-- The store that holds the empty tuple. -/
def initial : Store :=
  ⟨#[.items #[]], [], Double.freshMark + 1⟩

/-- The empty tuple. -/
def emptyTuple : Value := .object .tuple 0

/-- The object at a place. -/
def entity (store : Store) (ref : Ref) : Entity :=
  store.objects.getD ref .bare

/-- The values of a list or a tuple. -/
def items (store : Store) (ref : Ref) : Array Value :=
  match store.entity ref with
  | .items values => values
  | _ => #[]

/-- The table of a map. -/
def table (store : Store) (ref : Ref) : Table :=
  match store.entity ref with
  | .entries table => table
  | _ => .empty

/-- The entries of a map. -/
def entries (store : Store) (ref : Ref) : List (Value × Value) :=
  (store.table ref).pairs

/-- The elements of a set. -/
def elements (store : Store) (ref : Ref) : List Value :=
  match store.entity ref with
  | .elements values => values
  | _ => []

/-- The map that a view shows the keys of. -/
def viewed (store : Store) (ref : Ref) : Ref :=
  match store.entity ref with
  | .keysOf map => map
  | _ => ref

/-- The members of an instance of a class. -/
def members (store : Store) (ref : Ref) : List (String × Value) :=
  match store.entity ref with
  | .record members => members
  | _ => []

/-- Puts an object at a place. -/
def update (store : Store) (ref : Ref) (entity : Entity) : Store :=
  { store with objects := store.objects.setIfInBounds ref entity }

/-- Adds an object at the end. -/
def add (store : Store) (entity : Entity) : Ref × Store :=
  (store.objects.size, { store with objects := store.objects.push entity })

/-- The member that has been set on a shared thing. -/
def setting? (store : Store) (holder : Value) (name : String) : Option Value :=
  store.settings.lookup (holder, name)

/-- Sets a member on a shared thing. -/
def set (store : Store) (holder : Value) (name : String) (value : Value) : Store :=
  { store with settings := ((holder, name), value) :: store.settings }

end Store

namespace Action

/-- Takes a result that does not depend on the store. -/
def ofExcept {α : Type} : Except Fault α → Action α
  | .ok a => pure a
  | .error fault => throw fault

/-- The failure with a cause. -/
def fail {α : Type} (error : EvaluationError) : Action α :=
  throw (.evaluation error)

/-- The failure of a host object. -/
def refuse {α : Type} (fault : HostFault) : Action α :=
  throw (.host fault)

/-- A result that depends on the store only. -/
def read {α : Type} (f : Store → α) : Action α := do
  return f (← get)

/-- A result that depends on the store only, or a failure. -/
def consult {α : Type} (f : Store → Except Fault α) : Action α := do
  ofExcept (f (← get))

/-- Puts an object at a place. -/
def write (ref : Ref) (entity : Entity) : Action Unit :=
  modify fun store => store.update ref entity

/-- A new object. -/
def create (kind : ObjectKind) (entity : Entity) : Action Value := do
  let (ref, store) := (← get).add entity
  set store
  return .object kind ref

/-- A new list. -/
def newList (values : Array Value) : Action Value :=
  create .list (.items values)

/-- A tuple; the empty one is no new object. -/
def newTuple (values : Array Value) : Action Value :=
  if values.isEmpty then pure Store.emptyTuple else create .tuple (.items values)

/-- Gives a result that is no number a mark of its own. -/
def settle (value : Value) : Action Value := do
  let marked (rebuild : Double → Value) : Action Value := do
    let store ← get
    set { store with nextMark := store.nextMark + 1 }
    return rebuild (.nan store.nextMark)
  match value with
  | .double (.nan mark) =>
    if mark = Double.freshMark then marked .double else return value
  | .single (.nan mark) =>
    if mark = Double.freshMark then marked .single else return value
  | _ => return value

/-- A value that does not depend on the store. -/
def ofResult (result : Except Fault Value) : Action Value := do
  settle (← ofExcept result)

end Action

end Formulary
