/-
Equality and order of values, as containers use them.

Numbers and truth values are equal by their exact values, texts by their code
points, containers by their contents and points by their coordinates; everything
else equals itself only. Inside a container the very same thing always counts as
equal. `sameValue` is the equality of the operator `==`, which looks into no
container, and `equals` the one of the method, which keeps truth values apart
from numbers.

Containers may hold themselves, so the functions that look into them take an
amount of fuel, which bounds the nesting.
-/

import Formulary.Number.Numeral
import Formulary.Store

namespace Formulary

/-- How deep containers may be nested to be compared, hashed or written. -/
def nestingLimit : Nat := 1000

namespace Value

/-! ### Numbers -/

/-- The exact value of a finite number or a truth value. -/
def exactValue? : Value → Option Rat
  | .bool b => some (if b then 1 else 0)
  | .int i | .long i => some i
  | .double x | .single x => x.toRat?
  | .fraction q => some q
  | _ => none

/-- The infinite or missing number behind a value without an exact value. -/
def extreme? : Value → Option Double
  | .double x | .single x => some x
  | _ => none

/-- How two quantities compare, if they do. -/
def compareQuantities? (a b : Value) : Option Ordering :=
  match a.exactValue?, b.exactValue? with
  | some x, some y => some (if x < y then .lt else if y < x then .gt else .eq)
  | some _, none => (b.extreme?.bind fun y => (Double.zero false).compare? y)
  | none, some _ => (a.extreme?.bind fun x => x.compare? (.zero false))
  | none, none =>
    match a.extreme?, b.extreme? with
    | some x, some y => x.compare? y
    | _, _ => none

end Value

namespace Store

/-! ### Equality -/

/-- Whether two lists agree element by element. -/
def agree (same : Value → Value → Except Fault Bool) :
    List Value → List Value → Except Fault Bool
  | [], [] => .ok true
  | a :: as, b :: bs => do if ← same a b then agree same as bs else return false
  | _, _ => .ok false

/-- Whether a list has an element that is the same as a value. -/
def holds (same : Value → Value → Except Fault Bool) (value : Value) :
    List Value → Except Fault Bool
  | [] => .ok false
  | element :: rest => do
    if ← same element value then return true else holds same value rest

/-- The value under a key. -/
def valueAt? (same : Value → Value → Except Fault Bool) (key : Value) :
    List (Value × Value) → Except Fault (Option Value)
  | [] => .ok none
  | (other, value) :: rest => do
    if ← same other key then return some value else valueAt? same key rest

/-- Whether every element of a list is in another one. -/
def within (same : Value → Value → Except Fault Bool) (others : List Value) :
    List Value → Except Fault Bool
  | [] => .ok true
  | element :: rest => do
    if ← holds same element others then within same others rest else return false

/-- Whether every entry of a map is in another one. -/
def entriesWithin (same : Value → Value → Except Fault Bool)
    (others : List (Value × Value)) : List (Value × Value) → Except Fault Bool
  | [] => .ok true
  | (key, value) :: rest => do
    match ← valueAt? same key others with
    | none => return false
    | some other =>
      if ← same value other then entriesWithin same others rest else return false

/-- The elements of a set, or the keys that a view shows. -/
def elementsOfView (store : Store) (kind : ObjectKind) (ref : Ref) : List Value :=
  match kind with
  | .keys => (store.entries (store.viewed ref)).map Prod.fst
  | _ => store.elements ref

/-- The coordinates of a point. -/
def coordinates (store : Store) (ref : Ref) : List Value :=
  let members := store.members ref
  [(members.lookup "x").getD .null, (members.lookup "y").getD .null]

/-- Whether two kinds are those of sets or views of keys. -/
def areSets : ObjectKind → ObjectKind → Bool
  | .set, .set | .set, .keys | .keys, .set | .keys, .keys => true
  | _, _ => false

/-- Equality of contents. -/
def equalUpTo : (fuel : Nat) → Store → Value → Value → Except Fault Bool
  | 0, _, _, _ => .error (.host .endlessNesting)
  | fuel + 1, store, a, b =>
    let same (x y : Value) : Except Fault Bool :=
      if x = y then .ok true else equalUpTo fuel store x y
    if a.isQuantity && b.isQuantity then .ok (Value.compareQuantities? a b == some .eq)
    else
      match a.text?, b.text? with
      | some s, some t => .ok (s == t)
      | _, _ =>
        match a, b with
        | .object kind r, .object kind' s =>
          if kind = kind' && r = s then .ok true
          else if areSets kind kind' then do
            let left := store.elementsOfView kind r
            let right := store.elementsOfView kind' s
            if left.length = right.length then within same right left else return false
          else
            match kind, kind' with
            | .list, .list | .tuple, .tuple =>
              agree same (store.items r).toList (store.items s).toList
            | .map, .map =>
              let left := store.entries r
              let right := store.entries s
              if left.length = right.length then entriesWithin same right left
              else .ok false
            | .record .point, .record .point =>
              agree same (store.coordinates r) (store.coordinates s)
            | _, _ => .ok false
        | _, _ => .ok (a = b)

/-- Whether two values are equal. -/
def equal (store : Store) (a b : Value) : Except Fault Bool :=
  equalUpTo nestingLimit store a b

/-- Whether two elements of containers count as the same: the very same thing, or
equal. -/
def same (store : Store) (a b : Value) : Except Fault Bool :=
  if a = b then .ok true else store.equal a b

/-! ### Order -/

/-- The order of two texts by their code points. -/
def textBefore : Codes → Codes → Bool
  | [], [] => false
  | [], _ :: _ => true
  | _ :: _, [] => false
  | a :: as, b :: bs => if a = b then textBefore as bs else a < b

/-- The first place where two lists differ; nothing where one is the beginning of
the other. -/
def difference? (same : Value → Value → Except Fault Bool) :
    List Value → List Value → Except Fault (Option (Value × Value))
  | a :: as, b :: bs => do
    if ← same a b then difference? same as bs else return some (a, b)
  | _, _ => .ok none

/-- Whether a value comes before another one: numbers by size, texts by code
points, lists and tuples by their first difference, sets by inclusion. Other
values do not compare. -/
def beforeUpTo : (fuel : Nat) → Store → Value → Value → Except Fault Bool
  | 0, _, _, _ => .error (.host .endlessNesting)
  | fuel + 1, store, a, b =>
    if a.isQuantity && b.isQuantity then .ok (Value.compareQuantities? a b == some .lt)
    else
      match a.text?, b.text? with
      | some s, some t => .ok (textBefore s t)
      | _, _ =>
        match a, b with
        | .object kind r, .object kind' s =>
          if areSets kind kind' then do
            let left := store.elementsOfView kind r
            let right := store.elementsOfView kind' s
            if left.length < right.length then within store.same right left
            else return false
          else
            match kind, kind' with
            | .list, .list | .tuple, .tuple => do
              let left := (store.items r).toList
              let right := (store.items s).toList
              match ← difference? store.same left right with
              | some (x, y) => beforeUpTo fuel store x y
              | none => return left.length < right.length
            | _, _ => .error .wrongType
        | _, _ => .error .wrongType

/-- Whether a value comes before another one. -/
def before (store : Store) (a b : Value) : Except Fault Bool :=
  beforeUpTo nestingLimit store a b

/-! ### The two equalities of the body language -/

/-- The equality of the operator: numbers, truth values and texts by value,
everything else by identity. -/
def sameValue (a b : Value) : Except Fault Bool :=
  match a, b with
  | .null, _ | _, .null => .ok (a = b)
  | .bool x, .bool y => .ok (x == y)
  | .bool _, _ | _, .bool _ => .ok false
  | _, _ =>
    if a.isNumeric && b.isNumeric then do
      let x ← Number.ofValue a
      let y ← Number.ofValue b
      return x.compare? y == some .eq
    else
      match a.text?, b.text? with
      | some s, some t => .ok (s == t)
      | _, _ => .ok (a = b)

/-- The equality of the method: by value, truth values apart from numbers. -/
def equals (store : Store) (a b : Value) : Except Fault Bool :=
  match a, b with
  | .bool x, .bool y => .ok (x == y)
  | .bool _, _ | _, .bool _ => .ok false
  | _, _ => store.equal a b

end Store

end Formulary
