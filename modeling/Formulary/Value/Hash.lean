/-
Hash codes.

The hash code of a number is its exact value modulo the prime 2^61 - 1, so that
equal numbers have equal codes whatever their kinds; a code never is -1. A tuple
mixes the codes of its elements. What can change its contents has no hash code,
and can therefore be neither a key nor an element of a set.
-/

import Formulary.Value.Equality

namespace Formulary

namespace Hash

/-- The modulus of the hash codes of numbers. -/
def modulus : Nat := (1 <<< 61) - 1

/-- A power modulo the modulus, worked out over the bits of the exponent. -/
def powMod (base : Nat) : (bits : Nat) → (exponent : Nat) → Nat
  | 0, _ => 1
  | bits + 1, exponent =>
    let half := powMod base bits (exponent / 2)
    let square := half * half % modulus
    if exponent % 2 = 1 then square * base % modulus else square

/-- The inverse modulo the modulus. -/
def inverse (n : Nat) : Nat :=
  powMod (n % modulus) 61 (modulus - 2)

/-- A code that is not -1. -/
def avoidMinusOne (code : Int) : Int :=
  if code = -1 then -2 else code

/-- The hash code of infinity. -/
def ofInfinity : Int := 314159

/-- The hash code of an exact number. -/
def ofRat (q : Rat) : Int :=
  let magnitude : Int :=
    if q.den % modulus = 0 then ofInfinity
    else ((q.num.natAbs % modulus * inverse q.den % modulus : Nat) : Int)
  avoidMinusOne (if q < 0 then -magnitude else magnitude)

/-- The hash code of a double; that of one that is no number is not fixed. -/
def ofDouble (x : Double) : Int :=
  match x.toRat? with
  | some q => ofRat q
  | none =>
    if x.isNaN then 0 else if x.isNegative then -ofInfinity else ofInfinity

/-- The modulus of the words that a tuple's code is mixed from. -/
def wordModulus : Nat := 1 <<< 64

/-- Mixes the code of an element into that of a tuple. -/
def mix (accumulated : Nat) (code : Int) : Nat :=
  let lane := (code % wordModulus).toNat
  let sum := (accumulated + lane * 14029467366897019727) % wordModulus
  let rotated := ((sum <<< 31) + (sum >>> 33)) % wordModulus
  rotated * 11400714785074694791 % wordModulus

/-- The hash code of a tuple from those of its elements. -/
def ofCodes (codes : List Int) : Int :=
  let start : Nat := 2870177450012600261
  let mixed : Nat := codes.foldl mix start
  let final : Nat := (mixed + (Nat.xor codes.length (Nat.xor start 3527539))) % wordModulus
  if final = wordModulus - 1 then 1546275796 else wrap (final : Int) 64

end Hash

namespace Store

/-- The codes of the elements of a tuple. -/
def codesOfAll (code : Value → Except Fault Int) :
    List Value → Except Fault (List Int)
  | [] => .ok []
  | value :: rest => do return (← code value) :: (← codesOfAll code rest)

/-- The hash code of a value. Those of texts and of objects that have an identity
only are not fixed. -/
def hashUpTo : (fuel : Nat) → Store → Value → Except Fault Int
  | 0, _, _ => .error (.host .endlessNesting)
  | fuel + 1, store, value =>
    match value with
    | .bool b => .ok (if b then 1 else 0)
    | .int i | .long i => .ok (Hash.ofRat i)
    | .double x | .single x => .ok (Hash.ofDouble x)
    | .fraction q => .ok (Hash.ofRat q)
    | .object .tuple ref => do
      return Hash.ofCodes (← codesOfAll (hashUpTo fuel store) (store.items ref).toList)
    | .object .list _ | .object .map _ | .object .set _ | .object .keys _
    | .object (.record .point) _ => .error .wrongType
    | _ => .ok 0

/-- The hash code of a value. -/
def hash (store : Store) (value : Value) : Except Fault Int :=
  hashUpTo nestingLimit store value

/-- Fails for a value that can be no key. -/
def checkKey (store : Store) (key : Value) : Except Fault Unit := do
  let _ ← store.hash key

end Store

end Formulary
