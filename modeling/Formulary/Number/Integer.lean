/-
Integers: their width and their decimal text.

An integer of a given width is the one in the signed range of that many bits that
agrees with a given integer in the bits kept.
-/

namespace Formulary

/-- The integer of `bits` bits that agrees with `i` in all of them. -/
def wrap (i : Int) (bits : Nat) : Int :=
  Int.bmod i (1 <<< bits)

/-- Whether an integer lies in the range of 32 bits. -/
def fitsInt (i : Int) : Bool :=
  -0x80000000 ≤ i && i < 0x80000000

/-- Combines two integers bit by bit. -/
def bitwise (f : Nat → Nat → Nat) (bits : Nat) (a b : Int) : Int :=
  let modulus : Nat := 1 <<< bits
  wrap (f (a % modulus).toNat (b % modulus).toNat) bits

/-- The nearest integer of `bits` bits. -/
def clamp (i : Int) (bits : Nat) : Int :=
  let bound : Nat := 1 <<< (bits - 1)
  max (-bound) (min (bound - 1) i)

/-- The decimal text of an integer. -/
def intChars (i : Int) : List Char :=
  if i < 0 then '-' :: Nat.toDigits 10 i.natAbs else Nat.toDigits 10 i.natAbs

/-- The decimal text of a natural number. -/
def natChars (n : Nat) : List Char :=
  Nat.toDigits 10 n

/-- How many decimal digits an integer may have to be read or written. -/
def maxDigits : Nat := 4300

/-- Whether an integer is too long to be written. -/
def isTooLong (i : Int) : Bool :=
  Nat.pow 10 maxDigits ≤ i.natAbs

end Formulary
