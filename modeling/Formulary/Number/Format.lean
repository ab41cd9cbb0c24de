/-
Binary floating-point formats.

The magnitudes of a format are numbered in increasing order from zero; the
number after the largest one stands for infinity. `Format.magnitude` is the
exact value of a number in this order and `Format.nearest` the number of the
magnitude nearest to a rational, a tie going to the even number. Where the
magnitudes end, `nearest` answers infinity.
-/

namespace Formulary

/-- A binary format: how many bits a significand has, the exponent of the unit
of the smallest magnitudes, and how many runs of `2 ^ (precision - 1)` magnitudes
lie below infinity. -/
structure Format where
  precision : Nat
  minExponent : Int
  runs : Nat
deriving DecidableEq, Repr

namespace Format

/-- Double precision. -/
def binary64 : Format := ⟨53, -1074, 2047⟩

/-- Single precision. -/
def binary32 : Format := ⟨24, -149, 255⟩

/-- How many magnitudes share an exponent. -/
def runLength (format : Format) : Nat :=
  1 <<< (format.precision - 1)

/-- The number that stands for infinity. -/
def infinity (format : Format) : Nat :=
  format.runs * format.runLength

/-- Significand and exponent of a magnitude. The first two runs share the
smallest exponent. -/
def decode (format : Format) (index : Nat) : Nat × Int :=
  if index < format.runLength then (index, format.minExponent)
  else
    (format.runLength + index % format.runLength,
      format.minExponent + (index / format.runLength - 1 : Nat))

/-- The exact value of a magnitude. -/
def magnitude (format : Format) (index : Nat) : Rat :=
  let (significand, exponent) := format.decode index
  (significand : Rat) * (2 : Rat) ^ exponent

end Format

/-- The greatest `k` with `2 ^ k ≤ q`, for a positive `q`. -/
def floorLog2 (q : Rat) : Int :=
  let guess : Int := (q.num.toNat.log2 : Int) - (q.den.log2 : Int)
  if (2 : Rat) ^ guess ≤ q then guess else guess - 1

/-- The integer nearest to `q`, a tie going to the even one. -/
def roundHalfEven (q : Rat) : Int :=
  let low := q.floor
  let twice := 2 * (q - low)
  if twice < 1 then low
  else if 1 < twice then low + 1
  else if low % 2 = 0 then low else low + 1

/-- The number of the magnitude nearest to a rational that is not negative. -/
def Format.nearest (format : Format) (q : Rat) : Nat :=
  if q = 0 then 0
  else
    let exponent :=
      max format.minExponent (floorLog2 q - (format.precision - 1 : Nat))
    let significand := (roundHalfEven (q * (2 : Rat) ^ (-exponent))).toNat
    min format.infinity
      ((exponent - format.minExponent).toNat * format.runLength + significand)

end Formulary
