/-
Decimals that read back.

A decimal reads back as a double if it is less than half a last place away from it. Seventeen
digits are enough for that: they come within one part in 2 · 10 ^ 16 of a number, and half a last
place is more than one part in 2 ^ 54. So the decimal that is chosen for a double reads back, with
whatever number of digits, and no check of the size of its exponent gets in the way.

* `floorLog10_le` — the decimal logarithm is not too great.
* `HasSignificand.rounded_near` — what is near enough to a double is rounded to it.
* `Decimal.rounded_close` — how near a decimal with a number of digits comes.
* `Decimal.shortest_reads` — the decimal chosen for a double reads back as it.
* `Double.ofDecimal_reads` — reading a decimal that reads back.
-/

import Formulary.Number.Decimal
import Formulary.Proofs.RoundingOrder
import Formulary.Proofs.Unboxing

namespace Formulary

/-! ### Decimal logarithms -/

theorem lt_pow_digitCount (n : Nat) : n < 10 ^ digitCount n := by
  rw [digitCount]
  split
  · next zero => rw [zero]; decide
  · exact (Nat.length_toDigits_le_iff (by decide) Nat.length_toDigits_pos).mp le_rfl

theorem digitCount_pos {n : Nat} (nonzero : n ≠ 0) : 0 < digitCount n := by
  rw [digitCount, if_neg nonzero]
  exact Nat.length_toDigits_pos

theorem pow_digitCount_le {n : Nat} (nonzero : n ≠ 0) : 10 ^ (digitCount n - 1) ≤ n := by
  by_contra short
  have positive := digitCount_pos nonzero
  rw [digitCount, if_neg nonzero] at short positive
  by_cases one : (Nat.toDigits 10 n).length = 1
  · rw [one] at short
    omega
  · have fewer := (Nat.length_toDigits_le_iff (by decide) (by omega)).mpr (Nat.not_le.mp short)
    omega

/-- The power of ten with the decimal logarithm of a rational is not above it. -/
theorem floorLog10_le {q : Rat} (positive : 0 < q) : (10 : Rat) ^ floorLog10 q ≤ q := by
  rw [floorLog10]
  split
  · next large =>
    have whole : 0 < q.floor := Rat.le_floor_iff.mpr (by exact_mod_cast large)
    have nonzero : q.floor.toNat ≠ 0 := by omega
    obtain ⟨count, isCount⟩ := Nat.exists_eq_succ_of_ne_zero (digitCount_pos nonzero).ne'
    have power := pow_digitCount_le nonzero
    rw [isCount, Nat.succ_sub_one] at power
    calc (10 : Rat) ^ ((digitCount q.floor.toNat : Int) - 1) = ((10 ^ count : Nat) : Rat) := by
          rw [isCount, Nat.cast_succ, add_sub_cancel_right, zpow_natCast]
          push_cast
          rfl
      _ ≤ (q.floor.toNat : Rat) := by exact_mod_cast power
      _ = (q.floor : Rat) := by
          rw [← Int.cast_natCast, Int.toNat_of_nonneg whole.le]
      _ ≤ q := Rat.floor_le q
  · have above : 0 < q⁻¹.ceil := by
      have inverse : (0 : Rat) < q⁻¹.ceil := (inv_pos.mpr positive).trans_le Rat.le_ceil
      exact_mod_cast inverse
    have power := lt_pow_digitCount (q⁻¹.ceil.toNat - 1)
    generalize digitCount (q⁻¹.ceil.toNat - 1) = count at power ⊢
    have atMost : q⁻¹ ≤ 10 ^ count := calc
      q⁻¹ ≤ (q⁻¹.ceil : Rat) := Rat.le_ceil
      _ = (q⁻¹.ceil.toNat : Rat) := by
        rw [← Int.cast_natCast, Int.toNat_of_nonneg above.le]
      _ ≤ ((10 ^ count : Nat) : Rat) := by
        exact_mod_cast (by omega : q⁻¹.ceil.toNat ≤ 10 ^ count)
      _ = 10 ^ count := by push_cast; rfl
    rw [zpow_neg, zpow_natCast]
    exact inv_le_of_inv_le₀ positive atMost

/-! ### Doubles nearby -/

/-- A finite magnitude is the one nearest to its value. -/
theorem Format.Proper.nearest_magnitude_eq {format : Format} (proper : format.Proper) {index : Nat}
    (finite : index < format.infinity) : format.nearest (format.magnitude index) = index :=
  format.magnitude_strictMono.injective (proper.nearest_magnitude finite).2

namespace HasSignificand

open Format (binary64)

variable {q x : Rat} {m e : Int}

/-- **What is less than half a last place away from a double** is rounded to it. -/
theorem rounded_near (h : HasSignificand q m e) (positive : 0 < x)
    (near : |x - q| < 2 ^ (binary64.lastPlace x - 1)) : binary64.rounded x = q := by
  rw [h.value] at near ⊢
  exact Format.binary64_proper.rounded_near h.short h.deep positive near

/-- What comes within one part in 2 · 10 ^ 16 of a double is less than half a last place away. -/
theorem rounded_close (h : HasSignificand q m e) (positive : 0 < q)
    (close : |x - q| * (2 * 10 ^ 16) ≤ q) : 0 < x ∧ x < Double.overflow ∧
      binary64.rounded x = q := by
  have distance := neg_abs_le (x - q)
  have farther := le_abs_self (x - q)
  have above : 0 < x := by linarith
  have below : x < Double.overflow := by
    have greatest := (le_abs_self q).trans h.abs_le_greatest
    have unit : (2 : Rat) ^ e ≤ 2 ^ 971 := by
      rw [← zpow_natCast]
      exact zpow_le_zpow_right₀ one_le_two h.high
    have half : (2 : Rat) ^ 971 = 2 * 2 ^ 970 := by rw [← pow_succ']
    have bound : (2 : Rat) ^ 1024 = 2 ^ 54 * 2 ^ 970 := by rw [← pow_add]
    rw [Double.overflow, bound]
    rw [half] at unit
    have positive : (0 : Rat) < 2 ^ 970 := by positivity
    generalize (2 : Rat) ^ 970 = top at unit positive ⊢
    generalize (2 : Rat) ^ e = last at unit greatest
    linarith
  -- The last place is at most 52 places behind the first one.
  have place : floorLog2 x + 1 ≤ 54 + (binary64.lastPlace x - 1) := by
    have last : floorLog2 x - (52 : Nat) ≤ binary64.lastPlace x := le_max_right _ _
    omega
  have long : x < 2 ^ 54 * 2 ^ (binary64.lastPlace x - 1) := calc
    x < 2 ^ (floorLog2 x + 1) := lt_floorLog2 above
    _ ≤ 2 ^ (54 + (binary64.lastPlace x - 1)) := zpow_le_zpow_right₀ one_le_two place
    _ = 2 ^ 54 * 2 ^ (binary64.lastPlace x - 1) := by
      rw [zpow_add₀ two_ne_zero]
      rfl
  have near : |x - q| < 2 ^ (binary64.lastPlace x - 1) := by
    generalize (2 : Rat) ^ (binary64.lastPlace x - 1) = half at long ⊢
    linarith
  exact ⟨above, below, h.rounded_near above near⟩

end HasSignificand

/-! ### Decimals -/

namespace Decimal

open Format (binary64)

/-- **A decimal with some digits** comes within half a unit of the last of them. -/
theorem rounded_close {q : Rat} (positive : 0 < q) (more : Nat) :
    |(rounded (more + 1) q).toRat - q| * (2 * 10 ^ more) ≤ q := by
  have logarithm := floorLog10_le positive
  obtain ⟨place, isPlace⟩ : ∃ place, place = floorLog10 q - ((more + 1 : Nat) : Int) + 1 := ⟨_, rfl⟩
  have first : (10 : Rat) ^ floorLog10 q = 10 ^ place * 10 ^ more := by
    rw [← zpow_natCast, ← zpow_add₀ (by norm_num), isPlace]
    congr 1
    push_cast
    ring
  have nonneg : 0 ≤ roundHalfEven (q * (10 : Rat) ^ (-place)) :=
    (Rat.le_floor_iff.mpr (by push_cast; positivity)).trans (floor_le_roundHalfEven _)
  have value : (rounded (more + 1) q).toRat =
      roundHalfEven (q * (10 : Rat) ^ (-place)) * 10 ^ place := by
    rw [rounded, toRat]
    simp only [← isPlace]
    rw [← Int.cast_natCast, Int.toNat_of_nonneg nonneg]
  have near := (roundHalfEven_isNearest (q * (10 : Rat) ^ (-place))).distance_le
  have unit : (0 : Rat) < 10 ^ place := by positivity
  have scaled : (rounded (more + 1) q).toRat - q =
      (roundHalfEven (q * (10 : Rat) ^ (-place)) - q * (10 : Rat) ^ (-place)) * 10 ^ place := by
    rw [value, sub_mul, mul_assoc q, ← zpow_add₀ (by norm_num), Int.add_left_neg, zpow_zero,
      mul_one]
  calc |(rounded (more + 1) q).toRat - q| * (2 * 10 ^ more)
      = |(roundHalfEven (q * (10 : Rat) ^ (-place)) : Rat) - q * (10 : Rat) ^ (-place)| *
          10 ^ place * (2 * 10 ^ more) := by rw [scaled, abs_mul, abs_of_pos unit]
    _ ≤ 1 / 2 * 10 ^ place * (2 * 10 ^ more) := by gcongr
    _ = 10 ^ floorLog10 q := by rw [first]; ring
    _ ≤ q := logarithm

/-- Dropping zeros at the end does not change a decimal. -/
theorem toRat_trimUpTo (fuel : Nat) (d : Decimal) : (trimUpTo fuel d).toRat = d.toRat := by
  induction fuel generalizing d with
  | zero => rfl
  | succ fuel ih =>
    rw [trimUpTo]
    split
    · next zeros =>
      simp only [Bool.and_eq_true, decide_eq_true_eq] at zeros
      obtain ⟨rest, isRest⟩ := Nat.dvd_of_mod_eq_zero zeros.1
      rw [ih, toRat, toRat, isRest, Nat.mul_div_cancel_left rest (by decide),
        zpow_add_one₀ (by norm_num)]
      push_cast
      ring
    · rfl

theorem toRat_trim (d : Decimal) : d.trim.toRat = d.toRat :=
  toRat_trimUpTo _ d

variable {index : Nat}

/-- The value of a magnitude as a significand with an exponent. -/
theorem magnitude_significand (finite : index < binary64.infinity) :
    ∃ m e, HasSignificand (binary64.magnitude index) m e :=
  Double.exists_significand (Double.toRat?_ofIndex false finite)

theorem magnitude_pos (positive : 0 < index) : 0 < binary64.magnitude index := by
  rw [← Format.magnitude_zero binary64]
  exact Format.magnitude_strictMono _ positive

/-- A decimal near enough to a magnitude reads back as it. -/
theorem reads_of_close (positive : 0 < index) (finite : index < binary64.infinity) {d : Decimal}
    (close : |d.toRat - binary64.magnitude index| * (2 * 10 ^ 16) ≤ binary64.magnitude index) :
    binary64.nearest d.toRat = index := by
  obtain ⟨m, e, h⟩ := magnitude_significand finite
  obtain ⟨above, below, rounded⟩ := h.rounded_close (magnitude_pos positive) close
  rw [← Double.binary64_overflow] at below
  have value := Format.binary64_proper.magnitude_nearest_eq above below
  exact (Format.magnitude_strictMono binary64).injective (value.trans rounded)

/-- A neighbour is only taken if it reads back. -/
theorem readableNeighbour_reads {q : Rat} {count : Nat} {d : Decimal}
    (found : readableNeighbour? index q count = some d) : binary64.nearest d.toRat = index := by
  have reads {d : Decimal} (h : d.readsAs index = true) : binary64.nearest d.toRat = index :=
    beq_iff_eq.mp h
  rw [readableNeighbour?] at found
  split at found
  · next low high =>
    split at found
    · cases found
      exact reads high
    · cases found
      exact reads low
  · next low _ =>
    cases found
    exact reads low
  · next _ high =>
    cases found
    exact reads high
  · cases found

/-- **The decimal chosen for a magnitude reads back as it.** -/
theorem shortest_reads (positive : 0 < index) (finite : index < binary64.infinity) :
    binary64.nearest (shortest index).toRat = index := by
  rw [shortest]
  split
  · next d found =>
    obtain ⟨n, -, isFound⟩ := List.exists_of_findSome?_eq_some found
    rw [toRat_trim, readableNeighbour_reads isFound]
  · exact reads_of_close positive finite (rounded_close (magnitude_pos positive) 16)

end Decimal

/-! ### Reading -/

open Format (binary64)

/-- A decimal that is rounded to a magnitude above zero is not zero. -/
theorem Decimal.digits_ne_zero {d : Decimal} (given : binary64.nearest d.toRat ≠ 0) :
    d.digits ≠ 0 := by
  intro zero
  apply given
  rw [Decimal.toRat, zero, Nat.cast_zero, zero_mul, Format.nearest, if_pos rfl]

/-- A positive decimal lies between two powers of ten. -/
theorem Decimal.toRat_between {d : Decimal} (nonzero : d.digits ≠ 0) :
    (10 : Rat) ^ ((digitCount d.digits : Int) + d.exponent - 1) ≤ d.toRat ∧
      d.toRat < 10 ^ ((digitCount d.digits : Int) + d.exponent) := by
  have unit : (0 : Rat) < 10 ^ d.exponent := by positivity
  have positive := digitCount_pos nonzero
  constructor
  · have least : ((10 ^ (digitCount d.digits - 1) : Nat) : Rat) ≤ d.digits := by
      exact_mod_cast pow_digitCount_le nonzero
    have split : (10 : Rat) ^ ((digitCount d.digits : Int) + d.exponent - 1) =
        ((10 ^ (digitCount d.digits - 1) : Nat) : Rat) * 10 ^ d.exponent := by
      push_cast
      rw [← zpow_natCast, ← zpow_add₀ (by norm_num)]
      congr 1
      omega
    rw [split, toRat]
    exact mul_le_mul_of_nonneg_right least unit.le
  · have most : (d.digits : Rat) < ((10 ^ digitCount d.digits : Nat) : Rat) := by
      exact_mod_cast lt_pow_digitCount d.digits
    have split : (10 : Rat) ^ ((digitCount d.digits : Int) + d.exponent) =
        ((10 ^ digitCount d.digits : Nat) : Rat) * 10 ^ d.exponent := by
      push_cast
      rw [← zpow_natCast, ← zpow_add₀ (by norm_num)]
    rw [split, toRat]
    exact mul_lt_mul_of_pos_right most unit

/-- What is rounded to a magnitude above zero is at least half of the least one. -/
theorem le_of_nearest_pos {x : Rat} (positive : 0 < x) (given : binary64.nearest x ≠ 0) :
    (2 : Rat) ^ (-1075 : Int) ≤ x := by
  by_contra tiny
  have small : x < 2 ^ (-1075 : Int) := not_le.mp tiny
  have place : binary64.lastPlace x = -1074 := by
    have logarithm := floorLog2_lt positive small
    rw [Format.lastPlace]
    simp only [Format.binary64]
    omega
  have fraction : x * 2 ^ (1074 : Int) < 1 / 2 := calc
    x * 2 ^ (1074 : Int) < 2 ^ (-1075 : Int) * 2 ^ (1074 : Int) :=
      mul_lt_mul_of_pos_right small (by positivity)
    _ = 1 / 2 := by
      rw [← zpow_add₀ two_ne_zero]
      norm_num
  have nothing : binary64.significand x = 0 := by
    have toZero : IsNearest (x * 2 ^ (1074 : Int)) 0 := by
      left
      rw [Int.cast_zero, zero_sub, abs_neg, abs_of_pos (by positivity)]
      exact fraction
    rw [Format.significand, place]
    exact (roundHalfEven_isNearest _).unique toZero
  apply given
  rw [Format.nearest_eq positive, nothing, place]
  rfl

/-- The powers of two around the doubles lie between the powers of ten that readers go by. -/
theorem two_pow_le : (2 : Rat) ^ (1080 : Int) ≤ 10 ^ (400 : Int) := calc
  (2 : Rat) ^ (1080 : Int) = (2 ^ 135) ^ 8 := by rw [← pow_mul]; rfl
  _ ≤ (10 ^ 50) ^ 8 := pow_le_pow_left₀ (by positivity) (by norm_num) 8
  _ = 10 ^ (400 : Int) := by rw [← pow_mul]; rfl

/-- What is rounded to a finite magnitude above zero has an exponent of moderate size. -/
theorem Decimal.magnitude_between {d : Decimal} (given : binary64.nearest d.toRat ≠ 0)
    (finite : binary64.nearest d.toRat < binary64.infinity) :
    -400 ≤ (digitCount d.digits : Int) + d.exponent ∧
      (digitCount d.digits : Int) + d.exponent ≤ 400 := by
  obtain ⟨lower, upper⟩ := toRat_between (digits_ne_zero given)
  have positive : 0 < d.toRat := lt_of_lt_of_le (by positivity) lower
  generalize (digitCount d.digits : Int) + d.exponent = magnitude at lower upper ⊢
  constructor
  · have atLeast := le_of_nearest_pos positive given
    have ordered : (10 : Rat) ^ (-400 : Int) < 10 ^ magnitude := calc
      (10 : Rat) ^ (-400 : Int) ≤ 2 ^ (-1080 : Int) := by
        rw [zpow_neg, zpow_neg]
        exact inv_anti₀ (by positivity) two_pow_le
      _ ≤ 2 ^ (-1075 : Int) := zpow_le_zpow_right₀ one_le_two (by decide)
      _ ≤ d.toRat := atLeast
      _ < 10 ^ magnitude := upper
    exact ((zpow_lt_zpow_iff_right₀ (by norm_num)).mp ordered).le
  · have below : d.toRat < binary64.overflow := by
      rw [← not_le, ← Format.binary64_proper.nearest_infinite_iff positive]
      exact finite.ne
    have ordered : (10 : Rat) ^ (magnitude - 1) < 10 ^ (400 : Int) := calc
      (10 : Rat) ^ (magnitude - 1) ≤ d.toRat := lower
      _ < binary64.overflow := below
      _ ≤ 2 ^ ((binary64.precision : Int) + binary64.maxExponent) :=
        Format.binary64_proper.overflow_between.2
      _ ≤ 2 ^ (1080 : Int) := zpow_le_zpow_right₀ one_le_two (by decide)
      _ ≤ 10 ^ (400 : Int) := two_pow_le
    have := (zpow_lt_zpow_iff_right₀ (by norm_num)).mp ordered
    omega

/-- **A decimal that reads back** is read as the double, whatever its sign and its digits are: the
bounds on its exponent lie outside of the doubles. -/
theorem Double.ofDecimal_reads (negative : Bool) {d : Decimal} {index : Nat} (positive : 0 < index)
    (finite : index < binary64.infinity) (reads : binary64.nearest d.toRat = index) :
    Double.ofDecimal negative d = ofIndex negative index := by
  have given : binary64.nearest d.toRat ≠ 0 := by
    rw [reads]
    exact positive.ne'
  have nonzero := Decimal.digits_ne_zero given
  obtain ⟨lower, upper⟩ := Decimal.magnitude_between given (by rwa [reads])
  have above : 0 < d.toRat := lt_of_lt_of_le (by positivity) (Decimal.toRat_between nonzero).1
  have small : (decide (d.digits = 0) ||
      decide ((digitCount d.digits : Int) + d.exponent < -400)) = false := by
    simp [nonzero, lower]
  rw [ofDecimal]
  simp only [small, Bool.false_eq_true, if_false, upper.not_gt]
  cases negative with
  | false =>
    simp only [Bool.false_eq_true, if_false]
    rw [ofRat, if_neg above.ne', if_neg above.le.not_gt, reads]
  | true =>
    have below : -d.toRat < 0 := neg_lt_zero.mpr above
    simp only [if_true]
    rw [ofRat, if_neg below.ne, if_pos below, neg_neg, reads]

end Formulary
