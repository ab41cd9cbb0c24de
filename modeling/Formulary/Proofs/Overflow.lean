/-
Numbers that are too large for a format.

The greatest magnitude of a format has all bits of its significand set. A number is rounded to
infinity from half a last place above it on: there the tie goes to the even significand, which has
one more bit.

* `le_roundHalfEven_iff` — what is rounded to an even number or to more.
* `Format.Proper.nearest_infinite_iff` — the bound of a format.
* `Double.isFinite_ofRat_iff` — the bound of double precision.
-/

import Formulary.Proofs.Rounding

namespace Formulary

/-! ### Halves -/

theorem floor_le_roundHalfEven (q : Rat) : q.floor ≤ roundHalfEven q := by
  rw [roundHalfEven]
  split
  · exact le_refl _
  · split
    · omega
    · split <;> omega

theorem roundHalfEven_le (q : Rat) : roundHalfEven q ≤ q.floor + 1 := by
  rw [roundHalfEven]
  split
  · omega
  · split
    · exact le_refl _
    · split <;> omega

/-- An integer is not above another one if it is less than one above it. -/
theorem le_of_cast_lt {m n : Int} (below : (n : Rat) < m + 1) : n ≤ m :=
  Int.lt_add_one_iff.mp (by exact_mod_cast below)

/-- An even number is reached by rounding from a half below it on. -/
theorem le_roundHalfEven_iff {n : Int} (even : n % 2 = 0) (q : Rat) :
    n ≤ roundHalfEven q ↔ (n : Rat) - 1 / 2 ≤ q := by
  have lower := Rat.floor_le q
  have upper := Int.lt_floor_add_one q
  rw [roundHalfEven]
  change _ < ((q.floor : Int) : Rat) + 1 at upper
  generalize q.floor = low at lower upper ⊢
  split
  · next down =>
    constructor
    · intro reached
      have reached : (n : Rat) ≤ low := by exact_mod_cast reached
      linarith
    · intro near
      exact le_of_cast_lt (by linarith)
  · split
    · next up =>
      constructor
      · intro reached
        have reached : (n : Rat) ≤ low + 1 := by exact_mod_cast reached
        linarith
      · intro near
        exact le_of_cast_lt (by push_cast; linarith)
    · -- Half way between two integers the even one is taken, and `n` is even itself.
      have tie : q = low + 1 / 2 := by linarith
      have half : (n : Rat) - 1 / 2 ≤ q ↔ (n : Rat) ≤ ((low + 1 : Int) : Rat) := by
        rw [tie]
        push_cast
        constructor <;> intro h <;> linarith
      rw [half, Int.cast_le]
      split <;> omega

namespace Format

variable {format : Format} {q : Rat}

/-! ### Significands -/

/-- How many last places a rational has, rounded. -/
def significand (format : Format) (q : Rat) : Int :=
  roundHalfEven (q * 2 ^ (-format.lastPlace q))

theorem nearest_eq (positive : 0 < q) : format.nearest q = min format.infinity
    ((format.lastPlace q - format.minExponent).toNat * format.runLength +
      (format.significand q).toNat) := by
  rw [nearest, if_neg positive.ne']
  rfl

/-- A rational has no more than the bits of a significand before its last place. -/
theorem Proper.lt_lastPlace (proper : format.Proper) (positive : 0 < q) :
    q < 2 ^ (format.precision + format.lastPlace q) := by
  have wide := proper.wide
  exact (lt_floorLog2 positive).trans_le
    (zpow_le_zpow_right₀ one_lt_two.le (by rw [lastPlace]; omega))

/-- Rounding may carry into one more bit. -/
theorem Proper.significand_le (proper : format.Proper) (positive : 0 < q) :
    (format.significand q).toNat ≤ 2 * format.runLength := by
  have short : q * 2 ^ (-format.lastPlace q) < ((2 ^ format.precision : Nat) : Int) := by
    have below := proper.lt_lastPlace positive
    rw [zpow_add₀ two_ne_zero, zpow_natCast] at below
    rw [zpow_neg, ← div_eq_mul_inv, div_lt_iff₀ (by positivity)]
    push_cast
    exact below
  rw [significand, proper.two_runs]
  generalize 2 ^ format.precision = bound at short ⊢
  have floor := Rat.floor_lt_iff.mpr short
  have rounded := roundHalfEven_le (q * 2 ^ (-format.lastPlace q))
  omega

/-- Above the lowest last place a rational has all the bits of a significand. -/
theorem normal_le (positive : 0 < q) (normal : format.minExponent < format.lastPlace q) :
    (2 : Rat) ^ ((format.precision - 1 : Nat) + format.lastPlace q) ≤ q := by
  have logarithm : (format.precision - 1 : Nat) + format.lastPlace q = floorLog2 q := by
    rw [lastPlace] at normal ⊢
    omega
  rw [logarithm]
  exact floorLog2_le positive

theorem full_significand (positive : 0 < q) (normal : format.minExponent < format.lastPlace q) :
    format.runLength ≤ (format.significand q).toNat := by
  have long := normal_le positive normal
  have enough : (format.runLength : Int) ≤ (q * 2 ^ (-format.lastPlace q)).floor := by
    rw [zpow_add₀ two_ne_zero, zpow_natCast] at long
    rw [Rat.le_floor_iff, zpow_neg, ← div_eq_mul_inv, le_div_iff₀ (by positivity), runLength_eq]
    push_cast
    exact long
  have rounded := floor_le_roundHalfEven (q * 2 ^ (-format.lastPlace q))
  rw [significand]
  omega

/-- What an even significand stands for, and from where on rounding reaches it. -/
theorem le_significand {n : Int} (even : n % 2 = 0) (q : Rat) : n ≤ format.significand q ↔
    ((n : Rat) - 1 / 2) * 2 ^ format.lastPlace q ≤ q := by
  have unit_pos : (0 : Rat) < 2 ^ format.lastPlace q := by positivity
  rw [significand, le_roundHalfEven_iff even, zpow_neg, ← div_eq_mul_inv, le_div_iff₀ unit_pos]

/-! ### The bound of a format -/

/-- The exponent of the last place of the greatest magnitudes. -/
def maxExponent (format : Format) : Int :=
  format.minExponent + format.runs - 2

/-- The least number that is rounded to infinity. -/
def overflow (format : Format) : Rat :=
  (2 ^ format.precision - 1 / 2) * 2 ^ format.maxExponent

/-- The bound has as many bits before the last place as a significand has. -/
theorem Proper.overflow_between (proper : format.Proper) :
    2 ^ ((format.precision - 1 : Nat) + format.maxExponent) ≤ format.overflow ∧
      format.overflow ≤ 2 ^ (format.precision + format.maxExponent) := by
  have unit_pos : (0 : Rat) < 2 ^ format.maxExponent := by positivity
  have bits : (2 : Rat) ^ format.precision = 2 * 2 ^ (format.precision - 1) := by
    rw [← pow_succ', Nat.sub_add_cancel proper.wide]
  have one_le : (1 : Rat) ≤ 2 ^ (format.precision - 1) := one_le_pow₀ one_le_two
  constructor
  · rw [zpow_add₀ two_ne_zero, zpow_natCast, overflow, bits]
    exact mul_le_mul_of_nonneg_right (by linarith) unit_pos.le
  · rw [zpow_add₀ two_ne_zero, zpow_natCast, overflow]
    exact mul_le_mul_of_nonneg_right (by linarith) unit_pos.le

/-- Numbers whose last place is lower than that of the greatest magnitudes. -/
theorem Proper.nearest_below (proper : format.Proper) (positive : 0 < q)
    (low : format.lastPlace q < format.maxExponent) :
    format.nearest q < format.infinity ∧ q < format.overflow := by
  have wide := proper.wide
  have deep : format.minExponent ≤ format.lastPlace q := le_max_left _ _
  constructor
  · have steps : (format.lastPlace q - format.minExponent).toNat + 2 < format.runs := by
      rw [maxExponent] at low
      omega
    calc format.nearest q
        ≤ (format.lastPlace q - format.minExponent).toNat * format.runLength +
            (format.significand q).toNat := by
          rw [nearest_eq positive]
          exact Nat.min_le_right _ _
      _ ≤ ((format.lastPlace q - format.minExponent).toNat + 2) * format.runLength := by
          rw [Nat.add_mul]
          exact Nat.add_le_add_left (proper.significand_le positive) _
      _ < format.infinity := Nat.mul_lt_mul_of_pos_right steps format.runLength_pos
  · calc q < 2 ^ (format.precision + format.lastPlace q) := proper.lt_lastPlace positive
      _ ≤ 2 ^ ((format.precision - 1 : Nat) + format.maxExponent) :=
        zpow_le_zpow_right₀ one_lt_two.le (by omega)
      _ ≤ format.overflow := proper.overflow_between.1

/-- Numbers with the last place of the greatest magnitudes. -/
theorem Proper.nearest_greatest (proper : format.Proper) (positive : 0 < q)
    (here : format.lastPlace q = format.maxExponent) :
    format.nearest q = format.infinity ↔ format.overflow ≤ q := by
  have run_pos := format.runLength_pos
  have even : ((2 ^ format.precision : Nat) : Int) % 2 = 0 := by
    rw [← proper.two_runs]
    omega
  have reached : ((2 ^ format.precision : Nat) : Int) ≤ format.significand q ↔
      format.overflow ≤ q := by
    rw [le_significand even, here, overflow]
    push_cast
    rfl
  have steps : (format.lastPlace q - format.minExponent).toNat = format.runs - 2 := by
    rw [here, maxExponent]
    omega
  obtain ⟨rest, runs⟩ := Nat.exists_eq_add_of_le' proper.ranged
  rw [← reached, nearest_eq positive, min_eq_left_iff, steps, infinity, ← proper.two_runs, runs,
    Nat.add_sub_cancel, Nat.add_mul, Nat.add_le_add_iff_left]
  omega

/-- Numbers whose last place is higher than that of the greatest magnitudes. -/
theorem Proper.nearest_above (proper : format.Proper) (positive : 0 < q)
    (high : format.maxExponent < format.lastPlace q) :
    format.nearest q = format.infinity ∧ format.overflow ≤ q := by
  have wide := proper.wide
  have ranged := proper.ranged
  have normal : format.minExponent < format.lastPlace q := by
    rw [maxExponent] at high
    omega
  constructor
  · have full := full_significand positive normal
    have steps : format.runs ≤ (format.lastPlace q - format.minExponent).toNat + 1 := by
      rw [maxExponent] at high
      omega
    rw [nearest_eq positive, min_eq_left_iff]
    calc format.infinity
        ≤ ((format.lastPlace q - format.minExponent).toNat + 1) * format.runLength :=
          Nat.mul_le_mul_right _ steps
      _ = (format.lastPlace q - format.minExponent).toNat * format.runLength +
          format.runLength := Nat.succ_mul _ _
      _ ≤ _ := Nat.add_le_add_left full _
  · calc format.overflow ≤ 2 ^ (format.precision + format.maxExponent) :=
        proper.overflow_between.2
      _ ≤ 2 ^ ((format.precision - 1 : Nat) + format.lastPlace q) :=
        zpow_le_zpow_right₀ one_lt_two.le (by omega)
      _ ≤ q := normal_le positive normal

/-- **A number is rounded to infinity from half a last place above the greatest magnitude on.** -/
theorem Proper.nearest_infinite_iff (proper : format.Proper) (positive : 0 < q) :
    format.nearest q = format.infinity ↔ format.overflow ≤ q := by
  obtain low | here | high := lt_trichotomy (format.lastPlace q) format.maxExponent
  · obtain ⟨finite, below⟩ := proper.nearest_below positive low
    exact iff_of_false finite.ne below.not_ge
  · exact proper.nearest_greatest positive here
  · obtain ⟨infinite, above⟩ := proper.nearest_above positive high
    exact iff_of_true infinite above

end Format

/-! ### Double precision -/

namespace Double

/-- The least magnitude that no double can hold. -/
def overflow : Rat := 2 ^ 1024 - 2 ^ 970

theorem binary64_overflow : Format.binary64.overflow = overflow := by
  have exponent : Format.binary64.maxExponent = ((971 : Nat) : Int) := by
    simp [Format.maxExponent, Format.binary64]
  calc Format.binary64.overflow = (2 ^ 53 - 1 / 2) * 2 ^ 971 := by
        rw [Format.overflow, exponent, zpow_natCast, Format.binary64]
    _ = 2 ^ 54 * 2 ^ 970 - 2 ^ 970 := by
        rw [pow_succ 2 970]
        generalize (2 : Rat) ^ 970 = half
        ring
    _ = overflow := by rw [← pow_add, overflow]

theorem isFinite_ofIndex (negative : Bool) {index : Nat}
    (ranged : index ≤ Format.binary64.infinity) :
    (ofIndex negative index).isFinite = true ↔ index ≠ Format.binary64.infinity := by
  have infinity : Format.binary64.infinity = 0x7FF0000000000000 := rfl
  rw [infinity] at ranged ⊢
  simp only [ofIndex, isFinite, bne_iff_ne, min_eq_left ranged]

/-- **A rational becomes a finite double exactly below the bound.** -/
theorem isFinite_ofRat_iff (zeroSign : Bool) (q : Rat) :
    (ofRat zeroSign q).isFinite = true ↔ |q| < overflow := by
  have rounded (negative : Bool) {q : Rat} (positive : 0 < q) :
      (ofIndex negative (Format.binary64.nearest q)).isFinite = true ↔ q < overflow := by
    rw [isFinite_ofIndex negative (Format.nearest_le q), ← binary64_overflow, ← not_le]
    exact not_congr (Format.binary64_proper.nearest_infinite_iff positive)
  rw [ofRat]
  obtain negative | rfl | positive := lt_trichotomy q 0
  · rw [if_neg negative.ne, if_pos negative, abs_of_neg negative]
    exact rounded true (neg_pos.mpr negative)
  · rw [if_pos rfl, abs_zero]
    exact iff_of_true rfl (sub_pos.mpr (pow_lt_pow_right₀ one_lt_two (by decide)))
  · rw [if_neg positive.ne', if_neg positive.le.not_gt, abs_of_pos positive]
    exact rounded false positive

end Double

end Formulary
