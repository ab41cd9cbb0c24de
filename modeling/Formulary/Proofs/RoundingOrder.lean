/-
Rounding and order.

Rounding keeps the order. It goes to whole numbers of the last place, and whole numbers of a last
place stay as they are; so nothing is rounded across one of them. Within a binade it is symmetric
about each of them, ties included, since the double of a whole number is even.

* `roundHalfEven_mono`, `roundHalfEven_closest`, `roundHalfEven_reflect` — rounding to integers.
* `Format.rounded_mono` — rounding keeps the order, across binades as well.
* `Format.rounded_reflect` — the symmetry within a binade.
* `Format.Proper.rounded_near` — what is less than half a last place away is rounded to it.
-/

import Formulary.Proofs.Magnitudes

namespace Formulary

/-! ### The nearest integer -/

theorem IsNearest.mono {a b : Rat} {m n : Int} (first : IsNearest a m) (second : IsNearest b n)
    (le : a ≤ b) : m ≤ n := by
  by_contra above
  have step : (n : Rat) + 1 ≤ m := by exact_mod_cast Int.add_one_le_iff.mpr (not_le.mp above)
  have lower := (abs_le.mp first.distance_le).2
  have upper := (abs_le.mp second.distance_le).1
  -- Both rationals would have to be the one half way between the integers.
  have same : a = b := by linarith
  subst same
  exact above (first.unique second).le

theorem roundHalfEven_mono : Monotone roundHalfEven := fun a b le =>
  (roundHalfEven_isNearest a).mono (roundHalfEven_isNearest b) le

/-- No integer is closer than the one that is rounded to. -/
theorem roundHalfEven_closest (q : Rat) (n : Int) :
    |(roundHalfEven q : Rat) - q| ≤ |(n : Rat) - q| := by
  have rounding := roundHalfEven_isNearest q
  by_contra closer
  have near : IsNearest q n := .inl ((not_le.mp closer).trans_le rounding.distance_le)
  rw [rounding.unique near] at closer
  exact closer le_rfl

/-- Rounding is symmetric about an integer: twice the integer is even, and so a tie stays one. -/
theorem roundHalfEven_reflect (n : Int) (q : Rat) :
    roundHalfEven (2 * n - q) = 2 * n - roundHalfEven q := by
  refine (roundHalfEven_isNearest _).unique ?_
  have distance : |((2 * n - roundHalfEven q : Int) : Rat) - (2 * n - q)| =
      |(roundHalfEven q : Rat) - q| := by
    rw [← abs_neg]
    push_cast
    ring_nf
  rw [IsNearest, distance]
  refine (roundHalfEven_isNearest q).imp_right fun half => ⟨half.1, ?_⟩
  have even := half.2
  omega

/-! ### Binades -/

/-- Two halves of a power of two. -/
theorem half_add_half (k : Int) : (2 : Rat) ^ (k - 1) + 2 ^ (k - 1) = 2 ^ k := by
  rw [← two_mul, mul_comm, ← zpow_add_one₀ two_ne_zero, Int.sub_add_cancel]

theorem floorLog2_eq {q : Rat} {k : Int} (lower : (2 : Rat) ^ k ≤ q) (upper : q < 2 ^ (k + 1)) :
    floorLog2 q = k := by
  have positive : 0 < q := lt_of_lt_of_le (by positivity) lower
  have below := floorLog2_lt positive upper
  have above : k < floorLog2 q + 1 :=
    (zpow_lt_zpow_iff_right₀ one_lt_two).mp (lower.trans_lt (lt_floorLog2 positive))
  omega

namespace Format

variable {format : Format} {x v : Rat} {m e k : Int}

/-- The last place of the rationals of a binade. -/
def binadePlace (format : Format) (k : Int) : Int :=
  max format.minExponent (k - (format.precision - 1 : Nat))

theorem lastPlace_eq (lower : (2 : Rat) ^ k ≤ x) (upper : x < 2 ^ (k + 1)) :
    format.lastPlace x = format.binadePlace k := by
  rw [lastPlace, floorLog2_eq lower upper, binadePlace]

theorem lastPlace_le_binade (positive : 0 < x) (upper : x < 2 ^ (k + 1)) :
    format.lastPlace x ≤ format.binadePlace k := by
  have logarithm := floorLog2_lt positive upper
  rw [lastPlace, binadePlace]
  omega

theorem binade_le_lastPlace (lower : (2 : Rat) ^ k ≤ x) :
    format.binadePlace k ≤ format.lastPlace x := by
  have positive : 0 < x := lt_of_lt_of_le (by positivity) lower
  have logarithm : k < floorLog2 x + 1 :=
    (zpow_lt_zpow_iff_right₀ one_lt_two).mp (lower.trans_lt (lt_floorLog2 positive))
  rw [lastPlace, binadePlace]
  omega

/-! ### The order -/

/-- Nothing is rounded above a whole number of its last places. -/
theorem rounded_le (multiple : IsMultiple v (2 ^ format.lastPlace |x|)) (le : x ≤ v) :
    format.rounded x ≤ v := by
  obtain ⟨count, rfl⟩ := multiple
  have unit_pos : (0 : Rat) < 2 ^ format.lastPlace |x| := by positivity
  rw [rounded]
  refine mul_le_mul_of_nonneg_right (Int.cast_le.mpr ?_) unit_pos.le
  rw [← roundHalfEven_intCast count]
  refine roundHalfEven_mono ?_
  rwa [zpow_neg, ← div_eq_mul_inv, div_le_iff₀ unit_pos]

/-- Nothing is rounded below a whole number of its last places. -/
theorem le_rounded (multiple : IsMultiple v (2 ^ format.lastPlace |x|)) (le : v ≤ x) :
    v ≤ format.rounded x := by
  obtain ⟨count, isCount⟩ := multiple
  have flipped : format.rounded (-x) ≤ -v :=
    rounded_le ⟨-count, by rw [abs_neg, isCount]; push_cast; ring⟩ (neg_le_neg le)
  rw [rounded_neg] at flipped
  exact neg_le_neg_iff.mp flipped

/-- A rational is rounded to a whole number of its last places. -/
theorem isMultiple_rounded (format : Format) (x : Rat) :
    IsMultiple (format.rounded x) (2 ^ format.lastPlace |x|) :=
  ⟨_, rfl⟩

/-- **Rounding keeps the order.** Where the last place becomes a higher one, the power of two
between two rationals is a whole number of both last places. -/
theorem Proper.rounded_mono (proper : format.Proper) : Monotone format.rounded := by
  refine monotone_of_odd_of_monotoneOn_nonneg (rounded_neg format) ?_
  intro a nonneg b _ le
  obtain rfl | positive := (show (0 : Rat) ≤ a from nonneg).eq_or_lt
  · rw [rounded_zero]
    exact le_rounded ⟨0, by rw [Int.cast_zero, zero_mul]⟩ le
  have above := positive.trans_le le
  have places : format.lastPlace a ≤ format.lastPlace b := lastPlace_mono positive le
  obtain same | lower := places.eq_or_lt
  · rw [rounded, rounded, abs_of_pos positive, abs_of_pos above, same]
    have scaled : a * 2 ^ (-format.lastPlace b) ≤ b * 2 ^ (-format.lastPlace b) :=
      mul_le_mul_of_nonneg_right le (by positivity)
    exact mul_le_mul_of_nonneg_right (Int.cast_le.mpr (roundHalfEven_mono scaled)) (by positivity)
  · have wide := proper.wide
    have normal : format.minExponent < format.lastPlace b :=
      lt_of_le_of_lt (le_max_left _ _) lower
    have between : a ≤ 2 ^ ((format.precision - 1 : Nat) + format.lastPlace b) :=
      (proper.lt_lastPlace positive).le.trans (zpow_le_zpow_right₀ one_le_two (by omega))
    have first : format.rounded a ≤ 2 ^ ((format.precision - 1 : Nat) + format.lastPlace b) := by
      refine rounded_le ?_ between
      rw [abs_of_pos positive]
      exact IsMultiple.power two_ne_zero (by omega)
    have second : 2 ^ ((format.precision - 1 : Nat) + format.lastPlace b) ≤ format.rounded b := by
      refine le_rounded ?_ (normal_le above normal)
      rw [abs_of_pos above]
      exact IsMultiple.power two_ne_zero (by omega)
    exact first.trans second

theorem Proper.abs_rounded (proper : format.Proper) (x : Rat) :
    |format.rounded x| = format.rounded |x| := by
  obtain nonneg | negative := le_or_gt 0 x
  · have same := proper.rounded_mono nonneg
    rw [rounded_zero] at same
    rw [abs_of_nonneg nonneg, abs_of_nonneg same]
  · have same := proper.rounded_mono negative.le
    rw [rounded_zero] at same
    rw [abs_of_neg negative, abs_of_nonpos same, rounded_neg]

/-! ### What stays as it is -/

theorem Proper.rounded_power (proper : format.Proper) (deep : format.minExponent ≤ e) :
    format.rounded (2 ^ e) = 2 ^ e := by
  have short : (1 : Int).natAbs < 2 ^ format.precision := Nat.one_lt_two_pow proper.wide.ne'
  have kept := proper.rounded_significand short deep
  rwa [Int.cast_one, one_mul] at kept

/-- Below a power of two a rational is rounded by half a last place of the binade at most. -/
theorem Proper.distance_le_binade (proper : format.Proper) (nonneg : 0 ≤ x)
    (upper : x ≤ 2 ^ (k + 1)) (deep : format.minExponent ≤ k + 1) :
    |format.rounded x - x| ≤ 2 ^ (format.binadePlace k - 1) := by
  have kept (same : format.rounded x = x) :
      |format.rounded x - x| ≤ 2 ^ (format.binadePlace k - 1) := by
    rw [same, sub_self, abs_zero]
    positivity
  obtain rfl | positive := nonneg.eq_or_lt
  · exact kept (rounded_zero format)
  obtain rfl | below := upper.eq_or_lt
  · exact kept (proper.rounded_power deep)
  · refine (format.distance_rounded_le x).trans (zpow_le_zpow_right₀ one_le_two ?_)
    have last : format.lastPlace x ≤ format.binadePlace k := lastPlace_le_binade positive below
    rw [abs_of_pos positive]
    omega

/-- The bound of a format is rounded to the power of two above all its numbers. -/
theorem Proper.rounded_overflow (proper : format.Proper) :
    format.rounded format.overflow = 2 ^ (format.precision + format.maxExponent) := by
  have wide := proper.wide
  have ranged := proper.ranged
  have unit_pos : (0 : Rat) < 2 ^ format.maxExponent := by positivity
  have lower := proper.overflow_between.1
  have upper : format.overflow <
      2 ^ ((format.precision - 1 : Nat) + format.maxExponent + 1) := by
    have place : (format.precision - 1 : Nat) + format.maxExponent + 1 =
        format.precision + format.maxExponent := by omega
    rw [place, zpow_add₀ two_ne_zero, zpow_natCast, overflow]
    exact mul_lt_mul_of_pos_right (by linarith) unit_pos
  have last : format.lastPlace |format.overflow| = format.maxExponent := by
    rw [abs_of_pos (lt_of_lt_of_le (by positivity) lower), lastPlace_eq lower upper, binadePlace,
      maxExponent]
    omega
  have halfway : (2 : Rat) ^ format.precision - 1 / 2 =
      ((2 ^ format.precision - 1 : Int) : Rat) + 1 / 2 := by
    push_cast
    ring
  have odd : (2 ^ format.precision - 1 : Int) % 2 ≠ 0 := by
    obtain ⟨bits, isBits⟩ := Nat.exists_eq_succ_of_ne_zero wide.ne'
    rw [isBits, pow_succ]
    omega
  rw [rounded, last, overflow, mul_assoc, ← zpow_add₀ two_ne_zero, Int.add_right_neg, zpow_zero,
    mul_one, halfway, roundHalfEven_half, if_neg odd, zpow_add₀ two_ne_zero, zpow_natCast]
  push_cast
  ring

/-! ### The symmetry -/

/-- **Within a binade rounding is symmetric** about every whole number of last places. -/
theorem rounded_reflect (multiple : IsMultiple v (2 ^ format.binadePlace k)) (lower : 2 ^ k ≤ x)
    (upper : x < 2 ^ (k + 1)) (lower' : 2 ^ k ≤ 2 * v - x) (upper' : 2 * v - x < 2 ^ (k + 1)) :
    format.rounded (2 * v - x) = 2 * v - format.rounded x := by
  obtain ⟨count, isCount⟩ := multiple
  have power_pos : (0 : Rat) < 2 ^ k := by positivity
  have scaled : (2 * v - x) * 2 ^ (-format.binadePlace k) =
      2 * count - x * 2 ^ (-format.binadePlace k) := by
    rw [sub_mul, mul_assoc, isCount, mul_assoc, ← zpow_add₀ two_ne_zero, Int.add_right_neg,
      zpow_zero, mul_one]
  rw [rounded, rounded, abs_of_pos (power_pos.trans_le lower),
    abs_of_pos (power_pos.trans_le lower'), lastPlace_eq lower upper, lastPlace_eq lower' upper',
    scaled, roundHalfEven_reflect]
  push_cast
  rw [sub_mul, mul_assoc, ← isCount]

/-! ### What is near -/

/-- A significand with a lower exponent stays below what has a higher last place, by half of it. -/
theorem Proper.below_binade (proper : format.Proper) (short : m.natAbs < 2 ^ format.precision)
    (deep : format.minExponent ≤ e) (positive : 0 < x) (low : e < format.lastPlace x) :
    m * 2 ^ e + 2 ^ (format.lastPlace x - 1) ≤ x := by
  have wide := proper.wide
  have normal := normal_le positive (deep.trans_lt low)
  have unit : (2 : Rat) ^ e ≤ 2 ^ (format.lastPlace x - 1) :=
    zpow_le_zpow_right₀ one_le_two (by omega)
  have halves : (2 : Rat) ^ ((format.precision - 1 : Nat) + format.lastPlace x) =
      2 ^ format.precision * 2 ^ (format.lastPlace x - 1) := by
    rw [← zpow_natCast, ← zpow_add₀ two_ne_zero]
    congr 1
    omega
  have longest : (m : Rat) + 1 ≤ 2 ^ format.precision := by
    have below : m + 1 ≤ ((2 ^ format.precision : Nat) : Int) := by omega
    exact_mod_cast below
  rw [halves] at normal
  calc (m : Rat) * 2 ^ e + 2 ^ (format.lastPlace x - 1)
      ≤ (2 ^ format.precision - 1) * 2 ^ e + 2 ^ (format.lastPlace x - 1) :=
        add_le_add_left (mul_le_mul_of_nonneg_right (by linarith) (by positivity)) _
    _ ≤ (2 ^ format.precision - 1) * 2 ^ (format.lastPlace x - 1) +
          2 ^ (format.lastPlace x - 1) :=
        add_le_add_left (mul_le_mul_of_nonneg_left unit
          (sub_nonneg.mpr (one_le_pow₀ one_le_two))) _
    _ = 2 ^ format.precision * 2 ^ (format.lastPlace x - 1) := by ring
    _ ≤ x := normal

/-- **What is less than half a last place away from a number of the format** is rounded to it. -/
theorem Proper.rounded_near (proper : format.Proper) (short : m.natAbs < 2 ^ format.precision)
    (deep : format.minExponent ≤ e) (positive : 0 < x)
    (near : |x - m * 2 ^ e| < 2 ^ (format.lastPlace x - 1)) : format.rounded x = m * 2 ^ e := by
  have whole : format.lastPlace x ≤ e := by
    by_contra low
    have below := proper.below_binade short deep positive (Int.not_le.mp low)
    have apart := le_abs_self (x - m * 2 ^ e)
    linarith
  have rounding := format.distance_rounded_le x
  have isMultiple := format.isMultiple_rounded x
  rw [abs_of_pos positive] at rounding isMultiple
  refine isMultiple.eq_of_near (by positivity)
    (IsMultiple.lower (r := 2) two_ne_zero ⟨m, rfl⟩ whole) ?_
  calc |format.rounded x - m * 2 ^ e|
      ≤ |format.rounded x - x| + |x - m * 2 ^ e| := abs_sub_le _ _ _
    _ < 2 ^ (format.lastPlace x - 1) + 2 ^ (format.lastPlace x - 1) :=
        add_lt_add_of_le_of_lt rounding near
    _ = 2 ^ format.lastPlace x := half_add_half _

end Format

end Formulary
