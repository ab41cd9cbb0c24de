/-
Rounding to double precision and then to single precision.

A decimal is read as a double, and the double is rounded to single precision: a rational is rounded
twice. Rounding twice keeps the order, so the rationals that come to one number have no gaps between
them. If the number lies inside a binade they lie symmetrically about it. About a power of two they
do not: the last place below it is half of the one above it, and how far the readings reach is known
up to what the first rounding moves.

* `roundedTwice_mono`, `ordConnected_readings` — the readings of a number have no gaps.
* `distance_roundedTwice_le`, `roundedTwice_near` — how far they reach at most and at least.
* `readings_reflect` — they are symmetric about a number inside a binade.
* `power_reads_above`, `power_reads_below` — how far they reach on both sides of a power of two.
* `mem_readings_of_close` — what comes near enough with nine digits.
-/

import Formulary.Proofs.RoundingOrder

namespace Formulary

open Format (binary32 binary64)

/-! ### Rounding twice -/

/-- A rational rounded to double precision and then to single precision. -/
def roundedTwice (x : Rat) : Rat :=
  binary32.rounded (binary64.rounded x)

variable {x v : Rat} {m e k : Int}

theorem roundedTwice_mono : Monotone roundedTwice :=
  Format.binary32_proper.rounded_mono.comp Format.binary64_proper.rounded_mono

theorem roundedTwice_neg (x : Rat) : roundedTwice (-x) = -roundedTwice x := by
  rw [roundedTwice, Format.rounded_neg, Format.rounded_neg, roundedTwice]

@[simp] theorem roundedTwice_zero : roundedTwice 0 = 0 := by
  rw [roundedTwice, Format.rounded_zero, Format.rounded_zero]

theorem abs_roundedTwice (x : Rat) : |roundedTwice x| = roundedTwice |x| := by
  rw [roundedTwice, Format.binary32_proper.abs_rounded, Format.binary64_proper.abs_rounded,
    roundedTwice]

/-- A rational that a number of single precision can be: a significand of 24 bits with an exponent
in the range of the format. -/
structure HasSingleSignificand (v : Rat) (m e : Int) : Prop where
  value : v = m * 2 ^ e
  short : m.natAbs < 2 ^ 24
  deep : -149 ≤ e
  high : e ≤ 104

namespace HasSingleSignificand

/-- The numbers of single precision are not rounded. -/
theorem rounded_eq (h : HasSingleSignificand v m e) : binary32.rounded v = v := by
  rw [h.value]
  exact Format.binary32_proper.rounded_significand h.short h.deep

theorem roundedTwice_eq (h : HasSingleSignificand v m e) : roundedTwice v = v := by
  have double : binary64.rounded v = v := by
    rw [h.value]
    exact Format.binary64_proper.rounded_significand (h.short.trans (by decide))
      (show (-1074 : Int) ≤ e from (by decide : (-1074 : Int) ≤ -149).trans h.deep)
  rw [roundedTwice, double, h.rounded_eq]

theorem abs_lt (h : HasSingleSignificand v m e) : |v| < 2 ^ (128 : Int) := by
  have short : |(m : Rat)| < 2 ^ 24 := by
    rw [← Int.cast_abs, Int.abs_eq_natAbs]
    exact_mod_cast h.short
  calc |v| = |(m : Rat)| * 2 ^ e := by
        rw [h.value, abs_mul, abs_of_pos (by positivity : (0 : Rat) < 2 ^ e)]
    _ < 2 ^ 24 * 2 ^ e := mul_lt_mul_of_pos_right short (by positivity)
    _ = 2 ^ (24 + e) := by
        rw [zpow_add₀ two_ne_zero]
        rfl
    _ ≤ 2 ^ (128 : Int) := zpow_le_zpow_right₀ one_le_two (by have := h.high; omega)

theorem abs (h : HasSingleSignificand v m e) : ∃ m e, HasSingleSignificand |v| m e := by
  obtain same | flipped := abs_choice v
  · exact ⟨m, e, same.symm ▸ h⟩
  · refine ⟨-m, e, ?_, by rw [Int.natAbs_neg]; exact h.short, h.deep, h.high⟩
    rw [flipped, h.value]
    push_cast
    ring

/-- A number of single precision is a whole number of the last places of its binade. -/
theorem multiple (h : HasSingleSignificand v m e) (lower : (2 : Rat) ^ k ≤ v)
    (upper : v < 2 ^ (k + 1)) : IsMultiple v (2 ^ binary32.binadePlace k) := by
  have positive : 0 < v := lt_of_lt_of_le (by positivity) lower
  have nonzero : m ≠ 0 := by
    rintro rfl
    rw [h.value, Int.cast_zero, zero_mul] at positive
    exact positive.false
  have last : binary32.lastPlace |v| ≤ e := by
    rw [h.value]
    exact Format.binary32_proper.lastPlace_abs_le nonzero h.short h.deep
  rw [abs_of_pos positive, Format.lastPlace_eq lower upper] at last
  exact IsMultiple.lower (r := 2) two_ne_zero ⟨m, h.value⟩ last

/-- A positive number of single precision is not below the smallest magnitude. -/
theorem least (h : HasSingleSignificand v m e) (positive : 0 < v) :
    (2 : Rat) ^ (-149 : Int) ≤ v := by
  have counted : (1 : Rat) ≤ m := by
    have above : (0 : Rat) < m := by
      rw [h.value] at positive
      exact pos_of_mul_pos_left positive (by positivity)
    exact_mod_cast Int.add_one_le_iff.mpr (show (0 : Int) < m by exact_mod_cast above)
  calc (2 : Rat) ^ (-149 : Int) ≤ 2 ^ e := zpow_le_zpow_right₀ one_le_two h.deep
    _ ≤ m * 2 ^ e := le_mul_of_one_le_left (by positivity) counted
    _ = v := h.value.symm

theorem binade_deep (h : HasSingleSignificand v m e) (positive : 0 < v) (upper : v < 2 ^ (k + 1)) :
    -149 ≤ k := by
  have ordered := (zpow_lt_zpow_iff_right₀ one_lt_two).mp ((h.least positive).trans_lt upper)
  omega

end HasSingleSignificand

/-- A power of two in the range of the format. -/
theorem roundedTwice_power (deep : -149 ≤ k) : roundedTwice (2 ^ k) = 2 ^ k := by
  have double : binary64.rounded (2 ^ k) = 2 ^ k :=
    Format.binary64_proper.rounded_power
      (show (-1074 : Int) ≤ k from (by decide : (-1074 : Int) ≤ -149).trans deep)
  rw [roundedTwice, double]
  exact Format.binary32_proper.rounded_power deep

/-! ### Binades -/

theorem binade32 (k : Int) : binary32.binadePlace k = max (-149) (k - 23) := rfl

theorem binade64 (deep : -1022 ≤ k) : binary64.binadePlace k = k - 52 := by
  change max (-1074) (k - 52) = k - 52
  omega

/-- Double precision does not take a rational out of the range up to a power of two. -/
theorem double_between (nonneg : 0 ≤ x) (upper : x ≤ 2 ^ k) (deep : -1074 ≤ k) :
    0 ≤ binary64.rounded x ∧ binary64.rounded x ≤ 2 ^ k := by
  have mono := Format.binary64_proper.rounded_mono
  have top : binary64.rounded (2 ^ k) = 2 ^ k := Format.binary64_proper.rounded_power deep
  exact ⟨Format.rounded_zero binary64 ▸ mono nonneg, top ▸ mono upper⟩

/-- **How far rounding twice goes:** half a last place of both formats. -/
theorem distance_roundedTwice_le (nonneg : 0 ≤ x) (upper : x ≤ 2 ^ (k + 1)) (deep : -150 ≤ k) :
    |roundedTwice x - x| ≤ 2 ^ (binary32.binadePlace k - 1) + 2 ^ (k - 53) := by
  obtain ⟨double_nonneg, double_le⟩ := double_between nonneg upper (by omega)
  have first := Format.binary64_proper.distance_le_binade nonneg upper
    (show (-1074 : Int) ≤ k + 1 by omega)
  have second : |roundedTwice x - binary64.rounded x| ≤ 2 ^ (binary32.binadePlace k - 1) :=
    Format.binary32_proper.distance_le_binade double_nonneg double_le
      (show (-149 : Int) ≤ k + 1 by omega)
  have place : k - 52 - 1 = k - 53 := by omega
  rw [binade64 (by omega), place] at first
  exact (abs_sub_le _ _ _).trans (add_le_add second first)

/-- **How near is near enough:** what is less than half a last place away, by more than the first
rounding moves. -/
theorem roundedTwice_near (h : HasSingleSignificand v m e) (lower : (2 : Rat) ^ k ≤ x)
    (upper : x < 2 ^ (k + 1)) (deep : -1022 ≤ k)
    (near : |x - v| + 2 ^ (k - 53) < 2 ^ (binary32.binadePlace k - 1)) : roundedTwice x = v := by
  have positive : 0 < x := lt_of_lt_of_le (by positivity) lower
  have bottom : binary64.rounded (2 ^ k) = 2 ^ k :=
    Format.binary64_proper.rounded_power (show (-1074 : Int) ≤ k by omega)
  have double_ge : 2 ^ k ≤ binary64.rounded x :=
    bottom ▸ Format.binary64_proper.rounded_mono lower
  have first : |binary64.rounded x - x| ≤ 2 ^ (k - 53) := by
    have distance := binary64.distance_rounded_le x
    have place : k - 52 - 1 = k - 53 := by omega
    rwa [abs_of_pos positive, Format.lastPlace_eq lower upper, binade64 deep, place] at distance
  rw [roundedTwice, h.value]
  refine Format.binary32_proper.rounded_near h.short h.deep
    (lt_of_lt_of_le (by positivity) double_ge) ?_
  rw [← h.value]
  calc |binary64.rounded x - v| ≤ |binary64.rounded x - x| + |x - v| := abs_sub_le _ _ _
    _ ≤ |x - v| + 2 ^ (k - 53) := by linarith
    _ < 2 ^ (binary32.binadePlace k - 1) := near
    _ ≤ 2 ^ (binary32.lastPlace (binary64.rounded x) - 1) :=
        zpow_le_zpow_right₀ one_le_two (by
          have last := @Format.binade_le_lastPlace binary32 _ _ double_ge
          omega)

/-! ### Readings -/

/-- The rationals that are read as a number of single precision. -/
def readings (v : Rat) : Set Rat :=
  {x | roundedTwice x = v}

instance (v x : Rat) : Decidable (x ∈ readings v) :=
  inferInstanceAs (Decidable (roundedTwice x = v))

theorem ordConnected_readings (v : Rat) : (readings v).OrdConnected :=
  (Set.ordConnected_singleton (a := v)).preimage_mono roundedTwice_mono

/-- What is read as a number below a power of two is itself below it. -/
theorem lt_power_of_reads (reads : x ∈ readings v) (upper : v < 2 ^ k) (deep : -149 ≤ k) :
    x < 2 ^ k := by
  by_contra above
  have least := roundedTwice_mono (not_lt.mp above)
  rw [roundedTwice_power deep, show roundedTwice x = v from reads] at least
  exact upper.not_ge least

theorem power_lt_of_reads (reads : x ∈ readings v) (lower : 2 ^ k < v) (deep : -149 ≤ k) :
    2 ^ k < x := by
  by_contra below
  have most := roundedTwice_mono (not_lt.mp below)
  rw [roundedTwice_power deep, show roundedTwice x = v from reads] at most
  exact lower.not_ge most

theorem pos_of_reads (reads : x ∈ readings v) (positive : 0 < v) : 0 < x := by
  by_contra below
  have most := roundedTwice_mono (not_lt.mp below)
  rw [roundedTwice_zero, show roundedTwice x = v from reads] at most
  exact positive.not_ge most

/-- **The readings of a number inside a binade are symmetric about it.** -/
theorem readings_reflect (h : HasSingleSignificand v m e) (lower : 2 ^ k < v)
    (upper : v < 2 ^ (k + 1)) (reads : x ∈ readings v) : 2 * v - x ∈ readings v := by
  have positive : 0 < v := lt_trans (by positivity) lower
  have deep := h.binade_deep positive upper
  have twice : roundedTwice x = v := reads
  have unit_pos : (0 : Rat) < 2 ^ binary32.binadePlace k := by positivity
  have places : k - 52 < binary32.binadePlace k ∧ binary32.binadePlace k ≤ k := by
    rw [binade32]
    omega
  have multiple : IsMultiple v (2 ^ binary32.binadePlace k) := h.multiple lower.le upper
  -- The number is a last place away from both ends of its binade. What is read as it is less than
  -- that away from it, and so is the double in between.
  have fromBottom : 2 ^ k + 2 ^ binary32.binadePlace k ≤ v :=
    IsMultiple.add_le_of_lt unit_pos (IsMultiple.power (r := 2) two_ne_zero places.2) multiple
      lower
  have fromTop : v + 2 ^ binary32.binadePlace k ≤ 2 ^ (k + 1) :=
    multiple.add_le_of_lt unit_pos (IsMultiple.power (r := 2) two_ne_zero (by omega)) upper
  have half := half_add_half (binary32.binadePlace k)
  have small : (2 : Rat) ^ (k - 53) < 2 ^ (binary32.binadePlace k - 1) :=
    zpow_lt_zpow_right₀ one_lt_two (by omega)
  have nonneg := (pos_of_reads reads positive).le
  have below := (lt_power_of_reads reads upper (by omega)).le
  have double : binary64.rounded (2 * v - x) = 2 * v - binary64.rounded x := by
    have distance := distance_roundedTwice_le nonneg below (by omega)
    rw [twice] at distance
    obtain ⟨left, right⟩ := abs_le.mp distance
    refine Format.rounded_reflect (k := k) ?_ (by linarith) (by linarith) (by linarith)
      (by linarith)
    rw [binade64 (by omega)]
    exact IsMultiple.lower (r := 2) two_ne_zero multiple places.1.le
  have single : binary32.rounded (binary64.rounded x) = v := twice
  obtain ⟨double_nonneg, double_le⟩ := double_between nonneg below (by omega)
  have distance := Format.binary32_proper.distance_le_binade double_nonneg double_le
    (show (-149 : Int) ≤ k + 1 by omega)
  rw [single] at distance
  obtain ⟨left, right⟩ := abs_le.mp distance
  change binary32.rounded (binary64.rounded (2 * v - x)) = v
  rw [double, Format.rounded_reflect multiple (by linarith) (by linarith) (by linarith)
    (by linarith), single]
  ring

/-! ### How far readings reach -/

/-- What comes within one part in 2 · 10 ^ 8 of a number is read as it. -/
theorem mem_readings_of_close (h : HasSingleSignificand v m e) (positive : 0 < v)
    (close : |x - v| * (2 * 10 ^ 8) ≤ v) : x ∈ readings v := by
  obtain ⟨lower, upper⟩ := abs_le.mp (show |x - v| ≤ v / 2 by linarith [abs_nonneg (x - v)])
  have above : 0 < x := by linarith
  have first := floorLog2_le above
  have next := lt_floorLog2 above
  have deep : -150 ≤ floorLog2 x := by
    have least := h.least positive
    have half : (2 : Rat) ^ (-149 : Int) = 2 * 2 ^ (-150 : Int) := by
      rw [← zpow_one_add₀ two_ne_zero]
      rfl
    have below : (2 : Rat) ^ (-150 : Int) < 2 ^ (floorLog2 x + 1) := by linarith
    have ordered := (zpow_lt_zpow_iff_right₀ one_lt_two).mp below
    omega
  refine roundedTwice_near h first next (by omega) ?_
  -- Half a last place is one part in 2 ^ 25 of the next power of two, or more.
  obtain ⟨unit, isUnit⟩ : ∃ unit : Rat, (2 : Rat) ^ (floorLog2 x - 53) = unit := ⟨_, rfl⟩
  have top : (2 : Rat) ^ (floorLog2 x + 1) = 2 ^ 54 * unit := by
    rw [← isUnit, ← zpow_natCast, ← zpow_add₀ two_ne_zero]
    congr 1
    push_cast
    ring
  have place : 2 ^ 29 * unit ≤ 2 ^ (binary32.binadePlace (floorLog2 x) - 1) := calc
    2 ^ 29 * unit = 2 ^ (floorLog2 x - 24) := by
      rw [← isUnit, ← zpow_natCast, ← zpow_add₀ two_ne_zero]
      congr 1
      push_cast
      ring
    _ ≤ _ := zpow_le_zpow_right₀ one_le_two (by rw [binade32]; omega)
  have unit_pos : 0 < unit := isUnit ▸ by positivity
  rw [top] at next
  rw [isUnit]
  linarith

/-- What is read as a power of two is at most this far above it, -/
theorem power_reads_above (deep : -149 ≤ k) (reads : x ∈ readings (2 ^ k)) :
    x - 2 ^ k ≤ 2 ^ (binary32.binadePlace k - 1) + 2 ^ (k - 53) := by
  have positive : (0 : Rat) < 2 ^ k := by positivity
  have below := lt_power_of_reads (k := k + 1) reads (zpow_lt_zpow_right₀ one_lt_two (by omega))
    (by omega)
  have distance :=
    distance_roundedTwice_le (pos_of_reads reads positive).le below.le (by omega)
  rw [show roundedTwice x = 2 ^ k from reads] at distance
  linarith [(abs_le.mp distance).1]

/-- and at most this far below it, where the last place is a lower one. -/
theorem power_reads_below (deep : -149 ≤ k) (reads : x ∈ readings (2 ^ k)) :
    2 ^ k - x ≤ 2 ^ (binary32.binadePlace (k - 1) - 1) + 2 ^ (k - 54) := by
  have positive : (0 : Rat) < 2 ^ k := by positivity
  obtain le | lt := le_or_gt x (2 ^ k)
  · have distance := distance_roundedTwice_le (k := k - 1) (pos_of_reads reads positive).le
      (by rwa [Int.sub_add_cancel]) (by omega)
    have place : k - 1 - 53 = k - 54 := by omega
    rw [show roundedTwice x = 2 ^ k from reads, place] at distance
    linarith [(abs_le.mp distance).2]
  · exact (sub_neg.mpr lt).le.trans (by positivity)

/-- What is not that far above a power of two, but for twice the first rounding, is read as it. -/
theorem reads_above_power (h : HasSingleSignificand (2 ^ k) m e) (deep : -149 ≤ k)
    (lower : 2 ^ k ≤ x) (near : x - 2 ^ k + 2 ^ (k - 53) < 2 ^ (binary32.binadePlace k - 1)) :
    x ∈ readings (2 ^ k) := by
  have moved : (0 : Rat) < 2 ^ (k - 53) := by positivity
  have half : (2 : Rat) ^ (binary32.binadePlace k - 1) ≤ 2 ^ k :=
    zpow_le_zpow_right₀ one_le_two (by rw [binade32]; omega)
  have next : (2 : Rat) ^ (k + 1) = 2 ^ k + 2 ^ k := by
    rw [zpow_add_one₀ two_ne_zero, mul_two]
  refine roundedTwice_near h lower (by linarith) (by omega) ?_
  rwa [abs_of_nonneg (sub_nonneg.mpr lower)]

theorem reads_below_power (h : HasSingleSignificand (2 ^ k) m e) (deep : -149 ≤ k)
    (upper : x ≤ 2 ^ k)
    (near : 2 ^ k - x + 2 ^ (k - 54) < 2 ^ (binary32.binadePlace (k - 1) - 1)) :
    x ∈ readings (2 ^ k) := by
  obtain rfl | below := upper.eq_or_lt
  · exact h.roundedTwice_eq
  have moved : (0 : Rat) < 2 ^ (k - 54) := by positivity
  have half : (2 : Rat) ^ (binary32.binadePlace (k - 1) - 1) ≤ 2 ^ (k - 1) :=
    zpow_le_zpow_right₀ one_le_two (by rw [binade32]; omega)
  have halves := half_add_half k
  have place : k - 1 - 53 = k - 54 := by omega
  refine roundedTwice_near (k := k - 1) h (by linarith) (by rwa [Int.sub_add_cancel]) (by omega) ?_
  rw [abs_of_nonpos (sub_nonpos.mpr upper), neg_sub, place]
  exact near

end Formulary
