/-
Rounding a double to the nearest integer.

A half is added as a double, and the floor of the sum is taken. Where the sum is a double itself
that is the nearest integer, a half going up. The sum is rounded to a greater integer in two cases:
just below one half, where it comes to one, and for the odd integers of 53 bits, where the sum is
half way between two integers and the even one is the greater.

* `Misrounded` — the rationals where the sum is rounded to a greater integer.
* `HasSignificand.floor_rounded` — elsewhere the floor of the rounded sum is the floor of the sum.
* `Double.round_nearest` — what `Math.round` gives for every finite double.
-/

import Formulary.Proofs.Magnitudes
import Formulary.Proofs.Narrowing

namespace Formulary

open Format (binary64)

/-- The rationals whose sum with a half is rounded to a greater integer. -/
def Misrounded (q : Rat) : Prop :=
  q = 1 / 2 - 1 / 2 ^ 54 ∨ ∃ n : Int, q = n ∧ n % 2 = 1 ∧ 2 ^ 52 < |n| ∧ |n| < 2 ^ 53

/-! ### Last places -/

/-- The last place of the rationals of 53 bits before the point is the one of the units. -/
theorem lastPlace_eq_zero_iff {r : Rat} (positive : 0 < r) :
    binary64.lastPlace r = 0 ↔ 2 ^ 52 ≤ r ∧ r < 2 ^ 53 := by
  have places : binary64.lastPlace r = max (-1074) (floorLog2 r - 52) := rfl
  have lower := floorLog2_le positive
  have upper := lt_floorLog2 positive
  constructor
  · intro last
    have log : floorLog2 r = 52 := by omega
    rw [log] at lower upper
    exact ⟨by exact_mod_cast lower, by exact_mod_cast upper⟩
  · rintro ⟨atLeast, below⟩
    have short : floorLog2 r < 53 := floorLog2_lt positive (by exact_mod_cast below)
    have long : (52 : Int) < floorLog2 r + 1 :=
      (zpow_lt_zpow_iff_right₀ (one_lt_two (α := Rat))).mp
        (lt_of_le_of_lt (by exact_mod_cast atLeast) upper)
    omega

/-- Below one no last place is higher than the one of the greatest double below one. -/
theorem lastPlace_below_one {r : Rat} (positive : 0 < r) (below : r < 1) :
    binary64.lastPlace r ≤ -53 := by
  have log : floorLog2 r < 0 := floorLog2_lt positive (by simpa using below)
  have places : binary64.lastPlace r = max (-1074) (floorLog2 r - 52) := rfl
  omega

/-- Rounding does not lead below an integer, as long as the integer is a number of last places. -/
theorem le_rounded {r : Rat} {n : Int} (fine : binary64.lastPlace |r| ≤ 0) (le : n ≤ r) :
    n ≤ binary64.rounded r := by
  have near := (abs_le.mp (binary64.distance_rounded_le r)).1
  have unit_pos : (0 : Rat) < 2 ^ binary64.lastPlace |r| := by positivity
  have half : (2 : Rat) ^ (binary64.lastPlace |r| - 1) < 2 ^ binary64.lastPlace |r| :=
    zpow_lt_zpow_right₀ one_lt_two (by omega)
  have places : (n : Rat) = (n * 2 ^ (-binary64.lastPlace |r|).toNat : Int) *
      2 ^ binary64.lastPlace |r| := by
    push_cast
    rw [← zpow_natCast, Int.toNat_of_nonneg (by omega), mul_assoc, ← zpow_add₀ two_ne_zero,
      Int.add_left_neg, zpow_zero, mul_one]
  rw [Format.rounded] at near ⊢
  generalize (n * 2 ^ (-binary64.lastPlace |r|).toNat : Int) = count at places
  generalize roundHalfEven (r * 2 ^ (-binary64.lastPlace |r|)) = reached at near ⊢
  have below : ((count : Int) : Rat) < reached + 1 := by
    refine lt_of_mul_lt_mul_right ?_ unit_pos.le
    rw [← places, add_mul, one_mul]
    linarith
  rw [places]
  exact mul_le_mul_of_nonneg_right (by exact_mod_cast le_of_cast_lt below) unit_pos.le

/-- Half way between two integers of 53 bits the sum is rounded to the even one. -/
theorem rounded_half {n : Int} (units : binary64.lastPlace |(n : Rat) + 1 / 2| = 0) :
    binary64.rounded (n + 1 / 2) = if n % 2 = 0 then (n : Rat) else n + 1 := by
  rw [Format.rounded, units, neg_zero, zpow_zero, mul_one, mul_one, roundHalfEven_half]
  split
  · rfl
  · push_cast
    rfl

/-- The odd integers whose sum with a half has units for last places. -/
theorem lastPlace_half_odd {n : Int} (odd : n % 2 = 1) :
    binary64.lastPlace |(n : Rat) + 1 / 2| = 0 ↔ 2 ^ 52 < |n| ∧ |n| < 2 ^ 53 := by
  have twice : |(n : Rat) + 1 / 2| = ((|2 * n + 1| : Int) : Rat) / 2 := by
    rw [Int.cast_abs, eq_div_iff two_ne_zero, ← abs_of_pos (two_pos (α := Rat)), ← abs_mul,
      abs_of_pos (two_pos (α := Rat))]
    congr 1
    push_cast
    ring
  have positive : 0 < |2 * n + 1| := abs_pos.mpr (by omega)
  rw [twice, lastPlace_eq_zero_iff (by positivity), le_div_iff₀ two_pos, div_lt_iff₀ two_pos]
  have lower : (2 ^ 52 : Rat) * 2 ≤ ((|2 * n + 1| : Int) : Rat) ↔ 2 ^ 53 ≤ |2 * n + 1| := by
    rw [← Int.cast_le (R := Rat)]
    norm_num
  have upper : ((|2 * n + 1| : Int) : Rat) < 2 ^ 53 * 2 ↔ |2 * n + 1| < 2 ^ 54 := by
    rw [← Int.cast_lt (R := Rat)]
    norm_num
  rw [lower, upper, Int.abs_eq_natAbs, Int.abs_eq_natAbs]
  omega

/-! ### The sum of a double and a half -/

namespace HasSignificand

variable {q : Rat} {m e n : Int}

/-- A half that is added does not lift the last place, unless it lifts the number over zero or into
the first integers. -/
theorem lastPlace_sum_le (h : HasSignificand q m e) (floor : n ≤ q)
    (next : q + 1 / 2 < n + 1) (nonzero : n ≠ 0) : binary64.lastPlace |q + 1 / 2| ≤ e := by
  obtain negative | positive := lt_or_gt_of_ne nonzero
  · have least : (n : Rat) + 1 ≤ 0 := by exact_mod_cast negative
    have smaller : |q + 1 / 2| ≤ |q| := by
      rw [abs_of_neg (by linarith), abs_of_neg (by linarith)]
      linarith
    exact (Format.lastPlace_mono (abs_pos.mpr (by linarith)) smaller).trans
      (h.lastPlace_le (by linarith))
  · have least : (1 : Rat) ≤ n := by exact_mod_cast positive
    have q_pos : 0 < q := by linarith
    have last := h.lastPlace_le q_pos.ne'
    rw [abs_of_pos q_pos] at last
    rw [abs_of_pos (by linarith)]
    refine le_trans ?_ last
    -- The power of two below the sum is an integer, so it is not above the number itself.
    have sum_pos : 0 < q + 1 / 2 := by linarith
    have lower := floorLog2_le sum_pos
    have log_nonneg : 0 ≤ floorLog2 (q + 1 / 2) := by
      have log : (0 : Int) < floorLog2 (q + 1 / 2) + 1 :=
        (zpow_lt_zpow_iff_right₀ (one_lt_two (α := Rat))).mp
          (lt_of_le_of_lt (by rw [zpow_zero]; linarith) (lt_floorLog2 sum_pos))
      omega
    obtain ⟨log, logEq⟩ := Int.eq_ofNat_of_zero_le log_nonneg
    rw [logEq, zpow_natCast] at lower
    have whole : (2 : Int) ^ log ≤ n := by
      have below : ((2 ^ log : Int) : Rat) < n + 1 := by push_cast; linarith
      exact le_of_cast_lt below
    have upper : (2 : Rat) ^ (log : Int) < 2 ^ (floorLog2 q + 1) := by
      have whole : (2 : Rat) ^ log ≤ n := by exact_mod_cast whole
      have low := lt_floorLog2 q_pos
      rw [zpow_natCast]
      by_contra above
      have above := not_lt.mp above
      linarith
    have logLe : (log : Int) < floorLog2 q + 1 :=
      (zpow_lt_zpow_iff_right₀ (one_lt_two (α := Rat))).mp upper
    rw [Format.lastPlace, Format.lastPlace]
    omega

/-- Between the two greatest doubles below one half there is no other one. -/
theorem le_of_lt_half (h : HasSignificand q m e) (below : q < 1 / 2)
    (other : q ≠ 1 / 2 - 1 / 2 ^ 54) : q ≤ 1 / 2 - 1 / 2 ^ 53 := by
  by_contra above
  have above := not_le.mp above
  have quarter : (2 : Rat) ^ (-2 : Int) ≤ q := by
    norm_num at above ⊢
    linarith
  have q_pos : 0 < q := lt_of_lt_of_le (by positivity) quarter
  have last := h.lastPlace_le q_pos.ne'
  have log : (-2 : Int) < floorLog2 q + 1 :=
    (zpow_lt_zpow_iff_right₀ (one_lt_two (α := Rat))).mp (quarter.trans_lt (lt_floorLog2 q_pos))
  have places : binary64.lastPlace |q| = max (-1074) (floorLog2 q - 52) := by
    rw [abs_of_pos q_pos]
    rfl
  obtain ⟨k, rfl⟩ := h.multiple (show -54 ≤ e by omega)
  have unit : (2 : Rat) ^ (-54 : Int) = 1 / 2 ^ 54 := by norm_num
  rw [unit] at above below other
  have least : ((2 ^ 53 - 2 : Int) : Rat) < k := by
    norm_num at above ⊢
    linarith
  have most : (k : Rat) < (2 ^ 53 : Int) := by
    norm_num at below ⊢
    linarith
  have least : (2 ^ 53 - 2 : Int) < k := by exact_mod_cast least
  have most : k < (2 ^ 53 : Int) := by exact_mod_cast most
  obtain rfl : k = 2 ^ 53 - 1 := by omega
  exact other (by norm_num)

/-- A number of 53 bits before the point has a whole unit. -/
theorem unit_of_large (h : HasSignificand q m e) (large : 2 ^ 52 ≤ |q|) : 0 ≤ e := by
  by_contra fraction
  have short : |(m : Rat)| < 2 ^ 53 := by
    rw [← Int.cast_abs, Int.abs_eq_natAbs]
    exact_mod_cast h.short
  have half : (2 : Rat) ^ e ≤ 2 ^ (-1 : Int) := zpow_le_zpow_right₀ one_le_two (by omega)
  have small : |q| < 2 ^ 52 := calc
    |q| = |(m : Rat)| * 2 ^ e := by
      rw [h.value, abs_mul, abs_of_pos (by positivity : (0 : Rat) < 2 ^ e)]
    _ ≤ |(m : Rat)| * 2 ^ (-1 : Int) := mul_le_mul_of_nonneg_left half (abs_nonneg _)
    _ < 2 ^ 53 * 2 ^ (-1 : Int) := mul_lt_mul_of_pos_right short (by positivity)
    _ = 2 ^ 52 := by norm_num
  linarith

/-- A number with a whole unit is the floor of its sum with a half. -/
theorem eq_floor (h : HasSignificand q m e) (whole : 0 ≤ e) (floor : n ≤ q + 1 / 2)
    (next : q + 1 / 2 < n + 1) : q = n := by
  obtain ⟨k, rfl⟩ := h.multiple whole
  rw [zpow_zero, mul_one] at floor next ⊢
  have above : n ≤ k := le_of_cast_lt (by linarith)
  have below : k ≤ n := le_of_cast_lt (by linarith)
  rw [le_antisymm below above]

/-- A double below one half, but the greatest, is not lifted to one. -/
theorem rounded_lt_one (h : HasSignificand q m e) (floor : 0 ≤ q) (next : q < 1 / 2)
    (other : q ≠ 1 / 2 - 1 / 2 ^ 54) : binary64.rounded (q + 1 / 2) < 1 := by
  have near := (abs_le.mp (binary64.distance_rounded_le (q + 1 / 2))).2
  have low := h.le_of_lt_half next other
  have last := lastPlace_below_one (show 0 < |q + 1 / 2| by rw [abs_pos]; linarith)
    (by rw [abs_of_pos] <;> linarith)
  have half : (2 : Rat) ^ (binary64.lastPlace |q + 1 / 2| - 1) ≤ 2 ^ (-54 : Int) :=
    zpow_le_zpow_right₀ one_le_two (by omega)
  norm_num at half low
  linarith

/-- Above 53 bits a half is lost in the sum. -/
theorem rounded_large (h : HasSignificand q m e) (last : binary64.lastPlace |q + 1 / 2| ≤ e)
    (high : 0 < binary64.lastPlace |q + 1 / 2|) : binary64.rounded (q + 1 / 2) = q := by
  obtain ⟨count, value⟩ := h.multiple last
  have near := abs_le.mp (binary64.distance_rounded_le (q + 1 / 2))
  have unit_pos : (0 : Rat) < 2 ^ binary64.lastPlace |q + 1 / 2| := by positivity
  have halves : (2 : Rat) ^ binary64.lastPlace |q + 1 / 2| =
      2 * 2 ^ (binary64.lastPlace |q + 1 / 2| - 1) := by
    rw [← zpow_one_add₀ two_ne_zero, add_sub_cancel]
  have one_le : (1 : Rat) ≤ 2 ^ (binary64.lastPlace |q + 1 / 2| - 1) :=
    one_le_zpow₀ one_le_two (by omega)
  -- Both are whole numbers of last places, less than one apart.
  rw [Format.rounded] at near ⊢
  generalize roundHalfEven _ = reached at near ⊢
  generalize (2 : Rat) ^ (binary64.lastPlace |q + 1 / 2| - 1) = half at near halves one_le
  have below : (reached : Rat) < count + 1 := by
    refine lt_of_mul_lt_mul_right ?_ unit_pos.le
    rw [add_mul, one_mul, ← value]
    linarith
  have above : (count : Rat) < reached + 1 := by
    refine lt_of_mul_lt_mul_right ?_ unit_pos.le
    rw [add_mul, one_mul, ← value]
    linarith
  rw [le_antisymm (le_of_cast_lt below) (le_of_cast_lt above)]
  exact value.symm

/-- The upper half of an integer step, behind the first one: a sum with units for last places is
half way to the next integer, and a finer one is exact. -/
theorem rounded_upper (h : HasSignificand q m e) (floor : n ≤ q) (next : q + 1 / 2 < n + 1)
    (nonzero : n ≠ 0) (fine : binary64.lastPlace |q + 1 / 2| ≤ 0) (kept : ¬Misrounded q) :
    binary64.rounded (q + 1 / 2) < n + 1 := by
  have last := h.lastPlace_sum_le floor next nonzero
  obtain finer | units := fine.lt_or_eq
  · obtain ⟨count, value⟩ := h.multiple last
    have half : (1 / 2 : Rat) = ((2 ^ (-1 - binary64.lastPlace |q + 1 / 2|).toNat : Int) : Rat) *
        2 ^ binary64.lastPlace |q + 1 / 2| := by
      push_cast
      rw [← zpow_natCast, Int.toNat_of_nonneg (by omega), ← zpow_add₀ two_ne_zero,
        Int.sub_add_cancel]
      norm_num
    have sum : q + 1 / 2 =
        ((count + 2 ^ (-1 - binary64.lastPlace |q + 1 / 2|).toNat : Int) : Rat) *
          2 ^ binary64.lastPlace |q + 1 / 2| := by
      rw [Int.cast_add, add_mul, ← value, ← half]
    rw [Format.rounded_multiple sum le_rfl]
    exact next
  · have same := h.eq_floor (units ▸ last) (floor.trans (by linarith)) next
    rw [same, rounded_half (same ▸ units)]
    split
    · linarith
    · next odd =>
      rw [same] at units
      exact absurd (.inr ⟨n, same, by omega, (lastPlace_half_odd (by omega)).mp units⟩) kept

/-- **Where the sum is not misrounded, rounding it leaves its floor as it is.** -/
theorem floor_rounded (h : HasSignificand q m e) (floor : n ≤ q + 1 / 2)
    (next : q + 1 / 2 < n + 1) (kept : ¬Misrounded q) :
    (n : Rat) ≤ binary64.rounded (q + 1 / 2) ∧ binary64.rounded (q + 1 / 2) < n + 1 := by
  obtain high | fine := lt_or_ge 0 (binary64.lastPlace |q + 1 / 2|)
  · have positive : 0 < |q + 1 / 2| := by
      refine lt_of_le_of_ne (abs_nonneg _) fun none => ?_
      rw [← none] at high
      exact absurd high (by decide)
    have places : binary64.precision - 1 = 52 := rfl
    have normal := @Format.normal_le binary64 _ positive (lt_trans (by decide) high)
    rw [places] at normal
    have large : (2 : Rat) ^ 53 ≤ |q + 1 / 2| := calc
      (2 : Rat) ^ 53 = 2 ^ (53 : Int) := by norm_num
      _ ≤ 2 ^ ((52 : Nat) + binary64.lastPlace |q + 1 / 2|) :=
        zpow_le_zpow_right₀ one_le_two (by omega)
      _ ≤ |q + 1 / 2| := normal
    have apart := abs_add_le q (1 / 2)
    rw [abs_of_pos (by norm_num : (0 : Rat) < 1 / 2)] at apart
    have atLeast : (2 : Rat) ^ 52 ≤ |q| := by
      norm_num at large ⊢
      linarith
    have same := h.eq_floor (h.unit_of_large atLeast) floor next
    have nonzero : n ≠ 0 := by
      rintro rfl
      rw [same] at atLeast
      norm_num at atLeast
    rw [h.rounded_large (h.lastPlace_sum_le same.ge next nonzero) high]
    constructor <;> linarith
  · refine ⟨le_rounded fine floor, ?_⟩
    obtain lower | upper := lt_or_ge q n
    · have near := (abs_le.mp (binary64.distance_rounded_le (q + 1 / 2))).2
      have half : (2 : Rat) ^ (binary64.lastPlace |q + 1 / 2| - 1) ≤ 2 ^ (-1 : Int) :=
        zpow_le_zpow_right₀ one_le_two (by omega)
      norm_num at half
      linarith
    · obtain rfl | nonzero := eq_or_ne n 0
      · rw [Int.cast_zero] at upper next
        simpa using h.rounded_lt_one upper (by linarith) fun same => kept (.inl same)
      · exact h.rounded_upper upper next nonzero fine kept

end HasSignificand

/-- Where the sum is misrounded, it is rounded to the next integer. -/
theorem rounded_of_misrounded {q : Rat} (misrounded : Misrounded q) :
    binary64.rounded (q + 1 / 2) = ((⌊q + 1 / 2⌋ + 1 : Int) : Rat) := by
  obtain rfl | ⟨n, rfl, odd, range⟩ := misrounded
  · have below : ⌊(1 / 2 - 1 / 2 ^ 54 + 1 / 2 : Rat)⌋ = 0 := by
      rw [Int.floor_eq_iff]
      norm_num
    rw [below]
    decide +kernel
  · have floor : ⌊(n : Rat) + 1 / 2⌋ = n := by
      rw [Int.floor_eq_iff]
      constructor <;> linarith
    rw [rounded_half ((lastPlace_half_odd odd).mpr range), if_neg (by omega), floor, Int.cast_add,
      Int.cast_one]

/-! ### Rounding -/

namespace Double

open MathFunction (whole rounded)

variable {x : Double} {q : Rat}

/-- The sum with a half. -/
theorem add_half (value : x.toRat? = some q) :
    (x.add (.ofRat false (1 / 2))).toRat? = some (binary64.rounded (q + 1 / 2)) := by
  have half : (ofRat false (1 / 2)).toRat? = some (1 / 2) := by decide +kernel
  have small : |q + 1 / 2| < overflow := by
    refine (abs_add_le _ _).trans_lt ?_
    rw [abs_of_pos (by norm_num : (0 : Rat) < 1 / 2)]
    obtain ⟨m, e, significand⟩ := exists_significand value
    exact significand.abs_lt_overflow
  rw [add, value, half]
  exact toRat?_ofRat_rounded _ small

/-- The floor of a double is a double. -/
theorem whole_floor (value : x.toRat? = some q) :
    (whole Rat.floor x).toRat? = some (⌊q⌋ : Rat) := by
  obtain ⟨m, e, significand⟩ := exists_significand value
  obtain ⟨m', e', floor⟩ := significand.floor
  rw [whole, value]
  exact floor.toRat?_ofRat false

theorem toIntegral_whole {n : Int} (value : x.toRat? = some (n : Rat)) :
    Arithmetic.toIntegral x 64 = clamp n 64 := by
  have number : x.isNaN = false := by
    cases x with
    | nan mark => cases value
    | signed negative index => rfl
  have whole : truncate (n : Rat) = n := by
    rw [truncate, Rat.floor_intCast, ← Int.cast_neg, Rat.floor_intCast, Int.neg_neg, ite_self]
  simp only [Arithmetic.toIntegral, value, number, whole]
  rfl

/-- The integer that the floor of the sum comes to, kept in the range of a `long`. -/
theorem rounded_eq {n : Int} (value : x.toRat? = some q)
    (floor : ⌊binary64.rounded (q + 1 / 2)⌋ = n) :
    rounded (.floating x false) = .long (max (-2 ^ 63) (min (2 ^ 63 - 1) n)) := by
  have finite : x.isFinite = true := by
    by_contra infinite
    cases x with
    | nan mark => cases value
    | signed negative index =>
      rw [isFinite, bne_iff_ne, not_not] at infinite
      rw [toRat?, if_pos infinite] at value
      cases value
  have cut := toIntegral_whole (whole_floor (add_half value))
  simp only [rounded, finite, if_true, if_false, Bool.false_eq_true]
  rw [cut, floor, integral, Bool.not_false, if_pos rfl,
    wrap_same (by decide) (clamp_inBits n 64), clamp, shift_cast]

/-- **The integer that a finite double is rounded to** is the floor of its exact sum with a half,
kept in the range of a `long`, unless the sum is misrounded; then it is the next integer. So an
integral double stays what it is, up to the odd integers of 53 bits. -/
theorem round_nearest (value : x.toRat? = some q) (store : Store) :
    (¬Misrounded q → (Host.callFunction (.math .round) [.double x]).outcome store =
      (.ok (.long (max (-2 ^ 63) (min (2 ^ 63 - 1) ⌊q + 1 / 2⌋))), store)) ∧
    (Misrounded q → (Host.callFunction (.math .round) [.double x]).outcome store =
      (.ok (.long (max (-2 ^ 63) (min (2 ^ 63 - 1) (⌊q + 1 / 2⌋ + 1)))), store)) ∧
    ∀ n : Int, q = n → InBits 64 n → (n % 2 = 1 → |n| ≤ 2 ^ 52 ∨ 2 ^ 53 ≤ |n|) →
      (Host.callFunction (.math .round) [.double x]).outcome store = (.ok (.long n), store) := by
  have outcome {n : Int} (floor : ⌊binary64.rounded (q + 1 / 2)⌋ = n) :
      (Host.callFunction (.math .round) [.double x]).outcome store =
        (.ok (.long (max (-2 ^ 63) (min (2 ^ 63 - 1) n))), store) := by
    rw [← rounded_eq value floor]
    have answer := rounded_eq value floor
    change (Action.ofResult (.ok (rounded (.floating x false)))).outcome store = _
    rw [answer]
    rfl
  have exactly (kept : ¬Misrounded q) : ⌊binary64.rounded (q + 1 / 2)⌋ = ⌊q + 1 / 2⌋ := by
    obtain ⟨m, e, significand⟩ := exists_significand value
    exact Int.floor_eq_iff.mpr
      (significand.floor_rounded (Int.floor_le _) (Int.lt_floor_add_one _) kept)
  refine ⟨fun kept => outcome (exactly kept), fun misrounded => outcome ?_, ?_⟩
  · rw [rounded_of_misrounded misrounded, Int.floor_intCast]
  · rintro n rfl ⟨atLeast, below⟩ fine
    have kept : ¬Misrounded (n : Rat) := by
      rintro (half | ⟨other, same, odd, above, short⟩)
      · have positive : (0 : Rat) < n := by rw [half]; norm_num
        have small : (n : Rat) < 1 := by rw [half]; norm_num
        have positive : 0 < n := by exact_mod_cast positive
        have small : n < 1 := by exact_mod_cast small
        omega
      · obtain rfl : n = other := by exact_mod_cast same
        have := fine odd
        omega
    have floor : ⌊(n : Rat) + 1 / 2⌋ = n := by
      rw [Int.floor_eq_iff]
      constructor <;> linarith
    rw [outcome (exactly kept), floor, min_eq_right (by omega), max_eq_right atLeast]

/-- A half goes up, also below zero. -/
theorem negativeHalf_rounds :
    (ofRat false (-5 / 2)).toRat? = some (-5 / 2) ∧ ¬Misrounded (-5 / 2) ∧
      (Host.callFunction (.math .round) [.double (.ofRat false (-5 / 2))]).outcome Store.initial =
        (.ok (.long (-2)), Store.initial) := by
  have value : (ofRat false (-5 / 2)).toRat? = some (-5 / 2) := by decide +kernel
  have kept : ¬Misrounded (-5 / 2) := by
    rintro (same | ⟨n, same, -⟩)
    · norm_num at same
    · have twice : ((-5 : Int) : Rat) = (2 * n : Int) := by
        push_cast
        linarith
      have twice : -5 = 2 * n := by exact_mod_cast twice
      omega
  have floor : ⌊(-5 / 2 + 1 / 2 : Rat)⌋ = -2 := by
    rw [Int.floor_eq_iff]
    norm_num
  have rounds := (round_nearest value Store.initial).1 kept
  rw [floor] at rounds
  exact ⟨value, kept, rounds⟩

/-- The greatest double below one half is rounded to one. -/
theorem belowHalf_roundsUp :
    (ofRat false (1 / 2 - 1 / 2 ^ 54)).toRat? = some (1 / 2 - 1 / 2 ^ 54) ∧
      ⌊(1 / 2 - 1 / 2 ^ 54 + 1 / 2 : Rat)⌋ = 0 ∧
      (Host.callFunction (.math .round) [.double (.ofRat false (1 / 2 - 1 / 2 ^ 54))]).outcome
        Store.initial = (.ok (.long 1), Store.initial) := by
  have value : (ofRat false (1 / 2 - 1 / 2 ^ 54)).toRat? = some (1 / 2 - 1 / 2 ^ 54) := by
    decide +kernel
  refine ⟨value, ?_, ?_⟩
  · rw [Int.floor_eq_iff]
    norm_num
  · have answer : rounded (.floating (.ofRat false (1 / 2 - 1 / 2 ^ 54)) false) = .long 1 := by
      decide +kernel
    change (Action.ofResult (.ok (rounded (.floating (.ofRat false (1 / 2 - 1 / 2 ^ 54))
      false)))).outcome Store.initial = _
    rw [answer]
    rfl

end Double

end Formulary
