/-
The exact values of a format.

A number of a magnitude counts the magnitudes below it, so the values grow with the numbers. What a
rational below the bound of the format is rounded to is a whole number of its last places, at most
half a last place away from it.

* `roundHalfEven_isNearest`, `IsNearest.unique` — what rounding to an integer is.
* `IsMultiple.lower`, `IsMultiple.eq_of_near` — whole numbers of a unit.
* `Format.magnitude_strictMono` — the order of the magnitudes is the one of their numbers.
* `Format.rounded`, `Double.toRat?_ofRat_rounded` — the value of a rounded rational.
* `HasSignificand`, `Double.exists_significand` — a finite double is a significand with an exponent.
-/

import Formulary.Proofs.Overflow

namespace Formulary

/-! ### The nearest integer -/

/-- An integer is nearest to a rational; of two that are equally near the even one is. -/
def IsNearest (q : Rat) (n : Int) : Prop :=
  |(n : Rat) - q| < 1 / 2 ∨ |(n : Rat) - q| = 1 / 2 ∧ n % 2 = 0

theorem roundHalfEven_isNearest (q : Rat) : IsNearest q (roundHalfEven q) := by
  have lower := Rat.floor_le q
  have upper := Int.lt_floor_add_one q
  rw [roundHalfEven]
  change _ < ((q.floor : Int) : Rat) + 1 at upper
  generalize q.floor = low at lower upper ⊢
  have below : |(low : Rat) - q| = q - low := by rw [abs_of_nonpos (by linarith)]; ring
  have above : |((low + 1 : Int) : Rat) - q| = low + 1 - q := by
    rw [abs_of_pos (by push_cast; linarith)]
    push_cast
    ring
  split
  · exact .inl (by rw [below]; linarith)
  · split
    · exact .inl (by rw [above]; linarith)
    · have tie : q - low = 1 / 2 := by linarith
      split
      · next even => exact .inr ⟨by rw [below, tie], even⟩
      · exact .inr ⟨by rw [above]; linarith, by omega⟩

theorem IsNearest.distance_le {q : Rat} {n : Int} (nearest : IsNearest q n) :
    |(n : Rat) - q| ≤ 1 / 2 := by
  obtain near | ⟨tie, -⟩ := nearest
  · exact near.le
  · exact tie.le

/-- Only one integer is nearest. -/
theorem IsNearest.unique {q : Rat} {m n : Int} (first : IsNearest q m) (second : IsNearest q n) :
    m = n := by
  -- Two different ones would be one apart, both half away from the rational and both even.
  by_contra different
  have apart : (1 : Rat) ≤ |(m : Rat) - n| := by
    exact_mod_cast Int.one_le_abs (sub_ne_zero.mpr different)
  have triangle : |(m : Rat) - n| ≤ |(m : Rat) - q| + |(n : Rat) - q| := by
    rw [abs_sub_comm (n : Rat) q]
    exact abs_sub_le _ _ _
  have mLe := first.distance_le
  have nLe := second.distance_le
  obtain near | ⟨-, mEven⟩ := first
  · linarith
  obtain near | ⟨-, nEven⟩ := second
  · linarith
  have one : |(m : Rat) - n| = 1 := by linarith
  have oneInt : |m - n| = 1 := by exact_mod_cast one
  obtain step | step := (abs_eq one_pos.le).mp oneInt <;> omega

theorem IsNearest.neg {q : Rat} {n : Int} (nearest : IsNearest q n) : IsNearest (-q) (-n) := by
  have same : |((-n : Int) : Rat) - -q| = |(n : Rat) - q| := by
    rw [← abs_neg]
    push_cast
    ring_nf
  rw [IsNearest, same]
  exact nearest.imp_right fun ⟨tie, even⟩ => ⟨tie, by omega⟩

theorem roundHalfEven_neg (q : Rat) : roundHalfEven (-q) = -roundHalfEven q :=
  (roundHalfEven_isNearest (-q)).unique (roundHalfEven_isNearest q).neg

/-- Half way between two integers the even one is taken. -/
theorem roundHalfEven_half (i : Int) :
    roundHalfEven (i + 1 / 2) = if i % 2 = 0 then i else i + 1 := by
  refine (roundHalfEven_isNearest _).unique ?_
  split
  · next even => exact .inr ⟨by rw [abs_of_nonpos] <;> linarith, even⟩
  · refine .inr ⟨?_, by omega⟩
    push_cast
    rw [abs_of_nonneg] <;> linarith

/-! ### Whole numbers of a unit -/

/-- A whole number of a unit. -/
def IsMultiple (q unit : Rat) : Prop :=
  ∃ count : Int, q = count * unit

namespace IsMultiple

variable {a b q unit : Rat}

/-- A multiple of a power is one of every lower power. -/
theorem lower {r : Nat} (given : r ≠ 0) {low high : Int}
    (h : IsMultiple q ((r : Rat) ^ high)) (le : low ≤ high) :
    IsMultiple q ((r : Rat) ^ low) := by
  obtain ⟨count, rfl⟩ := h
  refine ⟨count * r ^ (high - low).toNat, ?_⟩
  push_cast
  rw [mul_assoc, ← zpow_natCast (r : Rat), Int.toNat_of_nonneg (by omega),
    ← zpow_add₀ (by exact_mod_cast given), Int.sub_add_cancel]

theorem power {r : Nat} (given : r ≠ 0) {low high : Int} (le : low ≤ high) :
    IsMultiple ((r : Rat) ^ high) ((r : Rat) ^ low) :=
  lower given ⟨1, by rw [Int.cast_one, one_mul]⟩ le

/-- Two multiples of a unit are the same if they are less than the unit apart. -/
theorem eq_of_near (positive : 0 < unit) (first : IsMultiple a unit) (second : IsMultiple b unit)
    (near : |a - b| < unit) : a = b := by
  obtain ⟨m, rfl⟩ := first
  obtain ⟨n, rfl⟩ := second
  rw [← sub_mul, abs_mul, abs_of_pos positive, mul_lt_iff_lt_one_left positive] at near
  have same : |m - n| < 1 := by exact_mod_cast near
  rw [sub_eq_zero.mp (Int.abs_lt_one_iff.mp same)]

/-- Two multiples of a unit are at least the unit apart if one is above the other. -/
theorem add_le_of_lt (positive : 0 < unit) (first : IsMultiple a unit) (second : IsMultiple b unit)
    (lt : a < b) : a + unit ≤ b := by
  obtain ⟨m, rfl⟩ := first
  obtain ⟨n, rfl⟩ := second
  have step : (m : Rat) + 1 ≤ n := by
    exact_mod_cast Int.add_one_le_iff.mpr (by exact_mod_cast lt_of_mul_lt_mul_right lt positive.le)
  calc (m : Rat) * unit + unit = (m + 1) * unit := by ring
    _ ≤ n * unit := mul_le_mul_of_nonneg_right step positive.le

end IsMultiple

namespace Format

variable {format : Format} {q : Rat}

/-! ### The order of the magnitudes -/

/-- The value of a magnitude that a count of last places comes to, the carry into the next run
included. -/
theorem magnitude_count {steps count : Nat} (short : count ≤ 2 * format.runLength)
    (normal : steps = 0 ∨ format.runLength ≤ count) :
    format.magnitude (steps * format.runLength + count) =
      count * 2 ^ (format.minExponent + steps) := by
  obtain within | carried := short.lt_or_eq
  · exact magnitude_run within normal
  · -- Two runs of one exponent are one run of the next one.
    have positive := format.runLength_pos
    have index : steps * format.runLength + count =
        (steps + 1) * format.runLength + format.runLength := by rw [carried]; ring
    rw [index, magnitude_run (by omega) (.inr le_rfl), carried]
    push_cast
    rw [← add_assoc, zpow_add_one₀ two_ne_zero]
    ring

/-- Every number of a magnitude is a count of last places behind a number of runs. -/
theorem exists_count (format : Format) (index : Nat) : ∃ steps count,
    index = steps * format.runLength + count ∧ count < 2 * format.runLength ∧
      (steps = 0 ∨ format.runLength ≤ count) := by
  have positive := format.runLength_pos
  have inRun := Nat.mod_lt index positive
  have parts := Nat.div_add_mod' index format.runLength
  cases run : index / format.runLength with
  | zero =>
    rw [run, Nat.zero_mul] at parts
    exact ⟨0, index, by omega, by omega, .inl rfl⟩
  | succ steps =>
    rw [run, Nat.succ_mul] at parts
    exact ⟨steps, format.runLength + index % format.runLength, by omega, by omega,
      .inr (Nat.le_add_right _ _)⟩

/-- **The values of the magnitudes grow with their numbers.** -/
theorem magnitude_strictMono (format : Format) : StrictMono format.magnitude := by
  refine strictMono_nat_of_lt_succ fun index => ?_
  obtain ⟨steps, count, rfl, short, normal⟩ := format.exists_count index
  rw [Nat.add_assoc, magnitude_run short normal,
    magnitude_count short (normal.imp_right (Nat.le_succ_of_le ·))]
  have more : (count : Rat) < (count + 1 : Nat) := by exact_mod_cast Nat.lt_succ_self count
  exact mul_lt_mul_of_pos_right more (by positivity)

/-! ### Rounded rationals -/

/-- What a rational is rounded to, without a bound: a whole number of its last places. -/
def rounded (format : Format) (q : Rat) : Rat :=
  roundHalfEven (q * 2 ^ (-format.lastPlace |q|)) * 2 ^ format.lastPlace |q|

@[simp] theorem rounded_zero (format : Format) : format.rounded 0 = 0 := by
  rw [rounded, zero_mul, ← Int.cast_zero, roundHalfEven_intCast, Int.cast_zero, zero_mul]

theorem rounded_neg (format : Format) (q : Rat) : format.rounded (-q) = -format.rounded q := by
  rw [rounded, rounded, abs_neg, neg_mul, roundHalfEven_neg]
  push_cast
  ring

/-- The value of a rational that is rounded to a magnitude of the format. -/
theorem Proper.magnitude_nearest_eq (proper : format.Proper) (positive : 0 < q)
    (below : q < format.overflow) :
    format.magnitude (format.nearest q) = format.rounded q := by
  have finite : format.nearest q ≠ format.infinity :=
    mt (proper.nearest_infinite_iff positive).mp below.not_ge
  have deep : format.minExponent ≤ format.lastPlace q := le_max_left _ _
  obtain ⟨steps, place⟩ := Int.le.dest deep
  have nonneg : 0 ≤ format.significand q :=
    (Rat.le_floor_iff.mpr (by push_cast; positivity)).trans (floor_le_roundHalfEven _)
  have normal : steps = 0 ∨ format.runLength ≤ (format.significand q).toNat := by
    by_cases lowest : steps = 0
    · exact .inl lowest
    · exact .inr (full_significand positive (by omega))
  have index : format.nearest q = steps * format.runLength + (format.significand q).toNat := by
    have eq := @nearest_eq format q positive
    rw [← place, add_sub_cancel_left, Int.toNat_natCast] at eq
    omega
  rw [index, magnitude_count (proper.significand_le positive) normal, place, rounded,
    abs_of_pos positive, ← Int.cast_natCast (format.significand q).toNat,
    Int.toNat_of_nonneg nonneg, significand]

/-- A rational is rounded by half a last place at most. -/
theorem distance_rounded_le (format : Format) (q : Rat) :
    |format.rounded q - q| ≤ 2 ^ (format.lastPlace |q| - 1) := by
  have unit_pos : (0 : Rat) < 2 ^ format.lastPlace |q| := by positivity
  have near := (roundHalfEven_isNearest (q * 2 ^ (-format.lastPlace |q|))).distance_le
  have scaled : format.rounded q - q =
      (roundHalfEven (q * 2 ^ (-format.lastPlace |q|)) - q * 2 ^ (-format.lastPlace |q|)) *
        2 ^ format.lastPlace |q| := by
    rw [sub_mul, mul_assoc q, ← zpow_add₀ two_ne_zero, Int.add_left_neg, zpow_zero, mul_one,
      rounded]
  rw [scaled, abs_mul, abs_of_pos unit_pos, zpow_sub_one₀ two_ne_zero]
  calc _ ≤ 1 / 2 * (2 : Rat) ^ format.lastPlace |q| := mul_le_mul_of_nonneg_right near unit_pos.le
    _ = _ := by ring

/-- A whole number of last places, or of higher ones, is not rounded. -/
theorem rounded_multiple {m e : Int} (value : q = m * 2 ^ e) (last : format.lastPlace |q| ≤ e) :
    format.rounded q = q := by
  obtain ⟨count, isCount⟩ := IsMultiple.lower (r := 2) two_ne_zero ⟨m, value⟩ last
  have scaled : q * 2 ^ (-format.lastPlace |q|) = count := by
    rw [zpow_neg, ← div_eq_mul_inv, div_eq_iff (by positivity)]
    exact isCount
  rw [rounded, scaled, roundHalfEven_intCast]
  exact isCount.symm

/-- The last place of a short significand is not above its own unit. -/
theorem Proper.lastPlace_abs_le (proper : format.Proper) {m e : Int} (nonzero : m ≠ 0)
    (short : m.natAbs < 2 ^ format.precision) (deep : format.minExponent ≤ e) :
    format.lastPlace |(m : Rat) * 2 ^ e| ≤ e := by
  have magnitude : |(m : Rat) * 2 ^ e| = (m.natAbs : Rat) * 2 ^ e := by
    rw [abs_mul, abs_of_pos (by positivity : (0 : Rat) < 2 ^ e), Nat.cast_natAbs, Int.cast_abs]
  rw [magnitude]
  exact proper.lastPlace_le (Int.natAbs_pos.mpr nonzero) short deep

/-- A short significand with an exponent that is not too small is not rounded. -/
theorem Proper.rounded_significand (proper : format.Proper) {m e : Int}
    (short : m.natAbs < 2 ^ format.precision) (deep : format.minExponent ≤ e) :
    format.rounded (m * 2 ^ e) = m * 2 ^ e := by
  obtain rfl | nonzero := eq_or_ne m 0
  · rw [Int.cast_zero, zero_mul, rounded_zero]
  · exact rounded_multiple rfl (proper.lastPlace_abs_le nonzero short deep)

/-- Greater rationals have no lower last place. -/
theorem lastPlace_mono {a b : Rat} (positive : 0 < a) (le : a ≤ b) :
    format.lastPlace a ≤ format.lastPlace b := by
  have log : floorLog2 a < floorLog2 b + 1 :=
    floorLog2_lt positive (le.trans_lt (lt_floorLog2 (positive.trans_le le)))
  rw [lastPlace, lastPlace]
  omega

end Format

/-! ### Double precision -/

namespace Double

/-- **The value of the double nearest to a rational below the bound.** -/
theorem toRat?_ofRat_rounded (zeroSign : Bool) {q : Rat} (below : |q| < overflow) :
    (ofRat zeroSign q).toRat? = some (Format.binary64.rounded q) := by
  rw [← binary64_overflow] at below
  have proper := Format.binary64_proper
  have finite {q : Rat} (positive : 0 < q) (below : q < Format.binary64.overflow) :
      Format.binary64.nearest q < Format.binary64.infinity :=
    lt_of_le_of_ne (Format.nearest_le q)
      (mt (proper.nearest_infinite_iff positive).mp below.not_ge)
  rw [ofRat]
  obtain negative | rfl | positive := lt_trichotomy q 0
  · rw [abs_of_neg negative] at below
    have flipped : 0 < -q := neg_pos.mpr negative
    rw [if_neg negative.ne, if_pos negative, toRat?_ofIndex true (finite flipped below),
      proper.magnitude_nearest_eq flipped below, Format.rounded_neg, if_pos rfl, neg_neg]
  · rw [if_pos rfl, zero, toRat?_ofIndex zeroSign (by decide)]
    simp
  · rw [abs_of_pos positive] at below
    rw [if_neg positive.ne', if_neg positive.le.not_gt,
      toRat?_ofIndex false (finite positive below),
      proper.magnitude_nearest_eq positive below, if_neg Bool.false_ne_true]

end Double

/-- A rational that a finite double can hold: a significand of 53 bits with an exponent in the range
of the format. -/
structure HasSignificand (q : Rat) (m e : Int) : Prop where
  value : q = m * 2 ^ e
  short : m.natAbs < 2 ^ 53
  deep : -1074 ≤ e
  high : e ≤ 971

namespace HasSignificand

variable {q : Rat} {m e : Int}

/-- A multiple of a power of two is one of every lower power. -/
theorem multiple (h : HasSignificand q m e) {place : Int} (below : place ≤ e) :
    IsMultiple q (2 ^ place) :=
  IsMultiple.lower (r := 2) two_ne_zero ⟨m, h.value⟩ below

theorem lastPlace_le (h : HasSignificand q m e) (nonzero : q ≠ 0) :
    Format.binary64.lastPlace |q| ≤ e := by
  have m_nonzero : m ≠ 0 := by
    rintro rfl
    exact nonzero (by simp [h.value])
  rw [h.value]
  exact Format.binary64_proper.lastPlace_abs_le m_nonzero h.short h.deep

/-- What is not rounded stays as it is. -/
theorem rounded_eq (h : HasSignificand q m e) : Format.binary64.rounded q = q := by
  rw [h.value]
  exact Format.binary64_proper.rounded_significand h.short h.deep

/-- The greatest absolute value with an exponent. -/
theorem abs_le_greatest (h : HasSignificand q m e) : |q| ≤ (2 ^ 53 - 1) * 2 ^ e := by
  have longest : |(m : Rat)| ≤ 2 ^ 53 - 1 := by
    have short := h.short
    rw [← Int.cast_abs, Int.abs_eq_natAbs, ← Int.cast_ofNat, ← Int.cast_one, ← Int.cast_pow,
      ← Int.cast_sub, Int.cast_le]
    omega
  rw [h.value, abs_mul, abs_of_pos (by positivity : (0 : Rat) < 2 ^ e)]
  exact mul_le_mul_of_nonneg_right longest (by positivity)

/-- Finite doubles stay away from the bound. -/
theorem abs_lt_overflow (h : HasSignificand q m e) : |q| + 1 / 2 < Double.overflow := by
  have unit : (2 : Rat) ^ e ≤ 2 ^ 971 := by
    rw [← zpow_natCast]
    exact zpow_le_zpow_right₀ one_le_two h.high
  have powers : (2 : Rat) ^ 1024 = 2 ^ 54 * 2 ^ 970 := by rw [← pow_add]
  have half : (2 : Rat) ^ 971 = 2 * 2 ^ 970 := by rw [← pow_succ']
  have one_le : (1 : Rat) ≤ 2 ^ 970 := one_le_pow₀ one_le_two
  have largest := h.abs_le_greatest
  rw [Double.overflow, powers]
  rw [half] at unit
  generalize (2 : Rat) ^ 970 = top at unit one_le ⊢
  calc |q| + 1 / 2 ≤ (2 ^ 53 - 1) * (2 * top) + 1 / 2 := by
        refine add_le_add_left (largest.trans (mul_le_mul_of_nonneg_left unit ?_)) _
        norm_num
    _ < 2 ^ 54 * top - top := by linarith

theorem toRat?_ofRat (h : HasSignificand q m e) (zeroSign : Bool) :
    (Double.ofRat zeroSign q).toRat? = some q := by
  have below := h.abs_lt_overflow
  rw [Double.toRat?_ofRat_rounded zeroSign (by linarith), h.rounded_eq]

/-- The floor of a double is one. -/
theorem floor (h : HasSignificand q m e) : ∃ m e : Int, HasSignificand (⌊q⌋ : Rat) m e := by
  obtain whole | fraction := le_or_gt 0 e
  · obtain ⟨k, same⟩ := h.multiple whole
    rw [zpow_zero, mul_one] at same
    rw [same, Int.floor_intCast, ← same]
    exact ⟨m, e, h⟩
  · -- Fewer than 53 bits stand before the point.
    have half : (2 : Rat) ^ e ≤ 1 / 2 := by
      have := zpow_le_zpow_right₀ (one_le_two (α := Rat)) (show e ≤ -1 by omega)
      simpa using this
    have small : |q| < 2 ^ 52 := by
      have := h.abs_le_greatest
      linarith
    obtain ⟨lower, upper⟩ := abs_lt.mp small
    have atLeast : (-2 ^ 52 : Int) ≤ ⌊q⌋ := Int.le_floor.mpr (by push_cast; exact lower.le)
    have below : ⌊q⌋ < (2 ^ 52 : Int) := Int.floor_lt.mpr (by push_cast; exact upper)
    exact ⟨⌊q⌋, 0, by rw [zpow_zero, mul_one], by omega, by decide, by decide⟩

end HasSignificand

/-- **A finite double is a significand with an exponent.** -/
theorem Double.exists_significand {x : Double} {q : Rat} (value : x.toRat? = some q) :
    ∃ m e : Int, HasSignificand q m e := by
  cases x with
  | nan mark => cases value
  | signed negative index =>
    rw [toRat?] at value
    split at value
    · cases value
    · next finite =>
      have bound : index.val < Format.binary64.infinity := by
        have := index.isLt
        change index.val < 0x7FF0000000000000
        omega
      obtain ⟨short, deep, high⟩ := Format.binary64_proper.decode_range bound
      rw [Format.magnitude] at value
      generalize Format.binary64.decode index.val = decoded at *
      obtain ⟨m, e⟩ := decoded
      have high : e ≤ 971 := by simpa [Format.binary64] using high
      cases negative with
      | true =>
        cases value
        exact ⟨-m, e, by rw [if_pos rfl]; push_cast; ring, by rwa [Int.natAbs_neg], deep, high⟩
      | false =>
        cases value
        exact ⟨m, e, rfl, short, deep, high⟩

end Formulary
