/-
Rounding is exact where nothing has to be cut off.

* `floorLog2_le`, `lt_floorLog2` — the binary logarithm is the one it is said to be.
* `Format.magnitude_nearest` — a significand that fits into a format, with an exponent in
  the range of the format, is a magnitude of the format; the nearest magnitude is itself.
* `Double.toSingle_isSingle` — what has been rounded to single precision is of single
  precision: the double that keeps it has lost nothing.
-/

import Formulary.Number.Double
import Mathlib

namespace Formulary

/-! ### Binary logarithms -/

/-- A positive rational as a quotient of natural numbers. -/
theorem eq_div_toNat {q : Rat} (pos : 0 < q) : q = (q.num.toNat : Rat) / (q.den : Rat) := by
  have same : ((q.num.toNat : Int) : Rat) = (q.num : Rat) := by
    rw [Int.toNat_of_nonneg (Rat.num_pos.mpr pos).le]
  rw [← Int.cast_natCast, same, Rat.num_div_den]

/-- The quotient of two numbers lies within a factor of two around the quotient of their
leading powers. -/
theorem div_between {n d : Nat} (n_pos : n ≠ 0) (d_pos : d ≠ 0) :
    (2 : Rat) ^ ((n.log2 : Int) - d.log2 - 1) ≤ n / d ∧
      (n : Rat) / d < 2 ^ ((n.log2 : Int) - d.log2 + 1) := by
  have n_ge : (2 : Rat) ^ n.log2 ≤ n := by exact_mod_cast Nat.log2_self_le n_pos
  have n_lt : (n : Rat) < 2 ^ (n.log2 + 1) := by exact_mod_cast Nat.lt_log2_self
  have d_ge : (2 : Rat) ^ d.log2 ≤ d := by exact_mod_cast Nat.log2_self_le d_pos
  have d_lt : (d : Rat) < 2 ^ (d.log2 + 1) := by exact_mod_cast Nat.lt_log2_self
  have d_gt : (0 : Rat) < d := lt_of_lt_of_le (by positivity) d_ge
  constructor
  · have split : (2 : Rat) ^ ((n.log2 : Int) - d.log2 - 1) = 2 ^ n.log2 / 2 ^ (d.log2 + 1) := by
      rw [← zpow_natCast, ← zpow_natCast, ← zpow_sub₀ two_ne_zero]
      congr 1
      push_cast
      ring
    rw [split]
    exact div_le_div₀ (by positivity) n_ge d_gt d_lt.le
  · have split : (2 : Rat) ^ ((n.log2 : Int) - d.log2 + 1) = 2 ^ (n.log2 + 1) / 2 ^ d.log2 := by
      rw [← zpow_natCast, ← zpow_natCast, ← zpow_sub₀ two_ne_zero]
      congr 1
      push_cast
      ring
    rw [split]
    exact div_lt_div₀ n_lt d_ge (by positivity) (by positivity)

theorem floorLog2_le {q : Rat} (pos : 0 < q) : (2 : Rat) ^ floorLog2 q ≤ q := by
  have num_pos : q.num.toNat ≠ 0 := by have := Rat.num_pos.mpr pos; omega
  have lower := (div_between num_pos q.den_nz).1
  rw [← eq_div_toNat pos] at lower
  rw [floorLog2]
  split
  · assumption
  · exact lower

theorem lt_floorLog2 {q : Rat} (pos : 0 < q) : q < (2 : Rat) ^ (floorLog2 q + 1) := by
  have num_pos : q.num.toNat ≠ 0 := by have := Rat.num_pos.mpr pos; omega
  have upper := (div_between num_pos q.den_nz).2
  rw [← eq_div_toNat pos] at upper
  rw [floorLog2]
  split
  · exact upper
  · next above =>
    rw [Int.sub_add_cancel]
    exact not_le.mp above

/-- A power above a rational is above its logarithm. -/
theorem floorLog2_lt {q : Rat} (pos : 0 < q) {k : Int} (below : q < (2 : Rat) ^ k) :
    floorLog2 q < k :=
  (zpow_lt_zpow_iff_right₀ one_lt_two).mp (lt_of_le_of_lt (floorLog2_le pos) below)

/-- Whole numbers are not rounded. -/
theorem roundHalfEven_intCast (i : Int) : roundHalfEven (i : Rat) = i := by
  simp [roundHalfEven, Rat.floor_intCast]

/-! ### Magnitudes -/

namespace Format

variable {format : Format}

theorem runLength_eq (format : Format) : format.runLength = 2 ^ (format.precision - 1) :=
  Nat.one_shiftLeft _

theorem runLength_pos (format : Format) : 0 < format.runLength := by
  rw [runLength_eq]
  exact Nat.two_pow_pos _

/-- A format with significands and with more than one run of magnitudes. -/
structure Proper (format : Format) : Prop where
  wide : 0 < format.precision
  ranged : 2 ≤ format.runs

theorem binary64_proper : binary64.Proper := ⟨by decide, by decide⟩

theorem binary32_proper : binary32.Proper := ⟨by decide, by decide⟩

/-- Two runs are as many magnitudes as a format has significands. -/
theorem Proper.two_runs (proper : format.Proper) :
    2 * format.runLength = 2 ^ format.precision := by
  rw [runLength_eq, ← Nat.pow_succ', Nat.succ_eq_add_one, Nat.sub_add_cancel proper.wide]

/-- The magnitude that lies `significand` magnitudes behind a number of runs. Beyond the
first run a significand is at least one run long. -/
theorem magnitude_run {steps significand : Nat} (short : significand < 2 * format.runLength)
    (normal : steps = 0 ∨ format.runLength ≤ significand) :
    format.magnitude (steps * format.runLength + significand) =
      significand * 2 ^ (format.minExponent + steps) := by
  have positive := format.runLength_pos
  by_cases tiny : steps * format.runLength + significand < format.runLength
  · have none : steps = 0 := by
      rcases normal with none | long
      · exact none
      · exact absurd tiny (by omega)
    subst none
    simp only [Nat.zero_mul, Nat.zero_add] at tiny ⊢
    simp [magnitude, decode, tiny]
  · have long : format.runLength ≤ significand := by
      rcases normal with rfl | long
      · omega
      · exact long
    obtain ⟨rest, rfl⟩ := Nat.exists_eq_add_of_le long
    have index : steps * format.runLength + (format.runLength + rest) =
        rest + (steps + 1) * format.runLength := by ring
    have inRun : rest < format.runLength := by omega
    have quotient : (rest + (steps + 1) * format.runLength) / format.runLength = steps + 1 := by
      rw [Nat.add_mul_div_right _ _ positive, Nat.div_eq_of_lt inRun, Nat.zero_add]
    have remainder : (rest + (steps + 1) * format.runLength) % format.runLength = rest := by
      rw [Nat.add_mul_mod_self_right, Nat.mod_eq_of_lt inRun]
    rw [index] at tiny ⊢
    simp only [magnitude, decode, tiny, if_false, quotient, remainder, Nat.add_sub_cancel]

@[simp] theorem magnitude_zero (format : Format) : format.magnitude 0 = 0 := by
  simp [magnitude, decode, format.runLength_pos]

theorem magnitude_nonneg (format : Format) (index : Nat) : 0 ≤ format.magnitude index := by
  rw [magnitude]
  positivity

/-- Significand and exponent of a finite magnitude lie in the range of the format. -/
theorem Proper.decode_range (proper : format.Proper) {index : Nat}
    (finite : index < format.infinity) :
    (format.decode index).1 < 2 ^ format.precision ∧
      format.minExponent ≤ (format.decode index).2 ∧
      (format.decode index).2 ≤ format.minExponent + format.runs - 2 := by
  have inRun := Nat.mod_lt index format.runLength_pos
  have run : index / format.runLength < format.runs := Nat.div_lt_of_lt_mul (by
    rwa [infinity, Nat.mul_comm] at finite)
  have ranged := proper.ranged
  rw [← proper.two_runs, decode]
  generalize index / format.runLength = quotient at run ⊢
  split
  · exact ⟨by simp only; omega, le_refl _, by simp only; omega⟩
  · exact ⟨by simp only; omega, by simp only; omega, by simp only; omega⟩

/-- Rounding comes to infinity at most. -/
theorem nearest_le (q : Rat) : format.nearest q ≤ format.infinity := by
  rw [nearest]
  split
  · exact Nat.zero_le _
  · exact Nat.min_le_left _ _

/-- The exponent of the last place that a rational is rounded to. -/
def lastPlace (format : Format) (q : Rat) : Int :=
  max format.minExponent (floorLog2 q - (format.precision - 1 : Nat))

/-- The last place of a short significand is not above its own unit. -/
theorem Proper.lastPlace_le (proper : format.Proper) {m : Nat} {e : Int} (positive : 0 < m)
    (short : m < 2 ^ format.precision) (deep : format.minExponent ≤ e) :
    format.lastPlace (m * 2 ^ e) ≤ e := by
  have wide := proper.wide
  have below : (m : Rat) * 2 ^ e < 2 ^ (format.precision + e) := by
    rw [zpow_add₀ two_ne_zero, zpow_natCast]
    have : (m : Rat) < 2 ^ format.precision := by exact_mod_cast short
    exact mul_lt_mul_of_pos_right this (by positivity)
  have := floorLog2_lt (by positivity) below
  rw [lastPlace]
  omega

/-- A number counted in units of a lower exponent. -/
theorem scaled {m : Nat} {low e : Int} (below : low ≤ e) :
    (m : Rat) * 2 ^ e = ((m * 2 ^ (e - low).toNat : Nat) : Rat) * 2 ^ low := by
  push_cast
  rw [mul_assoc, ← zpow_natCast, Int.toNat_of_nonneg (by omega), ← zpow_add₀ two_ne_zero,
    Int.sub_add_cancel]

/-- The nearest magnitude of a whole number of last places. -/
theorem nearest_whole {n : Nat} {place : Int} (positive : 0 < n)
    (last : place = format.lastPlace (n * 2 ^ place)) :
    format.nearest (n * 2 ^ place) = min format.infinity
      ((place - format.minExponent).toNat * format.runLength + n) := by
  have pos : (0 : Rat) < n * 2 ^ place := by positivity
  have whole : (n : Rat) * 2 ^ place * 2 ^ (-place) = ((n : Int) : Rat) := by
    rw [mul_assoc, ← zpow_add₀ two_ne_zero, Int.add_right_neg, zpow_zero, mul_one,
      Int.cast_natCast]
  rw [nearest, if_neg pos.ne', ← lastPlace, ← last]
  simp only [whole, roundHalfEven_intCast, Int.toNat_natCast]

/-- A rational counts less than two runs of last places, and at least one run unless the
last place is that of the smallest magnitudes. -/
theorem Proper.lastPlace_count (proper : format.Proper) {n : Nat} {place : Int}
    (positive : 0 < n) (last : place = format.lastPlace (n * 2 ^ place)) :
    n < 2 * format.runLength ∧
      (place = format.minExponent ∨ format.runLength ≤ n) := by
  have wide := proper.wide
  have pos : (0 : Rat) < n * 2 ^ place := by positivity
  have unit_pos : (0 : Rat) < 2 ^ place := by positivity
  have lower := floorLog2_le pos
  have upper := lt_floorLog2 pos
  have places : ∀ k : Nat, (2 : Rat) ^ (k + place) = ((2 ^ k : Nat) : Rat) * 2 ^ place := by
    intro k
    rw [zpow_add₀ two_ne_zero, zpow_natCast]
    push_cast
    rfl
  rw [lastPlace] at last
  generalize floorLog2 ((n : Rat) * 2 ^ place) = log at lower upper last
  constructor
  · have above : (2 : Rat) ^ (log + 1) ≤ 2 ^ (format.precision + place) :=
      zpow_le_zpow_right₀ one_lt_two.le (by omega)
    rw [places] at above
    rw [proper.two_runs]
    exact_mod_cast lt_of_mul_lt_mul_right (upper.trans_le above) unit_pos.le
  · rcases le_total (log - (format.precision - 1 : Nat)) format.minExponent with low | high
    · exact .inl (by omega)
    · have same : log = (format.precision - 1 : Nat) + place := by omega
      rw [same, places] at lower
      rw [format.runLength_eq]
      exact .inr (by exact_mod_cast le_of_mul_le_mul_right lower unit_pos)

/-- **What fits into a format is not rounded.** A significand that is short enough, with an
exponent that is not too small, is the magnitude nearest to itself, if it is below
infinity. -/
theorem Proper.magnitude_nearest (proper : format.Proper) {m : Nat} {e : Int}
    (short : m < 2 ^ format.precision) (deep : format.minExponent ≤ e)
    (finite : (m : Rat) * 2 ^ e <
      2 ^ (format.minExponent + format.runs - 2 + format.precision)) :
    format.nearest (m * 2 ^ e) < format.infinity ∧
      format.magnitude (format.nearest (m * 2 ^ e)) = m * 2 ^ e := by
  have ranged := proper.ranged
  have run_pos := format.runLength_pos
  rcases Nat.eq_zero_or_pos m with rfl | positive
  · have start : format.nearest ((0 : Nat) * 2 ^ e) = 0 := by simp [nearest]
    rw [start]
    exact ⟨Nat.mul_pos (by omega) run_pos, by simp⟩
  · have below := proper.lastPlace_le positive short deep
    have value := scaled (m := m) below
    obtain ⟨place, last⟩ : ∃ place, place = format.lastPlace (m * 2 ^ e) := ⟨_, rfl⟩
    rw [← last] at below value
    rw [value] at finite last ⊢
    have counted : 0 < m * 2 ^ (e - place).toNat := by positivity
    generalize m * 2 ^ (e - place).toNat = n at finite last counted ⊢
    obtain ⟨few, normal⟩ := proper.lastPlace_count counted last
    have log := floorLog2_lt (by positivity) finite
    have deepest : format.minExponent ≤ place ∧ place ≤ format.minExponent + format.runs - 2 := by
      rw [lastPlace] at last
      omega
    obtain ⟨steps, rfl⟩ := Int.le.dest deepest.1
    have behind : steps * format.runLength + n < format.infinity := calc
      steps * format.runLength + n < steps * format.runLength + 2 * format.runLength := by omega
      _ = (steps + 2) * format.runLength := by ring
      _ ≤ format.runs * format.runLength := Nat.mul_le_mul_right _ (by omega)
    rw [nearest_whole counted last, add_sub_cancel_left, Int.toNat_natCast,
      Nat.min_eq_right behind.le]
    exact ⟨behind, magnitude_run few (normal.imp_left (by omega))⟩

end Format

/-! ### Single precision -/

namespace Double

/-- A double of single precision: none that is finite, or one with a significand of 24 bits
and an exponent in the range of single precision. -/
def IsSingle (x : Double) : Prop :=
  x.isFinite = true → ∃ m e : Int, m.natAbs < 2 ^ 24 ∧ -149 ≤ e ∧ e ≤ 104 ∧
    x.toRat? = some ((m : Rat) * 2 ^ e)

theorem isFinite_of_toRat? {x : Double} (absent : x.toRat? = none) : x.isFinite = false := by
  cases x with
  | nan mark => rfl
  | signed negative index =>
    rw [toRat?] at absent
    split at absent
    · next infinite => simp [isFinite, infinite]
    · cases absent

theorem toRat?_ofIndex (negative : Bool) {index : Nat}
    (finite : index < Format.binary64.infinity) :
    (ofIndex negative index).toRat? = some (if negative then
      -Format.binary64.magnitude index else Format.binary64.magnitude index) := by
  have bound : index < 0x7FF0000000000000 := finite
  have same : min index 0x7FF0000000000000 = index := by omega
  simp only [ofIndex, toRat?, same]
  rw [if_neg (by omega)]

/-- A rational that is a magnitude of double precision is kept as it is. -/
theorem toRat?_ofRat (zeroSign : Bool) {q : Rat}
    (finite : Format.binary64.nearest |q| < Format.binary64.infinity)
    (kept : Format.binary64.magnitude (Format.binary64.nearest |q|) = |q|) :
    (ofRat zeroSign q).toRat? = some q := by
  rcases lt_trichotomy q 0 with negative | rfl | positive
  · rw [abs_of_neg negative] at finite kept
    rw [ofRat, if_neg negative.ne, if_pos negative, toRat?_ofIndex true finite, kept]
    simp
  · rw [ofRat, if_pos rfl, zero, toRat?_ofIndex zeroSign (by decide)]
    simp
  · rw [abs_of_pos positive] at finite kept
    rw [ofRat, if_neg positive.ne', if_neg positive.le.not_gt, toRat?_ofIndex false finite,
      kept]
    simp

/-- A number in the range of single precision is one of double precision. -/
theorem toRat?_ofRat_single (zeroSign : Bool) {m e : Int} (short : m.natAbs < 2 ^ 24)
    (deep : -149 ≤ e) (high : e ≤ 104) :
    (ofRat zeroSign ((m : Rat) * 2 ^ e)).toRat? = some ((m : Rat) * 2 ^ e) := by
  have magnitude : |(m : Rat) * 2 ^ e| = (m.natAbs : Rat) * 2 ^ e := by
    rw [abs_mul, abs_of_pos (by positivity : (0 : Rat) < 2 ^ e), Nat.cast_natAbs, Int.cast_abs]
  have finite : (m.natAbs : Rat) * 2 ^ e < 2 ^ (1024 : Int) := calc
    (m.natAbs : Rat) * 2 ^ e < 2 ^ 24 * 2 ^ e := by
      have : (m.natAbs : Rat) < 2 ^ 24 := by exact_mod_cast short
      exact mul_lt_mul_of_pos_right this (by positivity)
    _ = 2 ^ (24 + e) := by rw [zpow_add₀ two_ne_zero]; rfl
    _ ≤ 2 ^ (1024 : Int) := zpow_le_zpow_right₀ one_lt_two.le (by omega)
  have kept := Format.binary64_proper.magnitude_nearest (m := m.natAbs) (e := e)
    (short.trans (by decide)) (show (-1074 : Int) ≤ e by omega) finite
  rw [← magnitude] at kept
  exact toRat?_ofRat zeroSign kept.1 kept.2

/-- **What has been rounded to single precision is of single precision.** -/
theorem toSingle_isSingle (a : Double) : a.toSingle.IsSingle := by
  rw [toSingle]
  split
  · next absent =>
    split
    · exact fun finite => nomatch finite
    · intro finite
      rw [isFinite_of_toRat? absent] at finite
      cases finite
  · next x _ =>
    simp only
    split
    · cases a.isNegative <;> exact fun finite => nomatch finite
    · next below =>
      intro _
      obtain ⟨short, deep, high⟩ := Format.binary32_proper.decode_range
        (lt_of_le_of_ne (Format.nearest_le _) below)
      rw [Format.magnitude]
      generalize Format.binary32.decode (Format.binary32.nearest x.abs) = decoded at *
      obtain ⟨m, e⟩ := decoded
      have signed : (if a.isNegative = true then -((m : Rat) * 2 ^ e) else (m : Rat) * 2 ^ e) =
          ((if a.isNegative = true then -(m : Int) else (m : Int) : Int) : Rat) * 2 ^ e := by
        split
        · push_cast
          ring
        · push_cast
          rfl
      have natural : (if a.isNegative = true then -(m : Int) else (m : Int)).natAbs = m := by
        split
        · simp
        · simp
      have short : (if a.isNegative = true then -(m : Int) else (m : Int)).natAbs < 2 ^ 24 := by
        rw [natural]
        exact short
      have high : e ≤ 104 := by simpa [Format.binary32] using high
      simp only
      rw [signed]
      exact ⟨_, e, short, deep, high, toRat?_ofRat_single _ short deep high⟩

end Double

end Formulary
