/-
Decimals with few digits.

The decimals with a given number of digits around a rational lie on a grid, and the rational lies
between two neighbours on it. If a set without gaps holds the rational and any decimal with that few
digits, however far away, it holds one of the neighbours. So the decimal chosen for a double has no
more digits than any decimal that is read as it, and where the set is symmetric about the rational,
the correctly rounded decimal is in it.

* `lt_floorLog10`, `digitCount_le_iff` — logarithms and digits.
* `Decimal.neighbour_mem` — a neighbour in place of a decimal with few digits.
* `Decimal.rounded_mem` — the rounded decimal in place of one, in a symmetric set.
* `Decimal.shortest_few` — the digits of the decimal chosen for a double.
-/

import Formulary.Proofs.NearestDecimals
import Formulary.Proofs.RoundingOrder

namespace Formulary

/-! ### Logarithms and digits -/

theorem digitCount_le_iff {m n : Nat} : digitCount m ≤ n ↔ m < 10 ^ n := by
  constructor
  · intro few
    exact (lt_pow_digitCount m).trans_le (Nat.pow_le_pow_right (by decide) few)
  · intro short
    by_cases zero : m = 0
    · rw [zero]
      exact Nat.zero_le n
    · have power := (pow_digitCount_le zero).trans_lt short
      have fewer := (Nat.pow_lt_pow_iff_right (by decide)).mp power
      omega

/-- The next power of ten is above a rational. -/
theorem lt_floorLog10 {q : Rat} (positive : 0 < q) : q < (10 : Rat) ^ (floorLog10 q + 1) := by
  rw [floorLog10]
  split
  · next large =>
    have whole : 0 ≤ q.floor := Rat.le_floor_iff.mpr (by exact_mod_cast positive.le)
    have upper := Int.lt_floor_add_one q
    change q < ((q.floor : Int) : Rat) + 1 at upper
    have power : q.floor + 1 ≤ ((10 ^ digitCount q.floor.toNat : Nat) : Int) := by
      have short := lt_pow_digitCount q.floor.toNat
      omega
    rw [Int.sub_add_cancel, zpow_natCast]
    exact upper.trans_le (by exact_mod_cast power)
  · next small =>
    have inverse : 1 < q⁻¹ := (one_lt_inv₀ positive).mpr (not_le.mp small)
    have above : 1 < q⁻¹.ceil := by exact_mod_cast inverse.trans_le Rat.le_ceil
    have below : ((q⁻¹.ceil.toNat - 1 : Nat) : Rat) < q⁻¹ := by
      have lower := Rat.ceil_lt (x := q⁻¹)
      have same : ((q⁻¹.ceil.toNat - 1 : Nat) : Rat) + 1 = q⁻¹.ceil := by
        have same : ((q⁻¹.ceil.toNat - 1 : Nat) : Int) + 1 = q⁻¹.ceil := by omega
        exact_mod_cast same
      linarith
    have given : q⁻¹.ceil.toNat - 1 ≠ 0 := by omega
    have power := pow_digitCount_le given
    have counted := digitCount_pos given
    generalize q⁻¹.ceil.toNat - 1 = n at below power counted
    have least : (10 : Rat) ^ (digitCount n - 1) < q⁻¹ :=
      lt_of_le_of_lt (by exact_mod_cast power) below
    have place : -(digitCount n : Int) + 1 = -((digitCount n - 1 : Nat) : Int) := by omega
    rw [place, zpow_neg, zpow_natCast]
    exact (lt_inv_comm₀ (by positivity) positive).mp least

namespace Decimal

open Format (binary64)

variable {S : Set Rat} {q x y : Rat} {n : Nat} {d : Decimal}

theorem toRat_nonneg (d : Decimal) : 0 ≤ d.toRat := by
  rw [toRat]
  positivity

theorem multiple_toRat (d : Decimal) : IsMultiple d.toRat (10 ^ d.exponent) :=
  ⟨d.digits, by rw [toRat, Int.cast_natCast]⟩

/-! ### Neighbours -/

/-- The place of the last one of a number of digits. -/
def place (n : Nat) (q : Rat) : Int :=
  floorLog10 q - (n : Int) + 1

/-- The decimal with a number of digits next to a rational, not above it. -/
def lowNeighbour (n : Nat) (q : Rat) : Decimal :=
  ⟨(q * (10 : Rat) ^ (-place n q)).floor.toNat, place n q⟩

/-- The next decimal, above the rational. -/
def highNeighbour (n : Nat) (q : Rat) : Decimal :=
  ⟨(q * (10 : Rat) ^ (-place n q)).floor.toNat + 1, place n q⟩

theorem scaled_nonneg (positive : 0 < q) : 0 ≤ (q * (10 : Rat) ^ (-place n q)).floor :=
  Rat.le_floor_iff.mpr (by push_cast; positivity)

theorem toRat_lowNeighbour (positive : 0 < q) : (lowNeighbour n q).toRat =
    (q * (10 : Rat) ^ (-place n q)).floor * 10 ^ place n q := by
  rw [lowNeighbour, toRat, ← Int.cast_natCast, Int.toNat_of_nonneg (scaled_nonneg positive)]

theorem toRat_highNeighbour (positive : 0 < q) : (highNeighbour n q).toRat =
    ((q * (10 : Rat) ^ (-place n q)).floor + 1) * 10 ^ place n q := by
  have whole : (((q * (10 : Rat) ^ (-place n q)).floor.toNat + 1 : Nat) : Rat) =
      (q * (10 : Rat) ^ (-place n q)).floor + 1 := by
    have same := Int.toNat_of_nonneg (scaled_nonneg (n := n) positive)
    push_cast
    exact_mod_cast congrArg (· + (1 : Int)) same
  rw [highNeighbour, toRat, whole]

/-- A rational counted in units of a place. -/
theorem scaled_mul (q : Rat) (p : Int) : q * (10 : Rat) ^ (-p) * 10 ^ p = q := by
  rw [mul_assoc, ← zpow_add₀ (by norm_num), Int.add_left_neg, zpow_zero, mul_one]

theorem lowNeighbour_le (positive : 0 < q) : (lowNeighbour n q).toRat ≤ q := by
  rw [toRat_lowNeighbour positive]
  calc _ ≤ q * (10 : Rat) ^ (-place n q) * 10 ^ place n q :=
        mul_le_mul_of_nonneg_right (Rat.floor_le _) (by positivity)
    _ = q := scaled_mul q _

theorem lt_highNeighbour (positive : 0 < q) : q < (highNeighbour n q).toRat := by
  rw [toRat_highNeighbour positive]
  calc q = q * (10 : Rat) ^ (-place n q) * 10 ^ place n q := (scaled_mul q _).symm
    _ < _ := mul_lt_mul_of_pos_right (Int.lt_floor_add_one _) (by positivity)

/-- Nothing of the grid lies between the low neighbour and the rational, -/
theorem le_lowNeighbour (positive : 0 < q) (multiple : IsMultiple x (10 ^ place n q))
    (le : x ≤ q) : x ≤ (lowNeighbour n q).toRat := by
  obtain ⟨count, rfl⟩ := multiple
  rw [toRat_lowNeighbour positive]
  refine mul_le_mul_of_nonneg_right (Int.cast_le.mpr (Rat.le_floor_iff.mpr ?_)) (by positivity)
  rwa [zpow_neg, ← div_eq_mul_inv, le_div_iff₀ (by positivity)]

/-- nor between the rational and the high one. -/
theorem highNeighbour_le (positive : 0 < q) (multiple : IsMultiple x (10 ^ place n q))
    (lt : q < x) : (highNeighbour n q).toRat ≤ x := by
  obtain ⟨count, rfl⟩ := multiple
  rw [toRat_highNeighbour positive]
  refine mul_le_mul_of_nonneg_right ?_ (by positivity)
  have above : (q * (10 : Rat) ^ (-place n q)).floor < count := by
    rw [Rat.floor_lt_iff, zpow_neg, ← div_eq_mul_inv, div_lt_iff₀ (by positivity)]
    exact lt
  exact_mod_cast above

/-- A decimal with few digits that is at least as large as the first digit of a rational lies on the
grid of the rational. -/
theorem multiple_of_short (short : d.digits ≤ 10 ^ n) (large : 10 ^ floorLog10 q < d.toRat) :
    IsMultiple d.toRat (10 ^ place n q) := by
  have below : d.toRat ≤ 10 ^ ((n : Int) + d.exponent) := by
    have digits : (d.digits : Rat) ≤ 10 ^ n := by exact_mod_cast short
    rw [zpow_add₀ (by norm_num), zpow_natCast, toRat]
    exact mul_le_mul_of_nonneg_right digits (by positivity)
  have ordered := (zpow_lt_zpow_iff_right₀ (by norm_num)).mp (large.trans_le below)
  exact IsMultiple.lower (r := 10) (by decide) d.multiple_toRat (by rw [place]; omega)

/-- The grid of a rational goes through the powers of ten around it. -/
theorem multiple_power (some : n ≠ 0) {k : Int} (le : floorLog10 q ≤ k) :
    IsMultiple (10 ^ k) (10 ^ place n q) :=
  IsMultiple.power (r := 10) (by decide) (by rw [place]; omega)

/-- **A neighbour in place of a decimal with few digits.** A decimal outside of the powers of ten
around the rational is replaced by one of these, which is on the way. -/
theorem neighbour_mem (convex : S.OrdConnected) (inside : q ∈ S) (positive : 0 < q) (some : n ≠ 0)
    (short : d.digits ≤ 10 ^ n) (mem : d.toRat ∈ S) :
    (lowNeighbour n q).toRat ∈ S ∨ (highNeighbour n q).toRat ∈ S := by
  have lower := floorLog10_le positive
  have upper := lt_floorLog10 positive
  obtain ⟨x, xMem, multiple⟩ : ∃ x ∈ S, IsMultiple x (10 ^ place n q) := by
    by_cases small : d.toRat ≤ 10 ^ floorLog10 q
    · exact ⟨_, convex.out mem inside ⟨small, lower⟩, multiple_power some le_rfl⟩
    · exact ⟨_, mem, multiple_of_short short (not_le.mp small)⟩
  obtain le | lt := le_or_gt x q
  · exact .inl (convex.out xMem inside
      ⟨le_lowNeighbour positive multiple le, lowNeighbour_le positive⟩)
  · exact .inr (convex.out inside xMem
      ⟨(lt_highNeighbour positive).le, highNeighbour_le positive multiple lt⟩)

/-! ### The rounded decimal -/

theorem toRat_rounded (positive : 0 < q) : (rounded n q).toRat =
    roundHalfEven (q * (10 : Rat) ^ (-place n q)) * 10 ^ place n q := by
  have nonneg := (scaled_nonneg (n := n) positive).trans (floor_le_roundHalfEven _)
  rw [rounded, toRat]
  change ((roundHalfEven (q * (10 : Rat) ^ (-place n q))).toNat : Rat) * 10 ^ place n q = _
  rw [← Int.cast_natCast, Int.toNat_of_nonneg nonneg]

theorem rounded_eq_neighbour (positive : 0 < q) :
    (rounded n q).toRat = (lowNeighbour n q).toRat ∨
      (rounded n q).toRat = (highNeighbour n q).toRat := by
  have lower := floor_le_roundHalfEven (q * (10 : Rat) ^ (-place n q))
  have upper := roundHalfEven_le (q * (10 : Rat) ^ (-place n q))
  rw [toRat_rounded positive, toRat_lowNeighbour positive, toRat_highNeighbour positive]
  obtain same | next : roundHalfEven (q * (10 : Rat) ^ (-place n q)) =
      (q * (10 : Rat) ^ (-place n q)).floor ∨ roundHalfEven (q * (10 : Rat) ^ (-place n q)) =
      (q * (10 : Rat) ^ (-place n q)).floor + 1 := by omega
  · exact .inl (by rw [same])
  · refine .inr ?_
    rw [next]
    push_cast
    rfl

/-- No decimal of the grid is closer than the rounded one. -/
theorem rounded_closest (positive : 0 < q) (multiple : IsMultiple x (10 ^ place n q)) :
    |(rounded n q).toRat - q| ≤ |x - q| := by
  obtain ⟨count, rfl⟩ := multiple
  have unit_pos : (0 : Rat) < 10 ^ place n q := by positivity
  have distance (m : Int) : |(m : Rat) * 10 ^ place n q - q| =
      |(m : Rat) - q * (10 : Rat) ^ (-place n q)| * 10 ^ place n q := by
    rw [← abs_of_pos unit_pos, ← abs_mul, abs_of_pos unit_pos, sub_mul, scaled_mul]
  rw [toRat_rounded positive, distance, distance]
  exact mul_le_mul_of_nonneg_right (roundHalfEven_closest _ _) unit_pos.le

/-- In a symmetric set without gaps everything is that is as close as something in it. -/
theorem mem_of_closer (convex : S.OrdConnected) (symmetric : ∀ x ∈ S, 2 * q - x ∈ S) (mem : x ∈ S)
    (closer : |y - q| ≤ |x - q|) : y ∈ S := by
  have mirrored := symmetric x mem
  obtain le | le := le_total q x
  · rw [abs_of_nonneg (sub_nonneg.mpr le)] at closer
    obtain ⟨lower, upper⟩ := abs_le.mp closer
    exact convex.out mirrored mem ⟨by linarith, by linarith⟩
  · rw [abs_of_nonpos (sub_nonpos.mpr le)] at closer
    obtain ⟨lower, upper⟩ := abs_le.mp closer
    exact convex.out mem mirrored ⟨by linarith, by linarith⟩

/-- **The rounded decimal in place of one with few digits,** in a symmetric set. -/
theorem rounded_mem (convex : S.OrdConnected) (symmetric : ∀ x ∈ S, 2 * q - x ∈ S) (inside : q ∈ S)
    (positive : 0 < q) (some : n ≠ 0) (short : d.digits ≤ 10 ^ n) (mem : d.toRat ∈ S) :
    (rounded n q).toRat ∈ S := by
  obtain low | high := neighbour_mem convex inside positive some short mem
  · exact mem_of_closer convex symmetric low
      (rounded_closest positive (lowNeighbour n q).multiple_toRat)
  · exact mem_of_closer convex symmetric high
      (rounded_closest positive (highNeighbour n q).multiple_toRat)

/-- A number of digits is not exceeded, but for the next power of ten. -/
theorem scaled_lt (positive : 0 < q) : (q * (10 : Rat) ^ (-place n q)).floor.toNat < 10 ^ n := by
  have upper := lt_floorLog10 positive
  have short : q * (10 : Rat) ^ (-place n q) < ((10 ^ n : Nat) : Int) := by
    push_cast
    rw [zpow_neg, ← div_eq_mul_inv, div_lt_iff₀ (by positivity), ← zpow_natCast,
      ← zpow_add₀ (by norm_num)]
    have exponent : (n : Int) + place n q = floorLog10 q + 1 := by
      rw [place]
      omega
    rwa [exponent]
  have floor := Rat.floor_lt_iff.mpr short
  have nonneg := scaled_nonneg (n := n) positive
  omega

theorem rounded_digits_le (positive : 0 < q) : (rounded n q).digits ≤ 10 ^ n := by
  have most := roundHalfEven_le (q * (10 : Rat) ^ (-place n q))
  have short := scaled_lt (n := n) positive
  change (roundHalfEven (q * (10 : Rat) ^ (-place n q))).toNat ≤ 10 ^ n
  omega

/-! ### Zeros at the end -/

/-- Dropping zeros leaves no zero at the end, if there is fuel for all of them, and no more digits
than before. -/
theorem trimUpTo_solid {fuel : Nat} (given : d.digits ≠ 0) (enough : d.digits < 10 ^ fuel) :
    (trimUpTo fuel d).digits % 10 ≠ 0 ∧ (trimUpTo fuel d).digits ≤ d.digits := by
  induction fuel generalizing d with
  | zero => omega
  | succ fuel ih =>
    rw [trimUpTo]
    split
    · next zeros =>
      simp only [Bool.and_eq_true, decide_eq_true_eq] at zeros
      have shorter : d.digits / 10 < 10 ^ fuel := by
        rw [pow_succ] at enough
        omega
      obtain ⟨solid, fewer⟩ := @ih ⟨d.digits / 10, d.exponent + 1⟩
        (show d.digits / 10 ≠ 0 by omega) shorter
      exact ⟨solid, fewer.trans (Nat.div_le_self _ _)⟩
    · next zeros =>
      refine ⟨fun last => zeros ?_, le_rfl⟩
      simp [last, given]

theorem trim_solid (given : d.digits ≠ 0) : d.trim.digits % 10 ≠ 0 ∧ d.trim.digits ≤ d.digits :=
  trimUpTo_solid given (lt_pow_digitCount d.digits)

theorem trim_of_solid (solid : d.digits % 10 ≠ 0) : d.trim = d := by
  rw [trim]
  cases digitCount d.digits with
  | zero => rfl
  | succ fuel => rw [trimUpTo, if_neg (by simp [solid])]

/-- How many digits of a decimal count, the zeros at its end left out. -/
def significant (d : Decimal) : Nat :=
  digitCount d.trim.digits

/-- The power of ten with one more digit has a single digit that counts. -/
theorem significant_le (given : d.digits ≠ 0) (some : n ≠ 0) (short : d.digits ≤ 10 ^ n) :
    d.significant ≤ n := by
  obtain ⟨solid, fewer⟩ := trim_solid given
  refine digitCount_le_iff.mpr (lt_of_le_of_ne (fewer.trans short) fun full => solid ?_)
  rw [full]
  exact Nat.mod_eq_zero_of_dvd (dvd_pow_self 10 some)

theorem significant_of_solid (solid : d.digits % 10 ≠ 0) : d.significant = digitCount d.digits := by
  rw [significant, trim_of_solid solid]

/-! ### The decimal chosen for a double -/

variable {index : Nat}

/-- The rationals that are rounded to a magnitude. -/
theorem nearest_eq_iff {format : Format} (proper : format.Proper) (positive : 0 < index)
    (finite : index < format.infinity) (nonneg : 0 ≤ x) :
    format.nearest x = index ↔ format.rounded x = format.magnitude index := by
  have given : format.magnitude index ≠ 0 := by
    rw [← Format.magnitude_zero format]
    exact (format.magnitude_strictMono positive).ne'
  obtain rfl | above := nonneg.eq_or_lt
  · rw [Format.rounded_zero, Format.nearest, if_pos rfl]
    exact iff_of_false positive.ne given.symm
  by_cases below : x < format.overflow
  · rw [← proper.magnitude_nearest_eq above below]
    exact format.magnitude_strictMono.injective.eq_iff.symm
  · -- What becomes infinite is rounded above all magnitudes.
    have infinite := (proper.nearest_infinite_iff above).mpr (not_lt.mp below)
    have high : format.overflow ≤ format.rounded x := by
      refine proper.overflow_between.2.trans ?_
      rw [← proper.rounded_overflow]
      exact proper.rounded_mono (not_lt.mp below)
    have low : format.magnitude index < format.overflow := by
      have above := lt_of_le_of_ne (format.magnitude_nonneg index) given.symm
      rw [← not_le, ← proper.nearest_infinite_iff above, proper.nearest_magnitude_eq finite]
      exact finite.ne
    exact iff_of_false (by rw [infinite]; exact finite.ne') (low.trans_le high).ne'

/-- What reads back as a double has no gaps. -/
def doubleReadings (index : Nat) : Set Rat :=
  {x | binary64.rounded x = binary64.magnitude index}

theorem ordConnected_doubleReadings (index : Nat) : (doubleReadings index).OrdConnected :=
  (Set.ordConnected_singleton (a := binary64.magnitude index)).preimage_mono
    Format.binary64_proper.rounded_mono

theorem readsAs_iff (positive : 0 < index) (finite : index < binary64.infinity) :
    d.readsAs index = true ↔ d.toRat ∈ doubleReadings index := by
  rw [readsAs, beq_iff_eq, nearest_eq_iff Format.binary64_proper positive finite d.toRat_nonneg]
  rfl

theorem magnitude_mem (finite : index < binary64.infinity) :
    binary64.magnitude index ∈ doubleReadings index := by
  obtain ⟨m, e, h⟩ := magnitude_significand finite
  exact h.rounded_eq

/-- Where a neighbour is read as the double, one of the two is taken. -/
theorem readableNeighbour_isSome (reads : (lowNeighbour n q).readsAs index = true ∨
      (highNeighbour n q).readsAs index = true) :
    (readableNeighbour? index q n).isSome = true := by
  rw [readableNeighbour?]
  split
  · rfl
  · rfl
  · rfl
  · next low high =>
    exact absurd reads (not_or.mpr ⟨Bool.eq_false_iff.mp low, Bool.eq_false_iff.mp high⟩)

theorem neighbour_of_readable (found : readableNeighbour? index q n = some d) :
    d = lowNeighbour n q ∨ d = highNeighbour n q := by
  rw [readableNeighbour?] at found
  split at found
  · split at found
    · exact .inr (Option.some_inj.mp found).symm
    · exact .inl (Option.some_inj.mp found).symm
  · exact .inl (Option.some_inj.mp found).symm
  · exact .inr (Option.some_inj.mp found).symm
  · cases found

theorem digits_le_of_readable (positive : 0 < q) (found : readableNeighbour? index q n = some d) :
    d.digits ≤ 10 ^ n := by
  have short := scaled_lt (n := n) positive
  obtain rfl | rfl := neighbour_of_readable found
  · exact short.le
  · exact short

/-- The first result of a search is not behind any other one. -/
theorem exists_findSome_range {α : Type} {f : Nat → Option α} (bound : Nat) {k : Nat}
    (below : k < bound) (found : (f k).isSome = true) :
    ∃ j ≤ k, ∃ a, f j = some a ∧ (List.range bound).findSome? f = some a := by
  have parts : List.range bound = List.range (k + 1) ++
      (List.range (bound - (k + 1))).map (k + 1 + ·) := by
    rw [← List.range_add]
    congr 1
    omega
  obtain ⟨a, isFirst⟩ : ∃ a, (List.range (k + 1)).findSome? f = some a :=
    Option.isSome_iff_exists.mp (List.findSome?_isSome_iff.mpr
      ⟨k, List.mem_range.mpr (Nat.lt_succ_self k), found⟩)
  obtain ⟨j, inRange, isFound⟩ := List.exists_of_findSome?_eq_some isFirst
  refine ⟨j, Nat.le_of_lt_succ (List.mem_range.mp inRange), a, isFound, ?_⟩
  rw [parts, List.findSome?_append, isFirst, Option.some_or]

/-- **The decimal chosen for a double has the fewest digits:** no more than any decimal of at most
17 digits that reads back, and no zero at the end. -/
theorem shortest_few (positive : 0 < index) (finite : index < binary64.infinity) (some : n ≠ 0)
    (few : n ≤ 17) (short : d.digits ≤ 10 ^ n) (reads : binary64.nearest d.toRat = index) :
    (shortest index).significant ≤ n ∧ (shortest index).digits % 10 ≠ 0 := by
  have above := magnitude_pos positive
  have neighbour := neighbour_mem (ordConnected_doubleReadings index) (magnitude_mem finite) above
    some short ((readsAs_iff positive finite).mp (beq_iff_eq.mpr reads))
  rw [← readsAs_iff positive finite, ← readsAs_iff positive finite] at neighbour
  have predecessor : n - 1 + 1 = n := by omega
  obtain ⟨j, fewer, first, isFirst, search⟩ := exists_findSome_range 17
    (f := fun k => readableNeighbour? index (binary64.magnitude index) (k + 1)) (k := n - 1)
    (by omega) (by
      simp only [predecessor]
      exact readableNeighbour_isSome neighbour)
  have given : first.digits ≠ 0 :=
    digits_ne_zero (by rw [readableNeighbour_reads isFirst]; exact positive.ne')
  have chosen : shortest index = first.trim := by
    rw [shortest]
    simp only [search]
  have solid := (trim_solid given).1
  rw [chosen, significant_of_solid solid]
  exact ⟨(significant_le given (Nat.succ_ne_zero j)
    (digits_le_of_readable above isFirst)).trans (by omega), solid⟩

end Decimal

end Formulary
