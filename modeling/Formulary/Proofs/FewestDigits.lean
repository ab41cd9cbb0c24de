/-
The fewest digits of a number of single precision.

The text of a number of single precision is found by trying its rounded decimals, the ones with
fewer digits first. Numbers inside a binade and most powers of two need no other decimals: one that
is read as the number can be replaced by the rounded one with as many digits. What is written is the
double that the first such decimal is read as, and the double's own text has no more digits than
that.

* `writeSingle_first`, `writeSingle_shows` — what is tried, and the decimal that is shown.
* `significantDigits_le` — a decimal that is read as the number has no fewer digits.
* `writeSingle_fewest` — the digits of the text are the fewest, three powers of two apart.
-/

import Formulary.Proofs.LopsidedPowers
import Formulary.Proofs.SignificantDigits
import Formulary.Proofs.SingleReading

namespace Formulary

open Decimal

variable {m e : Int} {n : Nat} {d : Decimal} {v q : Rat} {x : Double}

/-! ### Candidates -/

/-- Nine digits are always enough. -/
theorem nine_mem_readings (h : HasSingleSignificand v m e) (positive : 0 < v) :
    (rounded 9 v).toRat ∈ readings v :=
  mem_readings_of_close h positive (rounded_close positive 8)

/-- The double that a number of digits is tried with. -/
def candidate (x : Double) (q : Rat) (n : Nat) : Double :=
  Double.ofRat x.isNegative ((rounded (n + 1) |q|).toRat * (if q < 0 then -1 else 1))

theorem candidate_reads (single : x.IsSingle) (value : x.toRat? = some q) (nonzero : q ≠ 0) :
    ((candidate x q n).toSingle.rank? == x.rank?) = true ↔
      (rounded (n + 1) |q|).toRat ∈ readings |q| := by
  rw [beq_iff_eq, candidate, Double.rank_toSingle_iff _ single value nonzero]
  change _ ↔ roundedTwice (rounded (n + 1) |q|).toRat = |q|
  obtain negative | positive := nonzero.lt_or_gt
  · rw [if_pos negative, mul_neg_one, roundedTwice_neg, abs_of_neg negative, neg_eq_iff_eq_neg]
  · rw [if_neg positive.not_gt, mul_one, abs_of_pos positive]

/-- The first number of digits whose candidate is read as the number is the one written. -/
theorem writeSingle_first (single : x.IsSingle) (value : x.toRat? = some q) (nonzero : q ≠ 0) :
    ∃ n < 9, writeSingle x = Layout.display.write (candidate x q n) ∧
      (rounded (n + 1) |q|).toRat ∈ readings |q| ∧
        ∀ k < n, (rounded (k + 1) |q|).toRat ∉ readings |q| := by
  obtain ⟨m, e, h⟩ := single.significand value
  obtain ⟨m, e, h⟩ := h.abs
  let accepts := fun n => (candidate x q n).toSingle.rank? == x.rank?
  obtain ⟨n, found⟩ : ∃ n, (List.range 9).find? accepts = some n := by
    refine Option.isSome_iff_exists.mp (List.find?_isSome.mpr ⟨8, by decide, ?_⟩)
    exact (candidate_reads single value nonzero).mpr
      (nine_mem_readings h (abs_pos.mpr nonzero))
  obtain ⟨reads, inRange, earlier⟩ := List.find?_range_eq_some.mp found
  refine ⟨n, List.mem_range.mp inRange, ?_, (candidate_reads single value nonzero).mp reads, ?_⟩
  · have searched : ((List.range 9).map (candidate x q)).find?
        (fun y => y.toSingle.rank? == x.rank?) = some (candidate x q n) := by
      rw [List.find?_map]
      exact congrArg (Option.map (candidate x q)) found
    rw [writeSingle, value]
    simp only [if_neg nonzero, Double.ratAbs_eq]
    split
    · next y isFirst => rw [Option.some.inj (isFirst.symm.trans searched)]
    · next absent => cases absent.symm.trans searched
  · intro k below accepted
    have refused := earlier k below
    rw [show accepts k = true from (candidate_reads single value nonzero).mpr accepted] at refused
    cases refused

/-- **The text of a number of single precision** shows a decimal that is read as the number and has
no more digits than the first rounded decimal that is. -/
theorem writeSingle_shows (single : x.IsSingle) (value : x.toRat? = some q) (nonzero : q ≠ 0) :
    ∃ n < 9, (∀ k < n, (rounded (k + 1) |q|).toRat ∉ readings |q|) ∧
      ∃ d : Decimal, d.ReadsSingle x ∧ d.significant ≤ n + 1 ∧
        significantDigits (writeSingle x) = d.significant := by
  obtain ⟨n, few, written, reads, earlier⟩ := writeSingle_first single value nonzero
  obtain ⟨m, e, h⟩ := single.significand value
  have above : 0 < |q| := abs_pos.mpr nonzero
  have positive := pos_of_reads reads above
  have bounded : (rounded (n + 1) |q|).toRat < Format.binary64.overflow := calc
    (rounded (n + 1) |q|).toRat < 2 ^ (128 : Int) :=
      lt_power_of_reads reads h.abs_lt (by decide)
    _ ≤ 2 ^ (1023 : Int) := zpow_le_zpow_right₀ one_le_two (by decide)
    _ ≤ Format.binary64.overflow := Format.binary64_proper.overflow_between.1
  have magnitude := Format.binary64_proper.magnitude_nearest_eq positive bounded
  have finite : Format.binary64.nearest (rounded (n + 1) |q|).toRat < Format.binary64.infinity :=
    lt_of_le_of_ne (Format.nearest_le _)
      (mt (Format.binary64_proper.nearest_infinite_iff positive).mp bounded.not_ge)
  obtain ⟨index, isIndex⟩ :
      ∃ index, Format.binary64.nearest (rounded (n + 1) |q|).toRat = index := ⟨_, rfl⟩
  rw [isIndex] at magnitude finite
  have given : 0 < index := by
    by_contra zero
    rw [Nat.eq_zero_of_not_pos zero, Format.magnitude_zero] at magnitude
    have nothing : roundedTwice (rounded (n + 1) |q|).toRat = 0 := by
      rw [roundedTwice, ← magnitude, Format.rounded_zero]
    exact above.ne (nothing.symm.trans reads)
  obtain ⟨fewer, solid⟩ := shortest_few given finite (Nat.succ_ne_zero n) (by omega)
    (rounded_digits_le above) isIndex
  refine ⟨n, few, earlier, shortest index, (readsSingle_iff single value nonzero).mpr ?_, fewer, ?_⟩
  · -- Both decimals are rounded to the same double.
    have same := (nearest_eq_iff Format.binary64_proper given finite (toRat_nonneg _)).mp
      (shortest_reads given finite)
    change Format.binary32.rounded (Format.binary64.rounded (shortest index).toRat) = |q|
    rw [same, magnitude]
    exact reads
  · have sign : x.isNegative = decide (q < 0) := by
      have signed := Double.sign_toRat? value
      cases negative : x.isNegative with
      | false =>
        rw [negative, if_neg Bool.false_ne_true] at signed
        rw [signed]
        exact (decide_eq_false (abs_nonneg q).not_gt).symm
      | true =>
        rw [negative, if_pos rfl] at signed
        rw [signed]
        exact (decide_eq_true (neg_lt_zero.mpr above)).symm
    have double : candidate x q n = .ofIndex x.isNegative index := by
      rw [← isIndex, ← Double.ofRat_magnitude _ positive, candidate, sign]
      simp only [decide_eq_true_eq, mul_ite, mul_neg_one, mul_one]
    rw [written, double, Layout.write_ofIndex _ _ given finite,
      Layout.significantDigits_decimal _ solid, significant_of_solid solid]

/-! ### The fewest digits -/

/-- The numbers of significant digits of the decimals that are read as a number of single
precision. -/
def significantReadings (x : Double) : Set Nat :=
  {n | ∃ d : Decimal, d.ReadsSingle x ∧ d.significant = n}

/-- No decimal that is read as the number has fewer digits than its text, unless it is one of eight
digits and read as one of the three powers of two. -/
theorem significantDigits_le (single : x.IsSingle) (value : x.toRat? = some q) (nonzero : q ≠ 0)
    (reads : d.ReadsSingle x) (ordinary : |q| ∈ lopsidedValues → d.significant ≠ 8) :
    significantDigits (writeSingle x) ≤ d.significant := by
  obtain ⟨n, few, earlier, shownDecimal, -, fewer, shown⟩ :=
    writeSingle_shows single value nonzero
  obtain ⟨m, e, h⟩ := single.significand value
  obtain ⟨m, e, h⟩ := h.abs
  have above : 0 < |q| := abs_pos.mpr nonzero
  have mem := (readsSingle_iff single value nonzero).mp reads
  rw [← toRat_trim] at mem
  by_contra more
  rw [not_le, shown] at more
  have some : d.significant ≠ 0 := by
    intro none
    have zero : d.trim.digits = 0 := by
      by_contra given
      exact (digitCount_pos given).ne' none
    have positive := pos_of_reads mem above
    rw [toRat, zero, Nat.cast_zero, zero_mul] at positive
    exact positive.false
  have short : d.trim.digits ≤ 10 ^ d.significant := (lt_pow_digitCount _).le
  have accepted := rounded_mem_readings h above some (by omega) short mem ordinary
  refine earlier (d.significant - 1) (by omega) ?_
  rwa [Nat.sub_add_cancel (Nat.pos_of_ne_zero some)]

/-- The texts of the three powers of two show nine digits. -/
theorem lopsided_digits : ∀ v ∈ lopsidedValues, ∀ negative,
    significantDigits (writeSingle (.ofRat negative (if negative then -v else v))) = 9 := by
  decide +kernel

/-- Both zeros show no digit that counts, and zero is a decimal without any. -/
theorem zero_fewest (negative : Bool) : IsLeast (significantReadings (.zero negative))
    (significantDigits (writeSingle (.zero negative))) := by
  have nothing : significantDigits (writeSingle (.zero negative)) = 0 := by
    cases negative <;> decide +kernel
  rw [nothing]
  refine ⟨⟨⟨0, 0⟩, ⟨negative, ?_⟩, rfl⟩, fun n _ => Nat.zero_le n⟩
  have read : Double.ofDecimal negative ⟨0, 0⟩ = .zero negative := rfl
  rw [read, Double.toSingle_zero]

/-- **The text of a number of single precision has the fewest digits** that a decimal which is read
as the number can have, three powers of two apart. For these a decimal of eight digits is read as
the power, but the nearest one is not, and the text has nine digits. -/
theorem writeSingle_fewest (single : x.IsSingle) (value : x.toRat? = some q) :
    (|q| ∉ lopsidedValues → IsLeast (significantReadings x) (significantDigits (writeSingle x))) ∧
      (|q| ∈ lopsidedValues →
        significantDigits (writeSingle x) = 9 ∧ IsLeast (significantReadings x) 8) := by
  have nearest := Double.ofRat_toRat value
  by_cases zero : q = 0
  · rw [zero, Double.ofRat, if_pos rfl] at nearest
    rw [← nearest, zero, abs_zero]
    exact ⟨fun _ => zero_fewest _, fun isLopsided => absurd isLopsided (by decide +kernel)⟩
  constructor
  · intro ordinary
    obtain ⟨-, -, -, d, reads, -, shown⟩ := writeSingle_shows single value zero
    refine ⟨⟨d, reads, shown.symm⟩, ?_⟩
    rintro n ⟨d, reads, rfl⟩
    exact significantDigits_le single value zero reads fun isLopsided => absurd isLopsided ordinary
  · intro isLopsided
    have nine := lopsided_digits _ isLopsided x.isNegative
    rw [← Double.sign_toRat? value, nearest] at nine
    obtain ⟨d, -, reads, eight⟩ := lopsided_reads _ isLopsided
    refine ⟨nine, ⟨d, (readsSingle_iff single value zero).mpr reads, eight⟩, ?_⟩
    rintro n ⟨d, reads, rfl⟩
    by_contra fewer
    have most := significantDigits_le single value zero reads fun _ => (not_le.mp fewer).ne
    omega

/-- The tenth, whose text has one digit, and a power of two whose text has one digit too many. -/
theorem tenth_fewest :
    ((Double.ofRat false (1 / 10)).toSingle.IsSingle ∧
      (Double.ofRat false (1 / 10)).toSingle.toRat? = some (13421773 * 2 ^ (-27 : Int)) ∧
      IsLeast (significantReadings (Double.ofRat false (1 / 10)).toSingle) 1) ∧
    ((Double.ofRat false (2 ^ 90)).toSingle.IsSingle ∧
      (Double.ofRat false (2 ^ 90)).toSingle.toRat? = some (2 ^ (90 : Int)) ∧
      significantDigits (writeSingle (Double.ofRat false (2 ^ 90)).toSingle) = 9 ∧
      IsLeast (significantReadings (Double.ofRat false (2 ^ 90)).toSingle) 8) := by
  have tenth := Double.toSingle_isSingle (Double.ofRat false (1 / 10))
  have power := Double.toSingle_isSingle (Double.ofRat false (2 ^ 90))
  have tenthValue : (Double.ofRat false (1 / 10)).toSingle.toRat? =
      some (13421773 * 2 ^ (-27 : Int)) := by decide +kernel
  have powerValue : (Double.ofRat false (2 ^ 90)).toSingle.toRat? = some (2 ^ (90 : Int)) := by
    decide +kernel
  refine ⟨⟨tenth, tenthValue, ?_⟩, power, powerValue,
    (writeSingle_fewest power powerValue).2 (by decide +kernel)⟩
  have least := (writeSingle_fewest tenth tenthValue).1 (by decide +kernel)
  rwa [show significantDigits (writeSingle (Double.ofRat false (1 / 10)).toSingle) = 1 by
    decide +kernel] at least

/-- The text of this power of two has nine digits, where a decimal of eight digits is read as it. -/
theorem power_notFewest : (Double.ofRat false (2 ^ 90)).toSingle.isFinite = true ∧
    ¬ IsLeast (significantReadings (Double.ofRat false (2 ^ 90)).toSingle)
      (significantDigits (writeSingle (Double.ofRat false (2 ^ 90)).toSingle)) := by
  refine ⟨by decide +kernel, fun least => ?_⟩
  have eight : 8 ∈ significantReadings (Double.ofRat false (2 ^ 90)).toSingle :=
    ⟨⟨12379401, 20⟩, ⟨false, by decide +kernel⟩, by decide +kernel⟩
  have nine : significantDigits (writeSingle (Double.ofRat false (2 ^ 90)).toSingle) = 9 := by
    decide +kernel
  have most := least.2 eight
  omega

end Formulary
