/-
What is read as a number of single precision.

Reading a decimal is rounding its value to double precision, however long the exponent is, and a
double is rounded to single precision by its value. So whether a decimal is read as a number of
single precision is a question about rationals only.

* `Double.toSingle_ofRat_iff`, `Double.rank_toSingle_iff` — the double nearest to a rational,
  rounded to single precision.
* `Double.ofDecimal_eq` — reading a decimal is rounding its value.
* `Decimal.readsSingle_iff` — the decimals that are read as a number of single precision.
-/

import Formulary.Proofs.DoubleRounding
import Formulary.Proofs.FloatingTexts

namespace Formulary

open Format (binary32 binary64)

/-! ### Doubles -/

namespace Double

variable {x y : Double} {q w : Rat}

/-- A double that is finite has its value with its sign. -/
theorem sign_toRat? (value : y.toRat? = some q) : q = if y.isNegative then -|q| else |q| := by
  cases y with
  | nan mark => cases value
  | signed negative index =>
    rw [toRat?] at value
    split at value
    · cases value
    · cases value
      have nonneg := Format.magnitude_nonneg binary64 index.val
      cases negative with
      | false => exact (abs_of_nonneg nonneg).symm
      | true =>
        simp only [isNegative, if_true, abs_neg]
        rw [abs_of_nonneg nonneg]

theorem toRat?_infinite (infinite : y.isFinite = false) : y.toRat? = none := by
  cases y with
  | nan mark => rfl
  | signed negative index =>
    have last : index.val = 0x7FF0000000000000 := by simpa [isFinite] using infinite
    rw [toRat?, if_pos last]

/-- **A double below the bound** of single precision is rounded to it. -/
theorem toRat?_toSingle (value : y.toRat? = some q) (below : |q| < binary32.overflow) :
    y.toSingle.toRat? = some (binary32.rounded q) := by
  have proper := Format.binary32_proper
  have signed := sign_toRat? value
  have finite : binary32.nearest |q| < binary32.infinity := by
    obtain zero | positive := (abs_nonneg q).eq_or_lt
    · rw [← zero]
      decide
    · exact lt_of_le_of_ne (Format.nearest_le _)
        (mt (proper.nearest_infinite_iff positive).mp below.not_ge)
  have magnitude : binary32.magnitude (binary32.nearest |q|) = binary32.rounded |q| := by
    obtain zero | positive := (abs_nonneg q).eq_or_lt
    · rw [← zero, Format.nearest, if_pos rfl, Format.magnitude_zero, Format.rounded_zero]
    · exact proper.magnitude_nearest_eq positive below
  have single : y.toSingle = ofSingle y.isNegative (binary32.nearest |q|) := by
    rw [toSingle, value]
    simp only [ratAbs_eq]
    rw [if_neg finite.ne, ofSingle]
  rw [single, toRat?_ofSingle _ finite, magnitude, Option.some_inj]
  cases negative : y.isNegative with
  | false =>
    rw [negative, if_neg Bool.false_ne_true] at signed
    rw [if_neg Bool.false_ne_true, ← signed]
  | true =>
    rw [negative, if_pos rfl] at signed
    rw [if_pos rfl, ← Format.rounded_neg, ← signed]

/-- A double from the bound on becomes infinite. -/
theorem toRat?_toSingle_above (value : y.toRat? = some q) (above : binary32.overflow ≤ |q|) :
    y.toSingle.toRat? = none := by
  have proper := Format.binary32_proper
  have positive : 0 < |q| := lt_of_lt_of_le (by positivity) (proper.overflow_between.1.trans above)
  have infinite := (proper.nearest_infinite_iff positive).mpr above
  rw [toSingle, value]
  simp only [ratAbs_eq]
  rw [if_pos infinite]
  cases y.isNegative <;> rfl

/-- **The double nearest to a rational** becomes the number of single precision that the rational is
rounded to. -/
theorem toSingle_ofRat_iff (zeroSign : Bool) (bounded : |q| < 2 ^ (128 : Int)) :
    (ofRat zeroSign w).toSingle.toRat? = some q ↔ roundedTwice w = q := by
  have proper := Format.binary32_proper
  have far (above : 2 ^ (128 : Int) ≤ |roundedTwice w|) : roundedTwice w ≠ q := by
    rintro rfl
    exact bounded.not_ge above
  by_cases below : |w| < overflow
  · have value := toRat?_ofRat_rounded zeroSign below
    by_cases single : |binary64.rounded w| < binary32.overflow
    · rw [toRat?_toSingle value single, Option.some_inj, roundedTwice]
    · rw [toRat?_toSingle_above value (not_lt.mp single)]
      refine iff_of_false (Option.some_ne_none q).symm (far ?_)
      have top : binary32.rounded binary32.overflow = 2 ^ (128 : Int) := proper.rounded_overflow
      rw [roundedTwice, proper.abs_rounded, ← top]
      exact proper.rounded_mono (not_lt.mp single)
  · have infinite : (ofRat zeroSign w).isFinite = false :=
      Bool.eq_false_iff.mpr (mt (isFinite_ofRat_iff zeroSign w).mp below)
    have absent : (ofRat zeroSign w).toSingle.toRat? = none := by
      rw [toSingle_infinite (isNaN_ofRat _ _) infinite]
      exact toRat?_infinite infinite
    rw [absent]
    refine iff_of_false (Option.some_ne_none q).symm (far ?_)
    have large : (2 : Rat) ^ (128 : Int) ≤ |w| := calc
      (2 : Rat) ^ (128 : Int) ≤ 2 ^ (1023 : Int) := zpow_le_zpow_right₀ one_le_two (by decide)
      _ ≤ binary64.overflow := Format.binary64_proper.overflow_between.1
      _ = overflow := binary64_overflow
      _ ≤ |w| := not_lt.mp below
    rw [abs_roundedTwice, ← roundedTwice_power (k := 128) (by decide)]
    exact roundedTwice_mono large

theorem IsSingle.significand (single : x.IsSingle) (value : x.toRat? = some q) :
    ∃ m e, HasSingleSignificand q m e := by
  have finite : x.isFinite = true := by
    by_contra infinite
    rw [toRat?_infinite (Bool.eq_false_iff.mpr infinite)] at value
    cases value
  obtain ⟨m, e, short, deep, high, same⟩ := single finite
  exact ⟨m, e, Option.some_inj.mp (value.symm.trans same), short, deep, high⟩

/-- **What compares equal to a number of single precision** after it has been rounded. -/
theorem rank_toSingle_iff (zeroSign : Bool) (single : x.IsSingle) (value : x.toRat? = some q)
    (nonzero : q ≠ 0) :
    (ofRat zeroSign w).toSingle.rank? = x.rank? ↔ roundedTwice w = q := by
  obtain ⟨m, e, h⟩ := single.significand value
  rw [← toSingle_ofRat_iff zeroSign h.abs_lt]
  constructor
  · intro same
    rw [eq_of_rank value nonzero same, value]
  · intro reads
    have anySign (s t : Bool) : ofRat s q = ofRat t q := by
      rw [ofRat, ofRat, if_neg nonzero, if_neg nonzero]
    rw [← ofRat_toRat reads, ← ofRat_toRat value, anySign]

/-! ### Decimals -/

theorem ofRat_magnitude (negative : Bool) (positive : 0 < w) :
    ofRat negative (if negative then -w else w) = ofIndex negative (binary64.nearest w) := by
  cases negative with
  | false => rw [if_neg Bool.false_ne_true, ofRat, if_neg positive.ne', if_neg positive.le.not_gt]
  | true =>
    have below := neg_lt_zero.mpr positive
    rw [if_pos rfl, ofRat, if_neg below.ne, if_pos below, neg_neg]

/-- **Reading a decimal is rounding its value.** The bounds on its exponent only settle what would
be rounded to zero or to infinity. -/
theorem ofDecimal_eq (negative : Bool) (d : Decimal) :
    ofDecimal negative d = ofRat negative (if negative then -d.toRat else d.toRat) := by
  by_cases zero : d.digits = 0
  · have nothing : d.toRat = 0 := by rw [Decimal.toRat, zero, Nat.cast_zero, zero_mul]
    rw [ofDecimal, nothing, neg_zero, ite_self, ofRat, if_pos rfl]
    simp [zero]
  obtain ⟨lower, upper⟩ := Decimal.toRat_between zero
  have positive : 0 < d.toRat := lt_of_lt_of_le (by positivity) lower
  rw [ofDecimal]
  simp only [zero, decide_false, Bool.false_or, decide_eq_true_eq]
  split
  · next tiny =>
    have nothing : binary64.nearest d.toRat = 0 := by
      by_contra given
      have least := le_of_nearest_pos positive given
      have most : d.toRat < 2 ^ (-1075 : Int) := calc
        d.toRat < 10 ^ ((digitCount d.digits : Int) + d.exponent) := upper
        _ ≤ 10 ^ (-400 : Int) := zpow_le_zpow_right₀ (by norm_num) tiny.le
        _ ≤ 2 ^ (-1080 : Int) := by
          rw [zpow_neg, zpow_neg]
          exact inv_anti₀ (by positivity) two_pow_le
        _ ≤ 2 ^ (-1075 : Int) := zpow_le_zpow_right₀ one_le_two (by decide)
      exact least.not_gt most
    rw [ofRat_magnitude negative positive, nothing, Double.zero]
  · split
    · next large =>
      have infinite : binary64.nearest d.toRat = binary64.infinity := by
        rw [Format.binary64_proper.nearest_infinite_iff positive]
        calc binary64.overflow ≤ 2 ^ ((binary64.precision : Int) + binary64.maxExponent) :=
              Format.binary64_proper.overflow_between.2
          _ ≤ 2 ^ (1080 : Int) := zpow_le_zpow_right₀ one_le_two (by decide)
          _ ≤ 10 ^ (400 : Int) := two_pow_le
          _ ≤ 10 ^ ((digitCount d.digits : Int) + d.exponent - 1) :=
            zpow_le_zpow_right₀ (by norm_num) (by omega)
          _ ≤ d.toRat := lower
      rw [ofRat_magnitude negative positive, infinite]
      rfl
    · rfl

end Double

/-- Whether a decimal is read as a number that compares equal to a given one of single precision. -/
def Decimal.ReadsSingle (d : Decimal) (x : Double) : Prop :=
  ∃ negative, (Double.ofDecimal negative d).toSingle.rank? = x.rank?

/-- A decimal is read as a number of single precision, with its sign, if its value is rounded to the
absolute value of the number. -/
theorem Decimal.readsSingle_iff {d : Decimal} {x : Double} {q : Rat} (single : x.IsSingle)
    (value : x.toRat? = some q) (nonzero : q ≠ 0) :
    d.ReadsSingle x ↔ d.toRat ∈ readings |q| := by
  have nonneg : 0 ≤ d.toRat := by
    rw [Decimal.toRat]
    positivity
  have above : 0 ≤ roundedTwice d.toRat := roundedTwice_zero ▸ roundedTwice_mono nonneg
  have reads (negative : Bool) : (Double.ofDecimal negative d).toSingle.rank? = x.rank? ↔
      (if negative then -roundedTwice d.toRat else roundedTwice d.toRat) = q := by
    rw [Double.ofDecimal_eq, Double.rank_toSingle_iff negative single value nonzero]
    cases negative with
    | false => rfl
    | true => rw [if_pos rfl, if_pos rfl, roundedTwice_neg]
  rw [ReadsSingle, Bool.exists_bool, reads, reads, if_neg Bool.false_ne_true, if_pos rfl]
  change _ ↔ roundedTwice d.toRat = |q|
  constructor
  · rintro (rfl | rfl)
    · rw [abs_of_nonneg above]
    · rw [abs_neg, abs_of_nonneg above]
  · intro same
    rw [same]
    exact (abs_choice q).imp_right fun flipped => by rw [flipped, neg_neg]

end Formulary
