/-
Decimals as texts.

The layout of single numbers moves the point of a decimal, fills it up with zeros in front or
behind, and shifts the exponent by as many places: what is read from the text is a decimal of the
same value, though not always with the same digits.

* `natOfDigits_append` — what digits in two runs write.
* `numeral_written` — digits, a point, digits and an exponent are read as they stand.
* `IsNumeral` — the texts that are read as a number of a value.
* `Layout.isNumeral_decimal` — the text of a decimal is read as a number of its value.
-/

import Formulary.Proofs.IntegerTexts
import Formulary.Proofs.NearestDecimals

namespace Formulary

/-! ### Runs of digits -/

/-- A run of ASCII digits, which may be empty. -/
def AllDigits (codes : Codes) : Prop :=
  ∀ code ∈ codes, isAsciiDigit code = true

theorem AllDigits.append {front back : Codes} (h : AllDigits front) (h' : AllDigits back) :
    AllDigits (front ++ back) := by
  intro code isIn
  rcases List.mem_append.mp isIn with isFront | isBack
  · exact h code isFront
  · exact h' code isBack

theorem AllDigits.of_subset {codes other : Codes} (h : AllDigits codes)
    (subset : ∀ code ∈ other, code ∈ codes) : AllDigits other :=
  fun code isIn => h code (subset code isIn)

theorem IsDigits.all {codes : Codes} (h : IsDigits codes) : AllDigits codes :=
  fun code isIn => isAsciiDigit_iff.mpr (h.2 code isIn)

/-- Zeros. -/
def zeros (count : Nat) : Codes :=
  List.replicate count 48

theorem codesOf_append (front back : List Char) :
    codesOf (front ++ back) = codesOf front ++ codesOf back :=
  List.map_append

theorem codesOf_cons (c : Char) (rest : List Char) :
    codesOf (c :: rest) = c.toNat :: codesOf rest := rfl

theorem codesOf_take (count : Nat) (text : List Char) :
    codesOf (text.take count) = (codesOf text).take count :=
  List.map_take

theorem codesOf_drop (count : Nat) (text : List Char) :
    codesOf (text.drop count) = (codesOf text).drop count :=
  List.map_drop

theorem codesOf_zeros (count : Nat) : codesOf (List.replicate count '0') = zeros count :=
  List.map_replicate

@[simp]
theorem length_zeros (count : Nat) : (zeros count).length = count :=
  List.length_replicate

theorem allDigits_zeros (count : Nat) : AllDigits (zeros count) := by
  intro code isIn
  rw [List.eq_of_mem_replicate isIn]
  rfl

/-- Two runs of digits, one behind the other. -/
theorem natOfDigits_append (front back : Codes) :
    natOfDigits (front ++ back) = natOfDigits front * 10 ^ back.length + natOfDigits back := by
  simp only [natOfDigits_eq, decimalNumber, List.reverse_append, List.map_append,
    Nat.ofDigits_append, List.length_map, List.length_reverse]
  ring

theorem natOfDigits_zeros (count : Nat) : natOfDigits (zeros count) = 0 := by
  induction count with
  | zero => rfl
  | succ count ih =>
    rw [zeros, List.replicate_succ', natOfDigits_append, ← zeros, ih]
    rfl

theorem natOfDigits_toDigits (n : Nat) : natOfDigits (codesOf (Nat.toDigits 10 n)) = n := by
  rw [natOfDigits_eq, decimalNumber_toDigits]

/-! ### Numerals -/

/-- Whether a text does not begin with a digit. -/
def EndsDigits (text : Codes) : Prop :=
  text.takeWhile isAsciiDigit = [] ∧ text.dropWhile isAsciiDigit = text

theorem endsDigits_nil : EndsDigits [] := ⟨rfl, rfl⟩

theorem endsDigits_cons {code : Nat} {rest : Codes} (other : isAsciiDigit code = false) :
    EndsDigits (code :: rest) := by
  constructor
  · rw [List.takeWhile_cons_of_neg (by simp [other])]
  · rw [List.dropWhile_cons_of_neg (by simp [other])]

theorem AllDigits.takeWhile {digits rest : Codes} (h : AllDigits digits) (ends : EndsDigits rest) :
    (digits ++ rest).takeWhile isAsciiDigit = digits := by
  rw [List.takeWhile_append_of_pos h, ends.1, List.append_nil]

theorem AllDigits.dropWhile {digits rest : Codes} (h : AllDigits digits) (ends : EndsDigits rest) :
    (digits ++ rest).dropWhile isAsciiDigit = rest := by
  rw [List.dropWhile_append_of_pos h, ends.2]

/-- Digits, a point, digits and an exponent are read as they stand. -/
theorem numeral_written {whole fraction tail : Codes} {exponent : Int} (some : whole ≠ [])
    (wholeDigits : AllDigits whole) (fractionDigits : AllDigits fraction) (ends : EndsDigits tail)
    (isExponent : exponentOf? tail = .some exponent) :
    numeral? (whole ++ 46 :: (fraction ++ tail)) =
      .some ⟨natOfDigits (whole ++ fraction), exponent - fraction.length⟩ := by
  have point : EndsDigits (46 :: (fraction ++ tail)) := endsDigits_cons rfl
  rw [numeral?]
  simp only [wholeDigits.takeWhile point, wholeDigits.dropWhile point,
    fractionDigits.takeWhile ends, fractionDigits.dropWhile ends, isExponent]
  simp [some]

/-- The codes of numerals: digits, the point, the mark of an exponent and the sign behind it. -/
def isNumeralCode (code : Nat) : Bool :=
  isAsciiDigit code || code = 46 || code = 69 || code = 45

/-- A text that begins with a digit and is read as a number of a value. -/
structure IsNumeral (codes : Codes) (q : Rat) : Prop where
  digit : ∃ code rest, codes = code :: rest ∧ isAsciiDigit code = true
  plain : ∀ code ∈ codes, isNumeralCode code = true
  value : ∃ d, numeral? codes = some d ∧ d.toRat = q

/-- What may stand behind the digits of a numeral: nothing, or an exponent. -/
structure IsTail (tail : Codes) (exponent : Int) : Prop where
  ends : EndsDigits tail
  plain : ∀ code ∈ tail, isNumeralCode code = true
  value : exponentOf? tail = some exponent

theorem isTail_nil : IsTail [] 0 :=
  ⟨endsDigits_nil, nofun, rfl⟩

theorem AllDigits.plain {codes : Codes} (h : AllDigits codes) :
    ∀ code ∈ codes, isNumeralCode code = true := by
  intro code isIn
  rw [isNumeralCode, h code isIn]
  rfl

/-- **Digits around a point, with an exponent behind them,** are a numeral. -/
theorem isNumeral_written {whole fraction tail : Codes} {exponent : Int} (some : whole ≠ [])
    (wholeDigits : AllDigits whole) (fractionDigits : AllDigits fraction)
    (isTail : IsTail tail exponent) :
    IsNumeral (whole ++ 46 :: (fraction ++ tail))
      (natOfDigits (whole ++ fraction) * 10 ^ (exponent - fraction.length)) where
  digit := by
    obtain ⟨code, rest, rfl⟩ := List.exists_cons_of_ne_nil some
    exact ⟨code, _, rfl, wholeDigits code List.mem_cons_self⟩
  plain := by
    intro code isIn
    rcases List.mem_append.mp isIn with isWhole | isBehind
    · exact wholeDigits.plain code isWhole
    rcases List.mem_cons.mp isBehind with rfl | isBehind
    · rfl
    rcases List.mem_append.mp isBehind with isFraction | isIn
    · exact fractionDigits.plain code isFraction
    · exact isTail.plain code isIn
  value := ⟨_, numeral_written some wholeDigits fractionDigits isTail.ends isTail.value, rfl⟩

/-- What stands behind a point: some digits, or a zero where there are none. -/
def fractionOf (digits : Codes) : Codes :=
  if digits.isEmpty then [48] else digits

theorem codesOf_fraction (text : List Char) :
    codesOf (if text.isEmpty then ['0'] else text) = fractionOf (codesOf text) := by
  cases text <;> rfl

/-- **Digits with a point among them or behind them** are a numeral. The zero that stands behind the
point for no digits does not count. -/
theorem isNumeral_split {digits tail : Codes} {count : Nat} {exponent : Int} (some : 0 < count)
    (enough : count ≤ digits.length) (allDigits : AllDigits digits)
    (isTail : IsTail tail exponent) :
    IsNumeral (digits.take count ++ 46 :: (fractionOf (digits.drop count) ++ tail))
      (natOfDigits digits * 10 ^ (exponent - (digits.length - count : Nat))) := by
  have whole : digits.take count ≠ [] := by
    rw [ne_eq, List.take_eq_nil_iff, not_or]
    exact ⟨some.ne', by rintro rfl; simp at enough; omega⟩
  have wholeDigits : AllDigits (digits.take count) :=
    allDigits.of_subset fun _ => List.mem_of_mem_take
  rw [fractionOf]
  split
  · next noFraction =>
    have all : digits.length = count := by
      rw [List.isEmpty_iff, List.drop_eq_nil_iff] at noFraction
      omega
    have written := isNumeral_written whole wholeDigits (allDigits_zeros 1) isTail
    rw [List.take_of_length_le all.le, natOfDigits_append] at written
    rw [List.take_of_length_le all.le, all, Nat.sub_self]
    have value :
        ((natOfDigits digits * 10 ^ (zeros 1).length + natOfDigits (zeros 1) : Nat) : Rat) *
          10 ^ (exponent - (zeros 1).length) = natOfDigits digits * 10 ^ (exponent - (0 : Nat)) := by
      rw [natOfDigits_zeros, length_zeros, Nat.cast_one, zpow_sub_one₀ (by norm_num)]
      push_cast
      rw [sub_zero]
      ring
    rw [value] at written
    exact written
  · have fractionDigits : AllDigits (digits.drop count) :=
      allDigits.of_subset fun _ => List.mem_of_mem_drop
    have written := isNumeral_written whole wholeDigits fractionDigits isTail
    rwa [List.take_append_drop, List.length_drop] at written

/-! ### Exponents -/

theorem exponentOf_digits {digits : Codes} (h : IsDigits digits) :
    exponentOf? (69 :: digits) = some (natOfDigits digits : Int) := by
  have all : digits.all isAsciiDigit = true := List.all_eq_true.mpr h.all
  rw [exponentOf?]
  · simp [all, h.1]
  · rintro rest rfl
    exact absurd h.head.1 (by decide)
  · rintro rest rfl
    exact absurd h.head.1 (by decide)

theorem exponentOf_minus {digits : Codes} (h : IsDigits digits) :
    exponentOf? (69 :: 45 :: digits) = some (-natOfDigits digits : Int) := by
  have all : digits.all isAsciiDigit = true := List.all_eq_true.mpr h.all
  rw [exponentOf?]
  simp [all, h.1]

/-! ### Layouts -/

namespace Layout

variable {d : Decimal}

/-- The codes of the digits of a decimal. -/
def digitCodes (d : Decimal) : Codes :=
  codesOf d.digitChars

theorem digitCodes_all (d : Decimal) : AllDigits (digitCodes d) :=
  (isDigits_toDigits d.digits).all

theorem natOfDigits_digitCodes (d : Decimal) : natOfDigits (digitCodes d) = d.digits :=
  natOfDigits_toDigits d.digits

theorem length_digitCodes (nonzero : d.digits ≠ 0) :
    (digitCodes d).length = digitCount d.digits := by
  rw [digitCodes, codesOf, List.length_map, digitCount, if_neg nonzero, Decimal.digitChars]

/-- The exponent of the last digit, counted from the first one. -/
theorem leading_length (nonzero : d.digits ≠ 0) :
    d.leadingExponent + 1 - (digitCodes d).length = d.exponent := by
  rw [length_digitCodes nonzero, Decimal.leadingExponent]
  ring

/-- An exponent behind its mark. -/
theorem isTail_exponent (exponent : Int) :
    IsTail (codesOf (display.mark :: exponentChars display.plus display.exponentWidth exponent))
      exponent := by
  have isDigits := isDigits_toDigits exponent.natAbs
  have number := natOfDigits_toDigits exponent.natAbs
  have wide : display.exponentWidth - (Nat.toDigits 10 exponent.natAbs).length = 0 :=
    Nat.sub_eq_zero_of_le Nat.length_toDigits_pos
  have mark {codes : Codes} (plain : ∀ code ∈ codes, isNumeralCode code = true) :
      ∀ code ∈ 69 :: codes, isNumeralCode code = true := List.forall_mem_cons.mpr ⟨rfl, plain⟩
  rw [exponentChars, wide, List.replicate_zero, List.append_nil]
  split
  · next negative =>
    have read := exponentOf_minus isDigits
    rw [number, show -(exponent.natAbs : Int) = exponent by omega] at read
    exact ⟨endsDigits_cons rfl, mark (List.forall_mem_cons.mpr ⟨rfl, isDigits.all.plain⟩), read⟩
  · next nonnegative =>
    have read := exponentOf_digits isDigits
    rw [number, show (exponent.natAbs : Int) = exponent by omega] at read
    exact ⟨endsDigits_cons rfl, mark isDigits.all.plain, read⟩

/-- A decimal below one, written with zeros behind the point. -/
theorem isNumeral_below (nonzero : d.digits ≠ 0) (below : d.leadingExponent < 0) :
    IsNumeral (codesOf (positional d.digitChars d.leadingExponent)) d.toRat := by
  obtain ⟨count, isCount⟩ : ∃ count : Nat, (-d.leadingExponent - 1).toNat = count := ⟨_, rfl⟩
  have written := isNumeral_written (List.cons_ne_nil 48 []) (allDigits_zeros 1)
    ((allDigits_zeros count).append (digitCodes_all d)) isTail_nil
  have text : codesOf (positional d.digitChars d.leadingExponent) =
      [48] ++ 46 :: ((zeros count ++ digitCodes d) ++ []) := by
    rw [positional, if_pos below, isCount, List.append_nil, digitCodes, ← codesOf_zeros,
      ← codesOf_append]
    rfl
  have place : 0 - ((zeros count ++ digitCodes d).length : Int) = d.exponent := by
    rw [List.length_append, length_zeros, ← leading_length nonzero]
    push_cast
    omega
  have number : natOfDigits ([48] ++ (zeros count ++ digitCodes d)) = d.digits := by
    rw [natOfDigits_append, natOfDigits_append, natOfDigits_zeros, natOfDigits_digitCodes,
      show natOfDigits [48] = 0 from rfl]
    omega
  rw [place, number] at written
  rw [text]
  exact written

/-- A decimal from one on, written with a point behind some of its digits or behind zeros. -/
theorem isNumeral_above (nonzero : d.digits ≠ 0) (above : 0 ≤ d.leadingExponent) :
    IsNumeral (codesOf (positional d.digitChars d.leadingExponent)) d.toRat := by
  obtain ⟨whole, isWhole⟩ : ∃ whole : Nat, d.leadingExponent.toNat + 1 = whole := ⟨_, rfl⟩
  obtain ⟨more, isMore⟩ : ∃ more : Nat, whole - (digitCodes d).length = more := ⟨_, rfl⟩
  have enough : whole ≤ (digitCodes d ++ zeros more).length := by
    rw [List.length_append, length_zeros]
    omega
  have written := isNumeral_split (by omega) enough
    ((digitCodes_all d).append (allDigits_zeros more)) isTail_nil
  have text : codesOf (positional d.digitChars d.leadingExponent) =
      (digitCodes d ++ zeros more).take whole ++
        46 :: (fractionOf ((digitCodes d ++ zeros more).drop whole) ++ []) := by
    have padded : digitCodes d ++ zeros more =
        codesOf (d.digitChars ++ List.replicate (whole - d.digitChars.length) '0') := by
      rw [codesOf_append, codesOf_zeros, ← isMore, digitCodes, codesOf, List.length_map]
    rw [positional, if_neg (Int.not_lt.mpr above), isWhole, codesOf_append, codesOf_cons,
      codesOf_fraction, codesOf_take, codesOf_drop, padded, List.append_nil]
    rfl
  have value : (natOfDigits (digitCodes d ++ zeros more) : Rat) *
      10 ^ (0 - (((digitCodes d ++ zeros more).length - whole : Nat) : Int)) = d.toRat := by
    have place : (more : Int) + (0 - (((digitCodes d ++ zeros more).length - whole : Nat) : Int)) =
        d.exponent := by
      rw [List.length_append, length_zeros, ← leading_length nonzero]
      omega
    rw [natOfDigits_append, natOfDigits_digitCodes, natOfDigits_zeros, length_zeros, Decimal.toRat,
      ← place, zpow_add₀ (by norm_num), zpow_natCast]
    push_cast
    ring
  rw [value] at written
  rw [text]
  exact written

/-- A decimal with one digit in front of the point. -/
theorem isNumeral_scientific (nonzero : d.digits ≠ 0) :
    IsNumeral (codesOf (display.scientific d.digitChars d.leadingExponent)) d.toRat := by
  have enough : 1 ≤ (digitCodes d).length := by
    rw [length_digitCodes nonzero]
    exact digitCount_pos nonzero
  have written := isNumeral_split Nat.one_pos enough (digitCodes_all d)
    (isTail_exponent d.leadingExponent)
  have text : codesOf (display.scientific d.digitChars d.leadingExponent) =
      (digitCodes d).take 1 ++ 46 :: (fractionOf ((digitCodes d).drop 1) ++
        codesOf (display.mark ::
          exponentChars display.plus display.exponentWidth d.leadingExponent)) := by
    have point : (if (d.digitChars.drop 1).isEmpty then
        if display.fraction then ['.', '0'] else [] else '.' :: d.digitChars.drop 1) =
          '.' :: (if (d.digitChars.drop 1).isEmpty then ['0'] else d.digitChars.drop 1) := by
      split <;> rfl
    rw [scientific, point, codesOf_append, codesOf_append, codesOf_cons, codesOf_fraction,
      codesOf_take, codesOf_drop, List.append_assoc]
    rfl
  have value : (natOfDigits (digitCodes d) : Rat) *
      10 ^ (d.leadingExponent - (((digitCodes d).length - 1 : Nat) : Int)) = d.toRat := by
    have place : d.leadingExponent - (((digitCodes d).length - 1 : Nat) : Int) = d.exponent := by
      rw [← leading_length nonzero]
      omega
    rw [natOfDigits_digitCodes, place, Decimal.toRat]
  rw [value] at written
  rw [text]
  exact written

/-- **The text of a decimal** is read as a number of its value. -/
theorem isNumeral_decimal (nonzero : d.digits ≠ 0) :
    IsNumeral (codesOf (display.decimal d)) d.toRat := by
  rw [decimal]
  split
  · by_cases below : d.leadingExponent < 0
    · exact isNumeral_below nonzero below
    · exact isNumeral_above nonzero (Int.not_lt.mp below)
  · exact isNumeral_scientific nonzero

end Layout

end Formulary
