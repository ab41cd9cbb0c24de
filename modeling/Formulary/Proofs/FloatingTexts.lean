/-
Floating numbers as texts.

The text of a double reads as the double: the sign is kept, zeros and infinities have texts of
their own, and any other number is written as a decimal that reads back. The text of a number of
single precision is that of a double nearby, which is rounded to the number once it has been read.
Only what is no number may come back with another mark.

* `Double.ofText_signed` — numerals are read by their value, with a sign or without.
* `Layout.isText_write` — the text of a double is read as the double.
* `writeSingle_eq` — the text of a single-precision number is that of a double rounded to it.
* `Primitive.floating_inverts` — the floating types read their own texts.
-/

import Formulary.Proofs.DecimalTexts
import Formulary.Proofs.NumberOrder
import Formulary.Proofs.Promotion

namespace Formulary

open Text.Search (isBlankCode stripWhere)

/-! ### The codes of numerals -/

theorem toAsciiDigit_ascii {code : Nat} (h : code < 128) : Text.toAsciiDigit code = code := by
  revert code
  decide

theorem isNumeralCode_ascii {code : Nat} (h : isNumeralCode code = true) : code < 128 := by
  simp only [isNumeralCode, Bool.or_eq_true, isAsciiDigit_iff, decide_eq_true_eq] at h
  omega

/-- The codes of numerals are neither underscores nor blanks. -/
theorem isNumeralCode_solid {code : Nat} (h : isNumeralCode code = true) :
    code ≠ 95 ∧ isBlankCode code = false := by
  have each : ∀ code < 128, isNumeralCode code = true → code ≠ 95 ∧ isBlankCode code = false := by
    decide
  exact each code (isNumeralCode_ascii h) h

theorem toAsciiDigits_plain {codes : Codes} (plain : ∀ code ∈ codes, isNumeralCode code = true) :
    codes.map Text.toAsciiDigit = codes :=
  (List.map_congr_left fun code isIn =>
    toAsciiDigit_ascii (isNumeralCode_ascii (plain code isIn))).trans (List.map_id' codes)

theorem dropUnderscores_plain {before : Nat} {codes : Codes} (front : before ≠ 95)
    (plain : ∀ code ∈ codes, isNumeralCode code = true) :
    dropUnderscores before codes = some codes := by
  induction codes generalizing before with
  | nil => simp [dropUnderscores, front]
  | cons code rest ih =>
    have other := (isNumeralCode_solid (plain code List.mem_cons_self)).1
    have isRest := ih other fun code isIn => plain code (List.mem_cons_of_mem _ isIn)
    simp [dropUnderscores, other, front, isRest]

/-- A text without blanks is not stripped. -/
theorem stripWhere_solid {codes : Codes} (solid : ∀ code ∈ codes, isBlankCode code = false) :
    stripWhere isBlankCode codes = codes := by
  have keeps {codes : Codes} (solid : ∀ code ∈ codes, isBlankCode code = false) :
      codes.dropWhile isBlankCode = codes := by
    rw [List.dropWhile_eq_self_iff]
    intro some
    simp [solid _ (List.getElem_mem some)]
  have keepsBack := keeps fun code isIn => solid code (List.mem_reverse.mp isIn)
  rw [stripWhere, keeps solid, keepsBack, List.reverse_reverse]

/-! ### Reading -/

namespace Double

/-- What a text without a sign is read as behind a sign. -/
def unsigned? (negative : Bool) (codes : Codes) : Option Double :=
  let word := String.ofList (codes.map fun code => Char.ofNat (lowerAscii code))
  if word == "inf" || word == "infinity" then some (.infinity negative)
  else if word == "nan" then some .freshNaN
  else (dropUnderscores 0 codes).bind fun plain => (numeral? plain).map (ofDecimal negative)

theorem ofText_minus (codes : Codes) :
    ofText? (45 :: codes) = unsigned? true (codes.map Text.toAsciiDigit) := rfl

theorem ofText_digit {code : Nat} {rest : Codes} (digit : isAsciiDigit code = true) :
    ofText? (code :: rest) = unsigned? false ((code :: rest).map Text.toAsciiDigit) := by
  have ascii : code < 128 := (isAsciiDigit_iff.mp digit).2.trans_lt (by decide)
  have same := toAsciiDigit_ascii ascii
  rw [List.map_cons, same, ofText?, List.map_cons, same]
  split
  next isSigned =>
  split at isSigned
  · next minus =>
    cases minus
    cases digit
  · next plus =>
    cases plus
    cases digit
  · cases isSigned
    rfl

/-- A word that begins with a letter is none that begins with a digit. -/
theorem word_ne {code : Nat} {rest : Codes} {word : String} {c : Char} {letters : List Char}
    (digit : isAsciiDigit code = true) (isWord : word.toList = c :: letters)
    (letter : 57 < c.toNat) :
    String.ofList ((code :: rest).map fun code => Char.ofNat (lowerAscii code)) ≠ word := by
  rintro rfl
  have each : ∀ code < 58, (Char.ofNat (lowerAscii code)).toNat ≤ 57 := by decide
  rw [String.toList_ofList, List.map_cons, List.cons.injEq] at isWord
  have below := each code (Nat.lt_succ_of_le (isAsciiDigit_iff.mp digit).2)
  rw [isWord.1] at below
  omega

/-- A numeral without a sign is read by its value. -/
theorem unsigned_numeral {codes : Codes} {q : Rat} (h : IsNumeral codes q) (negative : Bool) :
    ∃ d, d.toRat = q ∧ unsigned? negative codes = some (ofDecimal negative d) := by
  obtain ⟨d, isNumber, value⟩ := h.value
  obtain ⟨code, rest, isCodes, digit⟩ := h.digit
  have noWord (word : String) {c : Char} {letters : List Char} (isWord : word.toList = c :: letters)
      (letter : 57 < c.toNat) :
      (String.ofList (codes.map fun code => Char.ofNat (lowerAscii code)) == word) = false := by
    rw [isCodes]
    exact beq_eq_false_iff_ne.mpr (word_ne digit isWord letter)
  refine ⟨d, value, ?_⟩
  rw [unsigned?]
  simp only [noWord "inf" rfl (by decide), noWord "infinity" rfl (by decide),
    noWord "nan" rfl (by decide), Bool.or_false, Bool.false_eq_true, if_false,
    dropUnderscores_plain (by decide : 0 ≠ 95) h.plain, Option.bind_some, isNumber, Option.map_some]

/-- **A numeral is read by its value,** with a sign in front or without. -/
theorem ofText_signed {codes : Codes} {q : Rat} (h : IsNumeral codes q) (negative : Bool) :
    ∃ d, d.toRat = q ∧
      ofText? ((if negative then [45] else []) ++ codes) = some (ofDecimal negative d) := by
  obtain ⟨d, value, read⟩ := unsigned_numeral h negative
  refine ⟨d, value, ?_⟩
  cases negative with
  | true => rwa [if_pos rfl, List.singleton_append, ofText_minus, toAsciiDigits_plain h.plain]
  | false =>
    obtain ⟨code, rest, isCodes, digit⟩ := h.digit
    rw [if_neg Bool.false_ne_true, List.nil_append]
    rw [isCodes, ofText_digit digit, ← isCodes, toAsciiDigits_plain h.plain, read]

end Double

/-! ### Texts -/

/-- A double that is a number has a sign and the number of a magnitude. -/
theorem Double.exists_index {x : Double} (number : x.isNaN = false) :
    ∃ negative index, index ≤ Format.binary64.infinity ∧ x = .ofIndex negative index := by
  cases x with
  | nan mark => cases number
  | signed negative index =>
    have bound := Nat.le_of_lt_succ index.isLt
    refine ⟨negative, index.val, bound, ?_⟩
    rw [ofIndex, Double.signed.injEq]
    exact ⟨rfl, Fin.ext (Nat.min_eq_left bound).symm⟩

/-- A text without blanks that is read as a double. -/
structure IsText (codes : Codes) (x : Double) : Prop where
  solid : ∀ code ∈ codes, isBlankCode code = false
  read : Double.ofText? codes = some x

namespace Layout

open Format (binary64)

theorem isText_nan (mark : Nat) : IsText (codesOf (display.write (.nan mark))) .freshNaN :=
  ⟨show ∀ code ∈ [78, 97, 78], isBlankCode code = false by decide, rfl⟩

theorem isText_zero (negative : Bool) :
    IsText (codesOf (display.write (.zero negative))) (.zero negative) := by
  cases negative with
  | false => exact ⟨by decide, rfl⟩
  | true => exact ⟨by decide, rfl⟩

theorem isText_infinity (negative : Bool) :
    IsText (codesOf (display.write (.infinity negative))) (.infinity negative) := by
  cases negative with
  | false => exact ⟨by decide, rfl⟩
  | true => exact ⟨by decide, rfl⟩

/-- A number that is written as a decimal. -/
theorem isText_decimal (negative : Bool) {index : Nat} (positive : 0 < index)
    (finite : index < binary64.infinity) :
    IsText ((if negative then [45] else []) ++ codesOf (display.decimal (.shortest index)))
      (.ofIndex negative index) := by
  have reads := Decimal.shortest_reads positive finite
  have given : binary64.nearest (Decimal.shortest index).toRat ≠ 0 := by
    rw [reads]
    exact positive.ne'
  have numeral := isNumeral_decimal (Decimal.digits_ne_zero given)
  obtain ⟨d, value, read⟩ := Double.ofText_signed numeral negative
  constructor
  · intro code isIn
    rcases List.mem_append.mp isIn with isSign | isNumeral
    · cases negative with
      | true =>
        rw [List.mem_singleton.mp isSign]
        decide
      | false => cases isSign
    · exact (isNumeralCode_solid (numeral.plain code isNumeral)).2
  · rw [read, Double.ofDecimal_reads negative positive finite (value ▸ reads)]

/-- The text of a number that is neither zero nor infinite. -/
theorem write_ofIndex (layout : Layout) (negative : Bool) {index : Nat} (positive : 0 < index)
    (finite : index < binary64.infinity) : layout.write (.ofIndex negative index) =
      (if negative then ['-'] else []) ++ layout.decimal (.shortest index) := by
  have same : min index 0x7FF0000000000000 = index := Nat.min_eq_left finite.le
  have below : index ≠ 0x7FF0000000000000 := finite.ne
  rw [Double.ofIndex, write]
  simp only [same, positive.ne', below, if_false]

/-- **The text of a double** is read as the double. -/
theorem isText_write {x : Double} (number : x.isNaN = false) :
    IsText (codesOf (display.write x)) x := by
  obtain ⟨negative, index, bound, rfl⟩ := Double.exists_index number
  by_cases zero : index = 0
  · subst zero
    exact isText_zero negative
  by_cases infinite : index = 0x7FF0000000000000
  · subst infinite
    exact isText_infinity negative
  · have positive := Nat.pos_of_ne_zero zero
    have finite : index < binary64.infinity := lt_of_le_of_ne bound infinite
    have sign : codesOf (if negative then ['-'] else []) = if negative then [45] else [] := by
      cases negative <;> rfl
    rw [write_ofIndex display negative positive finite, codesOf_append, sign]
    exact isText_decimal negative positive finite

end Layout

/-! ### Single precision -/

namespace Double

open Format (binary64)

/-- A finite double is the one nearest to its value. -/
theorem ofRat_toRat {x : Double} {q : Rat} (value : x.toRat? = some q) :
    ofRat x.isNegative q = x := by
  have number : x.isNaN = false := by
    cases x with
    | nan mark => cases value
    | signed negative index => rfl
  obtain ⟨negative, index, bound, rfl⟩ := exists_index number
  have finite : index < binary64.infinity := by
    refine lt_of_le_of_ne bound ?_
    rintro rfl
    cases negative <;> cases value
  rw [toRat?_ofIndex negative finite, Option.some_inj] at value
  subst value
  change ofRat negative _ = _
  have nearest := Format.binary64_proper.nearest_magnitude_eq finite
  rcases Nat.eq_zero_or_pos index with rfl | positive
  · rw [Format.magnitude_zero, neg_zero, ite_self, ofRat, if_pos rfl, zero]
  · have above := Decimal.magnitude_pos positive
    cases negative with
    | true =>
      have below := neg_neg_of_pos above
      rw [if_pos rfl, ofRat, if_neg below.ne, if_pos below, neg_neg, nearest]
    | false => rw [if_neg Bool.false_ne_true, ofRat, if_neg above.ne', if_neg above.not_gt, nearest]

theorem toSingle_zero (negative : Bool) : (zero negative).toSingle = zero negative := by
  have single : ofSingle negative 0 = zero negative := by
    rw [ofSingle, Format.magnitude_zero, neg_zero, ite_self, ofRat, if_pos rfl]
  rw [← single]
  exact toSingle_ofSingle negative (by decide)

theorem toSingle_infinite {x : Double} (number : x.isNaN = false) (infinite : x.isFinite = false) :
    x.toSingle = x := by
  cases x with
  | nan mark => cases number
  | signed negative index =>
    have last : index.val = 0x7FF0000000000000 := by simpa [isFinite] using infinite
    rw [toSingle, toRat?, if_pos last]
    rfl

/-- A number of single precision is not rounded. -/
theorem IsSingle.toSingle {x : Double} (single : x.IsSingle) (number : x.isNaN = false) :
    x.toSingle = x := by
  cases finite : x.isFinite with
  | false => exact toSingle_infinite number finite
  | true =>
    obtain ⟨m, e, short, deep, high, value⟩ := single finite
    have isNearest := ofRat_toRat value
    by_cases zero : (m : Rat) * 2 ^ e = 0
    · rw [← isNearest, ofRat, if_pos zero, toSingle_zero]
    · have anySign : ofRat x.isNegative ((m : Rat) * 2 ^ e) = ofRat false ((m : Rat) * 2 ^ e) := by
        rw [ofRat, ofRat, if_neg zero, if_neg zero]
      rw [← isNearest, anySign, toSingle_ofRat short deep high]

/-- Zeros apart, there is one double at a place of the order. -/
theorem eq_of_rank {x y : Double} {q : Rat} (value : y.toRat? = some q) (nonzero : q ≠ 0)
    (same : x.rank? = y.rank?) : x = y := by
  cases y with
  | nan mark => cases value
  | signed negative index =>
    have given : index.val ≠ 0 := by
      intro zero
      rw [toRat?, zero] at value
      simp only [Format.magnitude_zero, neg_zero, ite_self] at value
      cases value
      exact nonzero rfl
    cases x with
    | nan mark => cases negative <;> cases same
    | signed negative' index' =>
      cases negative <;> cases negative' <;> simp only [rank?, Option.some_inj] at same <;>
        first | omega | exact congrArg _ (Fin.ext (by omega))

end Double

/-- **The text of a number of single precision** is that of a double which is rounded to it. -/
theorem writeSingle_eq {x : Double} (rounded : x.toSingle = x) (number : x.isNaN = false) :
    ∃ y, y.isNaN = false ∧ writeSingle x = Layout.display.write y ∧ y.toSingle = x := by
  rw [writeSingle]
  split
  · exact ⟨x, number, rfl, rounded⟩
  · next q value =>
    split
    · exact ⟨x, number, rfl, rounded⟩
    · next nonzero =>
      simp only
      split
      · next y found =>
        have accepted := List.find?_some found
        have same : y.toSingle.rank? = x.rank? := beq_iff_eq.mp accepted
        obtain ⟨n, -, isCandidate⟩ := List.mem_map.mp (List.mem_of_find?_eq_some found)
        exact ⟨y, isCandidate ▸ Double.isNaN_ofRat _ _, rfl, Double.eq_of_rank value nonzero same⟩
      · exact ⟨x, number, rfl, rounded⟩

/-! ### Boxed types -/

namespace Primitive

theorem parse_double {codes : Codes} {x : Double} (text : IsText codes x) :
    Primitive.double.parse (.str codes) = .ok (.double x) := by
  rw [parse, Value.text?]
  simp only [stripWhere_solid text.solid, text.read]
  rfl

theorem parse_float {codes : Codes} {x : Double} (text : IsText codes x) :
    Primitive.float.parse (.str codes) = .ok (.single x.toSingle) := by
  rw [parse, Value.text?]
  simp only [stripWhere_solid text.solid, text.read]
  rfl

/-- The text of a value of a floating type is read as the value. -/
theorem parse_text {type : Primitive} (floating : type.isFloating = true) {value : Value}
    (holds : type.Holds value) (store : Store) : ∃ text read,
      (Display.text value).outcome store = (.ok text, store) ∧
        type.parse (.str text) = .ok read ∧ value.Settles read := by
  cases type with
  | double =>
    cases value with
    | double x =>
      cases number : x.isNaN with
      | false => exact ⟨_, _, rfl, parse_double (Layout.isText_write number), .same _⟩
      | true =>
        cases x with
        | nan mark => exact ⟨_, _, rfl, parse_double (Layout.isText_nan mark), .double ..⟩
        | signed negative index => cases number
    | _ => exact holds.elim
  | float =>
    cases value with
    | single x =>
      cases number : x.isNaN with
      | false =>
        have single : x.IsSingle := holds
        obtain ⟨y, isNumber, written, rounded⟩ := writeSingle_eq (single.toSingle number) number
        have read := parse_float (Layout.isText_write isNumber)
        rw [rounded, ← written] at read
        exact ⟨_, _, rfl, read, .same _⟩
      | true =>
        cases x with
        | nan mark => exact ⟨_, _, rfl, parse_float (Layout.isText_nan mark), .single ..⟩
        | signed negative index => cases number
    | _ => exact holds.elim
  | _ => cases floating

/-- **The floating types read their own texts.** What the static method that reads a number gets
from the text of a value is the value, with its sign. Only the mark of what is no number may be
another one. -/
theorem floating_inverts {type : Primitive} (floating : type.isFloating = true) {value : Value}
    (holds : type.Holds value) (store : Store) : ∃ text read behind,
      (Display.text value).outcome store = (.ok text, store) ∧
        (Kind.callStatic (.core (.boxed type)) type.parseName [.str text]).outcome store =
          (.ok read, behind) ∧ value.Settles read := by
  obtain ⟨text, read, written, parsed, settles⟩ := parse_text floating holds store
  have called : Kind.callStatic (.core (.boxed type)) type.parseName [.str text] =
      Action.ofResult (type.parse (.str text)) := by
    cases type <;> cases floating <;> rfl
  obtain ⟨settled, behind, ended, marked, -⟩ := Action.settle_ends read store
  refine ⟨text, settled, behind, written, ?_, settles.trans marked⟩
  rw [called, parsed]
  exact ended

/-- Negative zero, the least double and the tenth of single precision. -/
theorem parseDouble_parseFloat_invert :
    (∃ text read behind,
      (Display.text (.double (.zero true))).outcome Store.initial = (.ok text, Store.initial) ∧
        (Kind.callStatic (.core (.boxed .double)) "parseDouble" [.str text]).outcome Store.initial =
          (.ok read, behind) ∧ (Value.double (.zero true)).Settles read) ∧
    (∃ text read behind,
      (Display.text (.double (.ofIndex false 1))).outcome Store.initial =
          (.ok text, Store.initial) ∧
        (Kind.callStatic (.core (.boxed .double)) "parseDouble" [.str text]).outcome Store.initial =
          (.ok read, behind) ∧ (Value.double (.ofIndex false 1)).Settles read) ∧
    (∃ text read behind,
      (Display.text (.single (Double.ofRat false (1 / 10)).toSingle)).outcome Store.initial =
          (.ok text, Store.initial) ∧
        (Kind.callStatic (.core (.boxed .float)) "parseFloat" [.str text]).outcome Store.initial =
          (.ok read, behind) ∧
        (Value.single (Double.ofRat false (1 / 10)).toSingle).Settles read) := by
  have tenth : Primitive.float.Holds (.single (Double.ofRat false (1 / 10)).toSingle) :=
    Double.toSingle_isSingle _
  exact ⟨@floating_inverts .double rfl (.double (.zero true)) trivial _,
    @floating_inverts .double rfl (.double (.ofIndex false 1)) trivial _,
    @floating_inverts .float rfl _ tenth _⟩

end Primitive

end Formulary
