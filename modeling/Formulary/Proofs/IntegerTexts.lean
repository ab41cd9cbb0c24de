/-
Integers as texts.

A boxed integral type reads exactly the texts that are an optional sign and decimal digits, with a
value in its range. The text of each of its values is among them and gives the value back. What is
no such text is refused for its form, and what is out of range for its size; the limit on the
length of a text that can be read at all lies beyond the texts considered here.

* `IntegerText` — an optional sign and digits, with the integer that they write.
* `integerOfText_iff` — the reading of a text, as this relation.
* `Primitive.parse_inverts` — the integral types read their own texts, and nothing else.
-/

import Formulary.Kind.Static
import Formulary.Proofs.Numeral
import Formulary.Proofs.Unboxing
import Formulary.Proofs.Wrapping

namespace Formulary

/-! ### The texts of integers -/

/-- One ASCII digit or more. -/
def IsDigits (digits : Codes) : Prop :=
  digits ≠ [] ∧ ∀ code ∈ digits, 48 ≤ code ∧ code ≤ 57

/-- The number that digits write, the first one counting most. -/
def decimalNumber (digits : Codes) : Nat :=
  Nat.ofDigits 10 (digits.reverse.map (· - 48))

/-- The texts that are an optional sign and digits, with the integers that they write. -/
inductive IntegerText : Codes → Int → Prop
  | unsigned {digits : Codes} : IsDigits digits → IntegerText digits (decimalNumber digits)
  | plus {digits : Codes} : IsDigits digits → IntegerText (43 :: digits) (decimalNumber digits)
  | minus {digits : Codes} : IsDigits digits → IntegerText (45 :: digits) (-decimalNumber digits)

theorem natOfDigits_eq (digits : Codes) : natOfDigits digits = decimalNumber digits := by
  induction digits using List.reverseRecOn with
  | nil => rfl
  | append_singleton digits code ih =>
    rw [natOfDigits, List.foldl_append]
    change natOfDigits digits * 10 + (code - 48) = _
    rw [ih, decimalNumber, decimalNumber, List.reverse_append, List.reverse_singleton,
      List.singleton_append, List.map_cons, Nat.ofDigits_cons]
    ring

theorem isAsciiDigit_iff {code : Nat} : isAsciiDigit code = true ↔ 48 ≤ code ∧ code ≤ 57 := by
  rw [isAsciiDigit, Bool.and_eq_true, decide_eq_true_eq, decide_eq_true_eq]

/-- The first of some digits is one. -/
theorem IsDigits.head {code : Nat} {rest : Codes} (h : IsDigits (code :: rest)) :
    48 ≤ code ∧ code ≤ 57 :=
  h.2 code List.mem_cons_self

theorem integerText_minus {digits : Codes} {i : Int} :
    IntegerText (45 :: digits) i ↔ IsDigits digits ∧ i = -decimalNumber digits := by
  constructor
  · intro written
    cases written with
    | unsigned isDigits => exact absurd isDigits.head.1 (by decide)
    | minus isDigits => exact ⟨isDigits, rfl⟩
  · rintro ⟨isDigits, rfl⟩
    exact .minus isDigits

theorem integerText_plus {digits : Codes} {i : Int} :
    IntegerText (43 :: digits) i ↔ IsDigits digits ∧ i = decimalNumber digits := by
  constructor
  · intro written
    cases written with
    | unsigned isDigits => exact absurd isDigits.head.1 (by decide)
    | plus isDigits => exact ⟨isDigits, rfl⟩
  · rintro ⟨isDigits, rfl⟩
    exact .plus isDigits

theorem integerText_unsigned {codes : Codes} {i : Int} (noMinus : ∀ rest, codes ≠ 45 :: rest)
    (noPlus : ∀ rest, codes ≠ 43 :: rest) :
    IntegerText codes i ↔ IsDigits codes ∧ i = decimalNumber codes := by
  constructor
  · intro written
    cases written with
    | unsigned isDigits => exact ⟨isDigits, rfl⟩
    | plus _ => exact absurd rfl (noPlus _)
    | minus _ => exact absurd rfl (noMinus _)
  · rintro ⟨isDigits, rfl⟩
    exact .unsigned isDigits

theorem isDigits_toDigits (n : Nat) : IsDigits (codesOf (Nat.toDigits 10 n)) := by
  refine ⟨?_, fun code isIn => ?_⟩
  · rw [codesOf, ne_eq, List.map_eq_nil_iff]
    exact Nat.toDigits_ne_nil
  · obtain ⟨c, isDigit, rfl⟩ := List.mem_map.mp isIn
    exact Literal.toDigits_code isDigit

/-- The digits of a number write it. -/
theorem decimalNumber_toDigits (n : Nat) : decimalNumber (codesOf (Nat.toDigits 10 n)) = n := by
  have same : natOfDigits (codesOf (Nat.toDigits 10 n)) =
      Nat.ofDigitChars 10 (Nat.toDigits 10 n) 0 := by
    rw [natOfDigits, codesOf, List.foldl_map]
    simp only [Nat.mul_comm _ 10]
    rfl
  rw [← natOfDigits_eq, same, Nat.ofDigitChars_toDigits (by decide) (by decide)]

/-- The decimal text of an integer writes it. -/
theorem integerText_intChars (i : Int) : IntegerText (codesOf (intChars i)) i := by
  have isDigits := isDigits_toDigits i.natAbs
  have number := decimalNumber_toDigits i.natAbs
  unfold intChars
  split
  · next negative =>
    have written := IntegerText.minus isDigits
    rwa [number, show -(i.natAbs : Int) = i by omega] at written
  · next nonnegative =>
    have written := IntegerText.unsigned isDigits
    rwa [number, show (i.natAbs : Int) = i by omega] at written

/-! ### Reading -/

namespace Primitive

/-- The integer that digits behind a sign write. -/
def signedDigits? (negative : Bool) (digits : Codes) : Option Int :=
  if digits.isEmpty || !digits.all isAsciiDigit || maxDigits < digits.length then none
  else some (if negative then -(natOfDigits digits : Int) else natOfDigits digits)

theorem integerOfText_minus (digits : Codes) :
    integerOfText? (45 :: digits) = signedDigits? true digits := rfl

theorem integerOfText_plus (digits : Codes) :
    integerOfText? (43 :: digits) = signedDigits? false digits := rfl

theorem integerOfText_unsigned {codes : Codes} (noMinus : ∀ rest, codes ≠ 45 :: rest)
    (noPlus : ∀ rest, codes ≠ 43 :: rest) :
    integerOfText? codes = signedDigits? false codes := by
  unfold integerOfText?
  split
  next same =>
  split at same
  · next rest => exact absurd rfl (noMinus rest)
  · next rest => exact absurd rfl (noPlus rest)
  · cases same
    rfl

theorem signedDigits_eq_some {negative : Bool} {digits : Codes} {i : Int}
    (short : digits.length ≤ maxDigits) :
    signedDigits? negative digits = some i ↔ IsDigits digits ∧
      i = if negative then -(decimalNumber digits : Int) else decimalNumber digits := by
  have refused : (digits.isEmpty || !digits.all isAsciiDigit ||
      decide (maxDigits < digits.length)) = true ↔ ¬IsDigits digits := by
    simp only [IsDigits, isAsciiDigit_iff, Bool.or_eq_true, List.isEmpty_iff, Bool.not_eq_true',
      decide_eq_true_eq, Nat.not_lt.mpr short, or_false, not_and_or, not_not,
      ← Bool.not_eq_true, List.all_eq_true, ne_eq]
  rw [signedDigits?, natOfDigits_eq]
  by_cases isDigits : IsDigits digits
  · rw [if_neg (fun refuses => refused.mp refuses isDigits), Option.some_inj]
    simp only [isDigits, true_and, eq_comm]
  · rw [if_pos (refused.mpr isDigits)]
    simp [isDigits]

/-- **A text is read as an integer** exactly if it is an optional sign and digits. -/
theorem integerOfText_iff {codes : Codes} (short : codes.length ≤ maxDigits) (i : Int) :
    integerOfText? codes = some i ↔ IntegerText codes i := by
  by_cases minus : ∃ digits, codes = 45 :: digits
  · obtain ⟨digits, rfl⟩ := minus
    rw [integerOfText_minus, integerText_minus,
      signedDigits_eq_some ((Nat.le_succ _).trans short)]
    rfl
  by_cases plus : ∃ digits, codes = 43 :: digits
  · obtain ⟨digits, rfl⟩ := plus
    rw [integerOfText_plus, integerText_plus,
      signedDigits_eq_some ((Nat.le_succ _).trans short)]
    rfl
  have noMinus : ∀ rest, codes ≠ 45 :: rest := fun rest same => minus ⟨rest, same⟩
  have noPlus : ∀ rest, codes ≠ 43 :: rest := fun rest same => plus ⟨rest, same⟩
  rw [integerOfText_unsigned noMinus noPlus, integerText_unsigned noMinus noPlus,
    signedDigits_eq_some short]
  rfl

/-! ### Boxed types -/

variable {type : Primitive} {bits : Nat} {value : Value} {codes : Codes} {i : Int}

theorem bits_pos (integral : type.bits? = some bits) : 0 < bits := by
  cases type <;> cases integral <;> decide

/-- An integral type casts an integer of its width to itself. -/
theorem castNumber_inBits (integral : type.bits? = some bits) (inRange : InBits bits i) :
    type.castNumber (.integer i false) = .ok (integerOf (decide (type = .long)) i) := by
  have cut : type.castNumber (.integer i false) =
      .ok (integerOf (decide (type = .long)) (wrap i bits)) := by
    cases type <;> cases integral <;> rfl
  rw [cut, wrap_same (bits_pos integral) inRange]

/-- What an integral type makes of a text. -/
theorem parse_integral (integral : type.bits? = some bits) (isText : value.text? = some codes) :
    type.parse value =
      match integerOfText? codes with
      | some i =>
        if wrap i bits = i then type.castNumber (.integer i false)
        else .error (.evaluation (.numberRange codes))
      | none => .error (.evaluation (.numberFormat codes)) := by
  rw [parse, isText]
  cases type <;> cases integral <;> simp only [bits?] <;> cases integerOfText? codes <;> rfl

/-- An integer in range is the value of the text. -/
theorem parse_inBits (integral : type.bits? = some bits) (isText : value.text? = some codes)
    (short : codes.length ≤ maxDigits) (written : IntegerText codes i) (inRange : InBits bits i) :
    type.parse value = .ok (integerOf (decide (type = .long)) i) := by
  have kept := wrap_same (bits_pos integral) inRange
  rw [parse_integral integral isText, (integerOfText_iff short i).mpr written]
  simp only [kept, if_true]
  exact castNumber_inBits integral inRange

/-- An integer out of range is refused for its size. -/
theorem parse_outside (integral : type.bits? = some bits) (isText : value.text? = some codes)
    (short : codes.length ≤ maxDigits) (written : IntegerText codes i) (outside : ¬InBits bits i) :
    type.parse value = .error (.evaluation (.numberRange codes)) := by
  have changed : wrap i bits ≠ i := fun kept =>
    outside (kept ▸ wrap_inBits i (bits_pos integral))
  rw [parse_integral integral isText, (integerOfText_iff short i).mpr written]
  simp only [changed, if_false]

/-- A text that writes no integer is refused for its form. -/
theorem parse_other (integral : type.bits? = some bits) (isText : value.text? = some codes)
    (short : codes.length ≤ maxDigits) (other : ∀ i, ¬IntegerText codes i) :
    type.parse value = .error (.evaluation (.numberFormat codes)) := by
  have unread : integerOfText? codes = none := by
    rw [Option.eq_none_iff_forall_ne_some]
    exact fun i read => other i ((integerOfText_iff short i).mp read)
  rw [parse_integral integral isText, unread]

/-- The values of an integral type are the integers of its width. -/
theorem Holds.integer (integral : type.bits? = some bits) (holds : type.Holds value) :
    ∃ i, value = integerOf (decide (type = .long)) i ∧ InBits bits i := by
  cases type with
  | long =>
    cases integral
    cases value with
    | long i => exact ⟨i, rfl, holds⟩
    | _ => exact holds.elim
  | int | short | byte =>
    cases integral
    cases value with
    | int i => exact ⟨i, rfl, holds⟩
    | _ => exact holds.elim
  | _ => cases integral

/-- The text of an integer that is not too long. -/
theorem text_integerOf (wide : Bool) (short : isTooLong i = false) (store : Store) :
    (Display.text (integerOf wide i)).outcome store = (.ok (codesOf (intChars i)), store) := by
  have written : store.plainText (integerOf wide i) = .ok (codesOf (intChars i)) := by
    cases wide <;>
      simp only [integerOf, if_true, Bool.false_eq_true, if_false, Store.plainText, Store.written,
        nestingLimit, Written.writeUpTo, Written.integer, short]
  -- No number has a method that gives its text.
  have shown : (Display.text (integerOf wide i)).outcome store =
      (store.plainText (integerOf wide i), store) := by
    cases wide with
    | true => exact (Action.outcome_get _ store).trans (Action.outcome_consult _ store)
    | false => exact (Action.outcome_get _ store).trans (Action.outcome_consult _ store)
  rw [shown, written]

theorem lt_ten_pow {n count digits : Nat} (small : n < Nat.pow 10 count) (few : count ≤ digits) :
    n < Nat.pow 10 digits :=
  small.trans_le (Nat.pow_le_pow_right (by decide) few)

/-- The integers of a width have twenty digits at most. -/
theorem natAbs_inBits (integral : type.bits? = some bits) (inRange : InBits bits i) :
    i.natAbs < Nat.pow 10 20 := by
  have few : bits ≤ 64 := by cases type <;> cases integral <;> decide
  exact inRange.natAbs_lt few

theorem not_isTooLong (small : i.natAbs < Nat.pow 10 20) : isTooLong i = false :=
  decide_eq_false (Nat.not_le.mpr (lt_ten_pow small (by decide)))

theorem length_intChars (small : i.natAbs < Nat.pow 10 20) :
    (codesOf (intChars i)).length ≤ maxDigits := by
  have few : (Nat.toDigits 10 i.natAbs).length ≤ 20 :=
    (Nat.length_toDigits_le_iff (by decide) (by decide)).mpr small
  have signed : (intChars i).length ≤ 21 := by
    unfold intChars
    split
    · exact Nat.succ_le_succ few
    · exact few.trans (Nat.le_succ _)
  rw [codesOf, List.length_map]
  exact signed.trans (by decide)

/-- **The integral types read their own texts, and nothing else.** The text of a value of such a
type reads as the value. A text of at most 4000 characters reads as an integer exactly if it writes
one in the range of the type, and is refused otherwise: for its size if it writes an integer, and
for its form if it writes none. -/
theorem parse_inverts (type : Primitive) {bits : Nat} (integral : type.bits? = some bits) :
    (∀ value, type.Holds value → ∀ store, ∃ text,
      (Display.text value).outcome store = (.ok text, store) ∧
        type.parse (.str text) = .ok value) ∧
    ∀ value codes, value.text? = some codes → codes.length ≤ 4000 →
      (∀ result, type.parse value = .ok result ↔ ∃ i, IntegerText codes i ∧ InBits bits i ∧
        result = integerOf (decide (type = .long)) i) ∧
      (∀ i, IntegerText codes i → ¬InBits bits i →
        type.parse value = .error (.evaluation (.numberRange codes))) ∧
      ((∀ i, ¬IntegerText codes i) →
        type.parse value = .error (.evaluation (.numberFormat codes))) := by
  constructor
  · intro value holds store
    obtain ⟨i, rfl, inRange⟩ := holds.integer integral
    have small := natAbs_inBits integral inRange
    exact ⟨_, text_integerOf _ (not_isTooLong small) store,
      parse_inBits integral rfl (length_intChars small) (integerText_intChars i) inRange⟩
  · intro value codes isText few
    have short : codes.length ≤ maxDigits := few.trans (by decide)
    have outside (i : Int) (written : IntegerText codes i) (outside : ¬InBits bits i) :=
      parse_outside integral isText short written outside
    have other := parse_other integral isText short
    refine ⟨fun result => ⟨fun read => ?_, ?_⟩, outside, other⟩
    · by_cases written : ∃ i, IntegerText codes i
      · obtain ⟨i, written⟩ := written
        by_cases inRange : InBits bits i
        · have value := parse_inBits integral isText short written inRange
          exact ⟨i, written, inRange, Except.ok.inj (read.symm.trans value)⟩
        · rw [outside i written inRange] at read
          cases read
      · rw [other (not_exists.mp written)] at read
        cases read
    · rintro ⟨i, written, inRange, rfl⟩
      exact parse_inBits integral isText short written inRange

/-- The least value of `short`, a text with a sign and zeros in front, one that is out of range by
one, and one that is no integer here. -/
theorem short_inverts :
    (∃ text, (Display.text (.int (-32768))).outcome Store.initial = (.ok text, Store.initial) ∧
      Primitive.short.parse (.str text) = .ok (.int (-32768))) ∧
    Primitive.short.parse (.str (codesOf "+00032767".toList)) = .ok (.int 32767) ∧
    Primitive.short.parse (.str (codesOf "32768".toList)) =
      .error (.evaluation (.numberRange (codesOf "32768".toList))) ∧
    Primitive.short.parse (.str (codesOf "1_0".toList)) =
      .error (.evaluation (.numberFormat (codesOf "1_0".toList))) := by
  obtain ⟨printed, read⟩ := parse_inverts .short rfl
  have greatest : IntegerText (codesOf "+00032767".toList) 32767 :=
    @IntegerText.plus (codesOf "00032767".toList) ⟨by decide, by decide⟩
  have above : IntegerText (codesOf "32768".toList) 32768 :=
    @IntegerText.unsigned (codesOf "32768".toList) ⟨by decide, by decide⟩
  have other (i : Int) : ¬IntegerText (codesOf "1_0".toList) i := by
    rw [integerText_unsigned (by rintro rest ⟨⟩) (by rintro rest ⟨⟩)]
    rintro ⟨isDigits, -⟩
    exact absurd (isDigits.2 95 (by decide)) (by decide)
  have least : Primitive.short.Holds (.int (-32768)) :=
    show InBits 16 (-32768) from ⟨by decide, by decide⟩
  refine ⟨printed _ least _, ?_, ?_, ?_⟩
  · exact ((read _ _ rfl (by decide)).1 _).mpr ⟨_, greatest, ⟨by decide, by decide⟩, rfl⟩
  · exact (read _ _ rfl (by decide)).2.1 _ above fun inRange => absurd inRange.2 (by decide)
  · exact (read _ _ rfl (by decide)).2.2 other

end Primitive

end Formulary
