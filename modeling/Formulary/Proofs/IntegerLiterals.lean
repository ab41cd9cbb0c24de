/-
Integer literals.

An integer of 32 or of 64 bits can be written as a literal in three bases: in decimal digits, where
a minus in front negates what the digits write, and in hexadecimal or octal digits, which spell out
its bits. Each of these texts, returned, evaluates to the integer; the least one of a width has
decimal digits that are out of range by themselves, and comes back by the negation.

* `digitsFrom_base` — the digits of a number in a base up to sixteen write it.
* `scan_hexadecimal` — digits behind `0x` are one lexeme, the suffix of a long number included.
* `integer_based` — what spells out the bits of a number.
* `integerLiteral_evaluates` — bodies that return a literal of an integer.
-/

import Formulary.Proofs.LiteralValues
import Formulary.Proofs.ReturnedLiterals
import Formulary.Proofs.Unboxing

namespace Formulary

/-! ### Digits of any base -/

namespace Literal

variable {base : Nat} {digits : List Char}

theorem digitValue_digitChar {digit : Nat} (below : digit < base) (few : base ≤ 16) :
    digitValue? base digit.digitChar = some digit := by
  have each : ∀ digit < 16, digitValue? 16 digit.digitChar = some digit := by decide +kernel
  have value := each digit (by omega)
  unfold digitValue? at value ⊢
  obtain ⟨isValue, -⟩ := Option.filter_eq_some_iff.mp value
  rw [isValue, Option.filter_some]
  simp [below]

theorem digitsFrom_append (value : Nat) (front back : List Char) :
    digitsFrom base value (front ++ back) =
      (digitsFrom base value front).bind fun value => digitsFrom base value back := by
  induction front generalizing value with
  | nil => rfl
  | cons c front ih =>
    rw [List.cons_append, digitsFrom, digitsFrom]
    cases digitValue? base c with
    | none => rfl
    | some digit => exact ih _

/-- The digits of a number write it, in every base that has enough of them. -/
theorem digitsFrom_base (some : 1 < base) (few : base ≤ 16) (n : Nat) :
    digitsFrom base 0 (Nat.toDigits base n) = .some n := by
  induction n using Nat.strongRecOn with
  | ind n ih =>
    rcases Nat.lt_or_ge n base with small | large
    · rw [Nat.toDigits_of_lt_base small, digitsFrom, digitValue_digitChar small few]
      simp [digitsFrom]
    · have last := digitValue_digitChar (Nat.mod_lt n (Nat.zero_lt_of_lt some)) few
      have front := ih (n / base) (Nat.div_lt_self (by omega) some)
      rw [Nat.toDigits_of_base_le some large, digitsFrom_append, front, Option.bind_some,
        digitsFrom, last, Option.bind_some, digitsFrom, Nat.div_add_mod']

theorem mem_toDigits (some : 1 < base) {n : Nat} {c : Char} (isIn : c ∈ Nat.toDigits base n) :
    ∃ digit < base, c = digit.digitChar := by
  induction n using Nat.strongRecOn with
  | ind n ih =>
    rcases Nat.lt_or_ge n base with small | large
    · rw [Nat.toDigits_of_lt_base small, List.mem_singleton] at isIn
      exact ⟨n, small, isIn⟩
    · rw [Nat.toDigits_of_base_le some large, List.mem_append, List.mem_singleton] at isIn
      obtain isFront | isLast := isIn
      · exact ih (n / base) (Nat.div_lt_self (by omega) some) isFront
      · exact ⟨n % base, Nat.mod_lt n (Nat.zero_lt_of_lt some), isLast⟩

/-! ### Letters of either case -/

/-- What holds of every letter between `A` and `Z` beside its small one, and of every other
character beside itself. -/
theorem toLower_cases {P : Char → Char → Prop} (same : ∀ c, P c c)
    (letters : ∀ code < 91, 65 ≤ code → P (Char.ofNat code) (Char.ofNat code).toLower) (c : Char) :
    P c c.toLower := by
  by_cases upper : 65 ≤ c.toNat ∧ c.toNat < 91
  · have letter := letters c.toNat upper.2 upper.1
    rwa [Char.ofNat_toNat] at letter
  · have kept : c.toLower = c := by
      rw [Char.toLower, dif_neg]
      rintro ⟨low, high⟩
      have low : 65 ≤ c.toNat := low
      have high : c.toNat ≤ 90 := high
      omega
    rw [kept]
    exact same c

theorem digitValue_toLower (c : Char) : digitValue? 16 c.toLower = digitValue? 16 c :=
  toLower_cases (P := fun c d => digitValue? 16 d = digitValue? 16 c) (fun _ => rfl)
    (by decide +kernel) c

theorem isHexDigit_toLower (c : Char) : Lexer.isHexDigit c.toLower = Lexer.isHexDigit c :=
  toLower_cases (P := fun c d => Lexer.isHexDigit d = Lexer.isHexDigit c) (fun _ => rfl)
    (by decide +kernel) c

theorem digitsFrom_toLower (value : Nat) (digits : List Char) :
    digitsFrom 16 value (digits.map Char.toLower) = digitsFrom 16 value digits := by
  induction digits generalizing value with
  | nil => rfl
  | cons c digits ih =>
    rw [List.map_cons, digitsFrom, digitsFrom, digitValue_toLower]
    simp only [ih]

/-- Hexadecimal digits of a number, in small letters or in capital ones. -/
def IsHexadecimal (n : Nat) (digits : List Char) : Prop :=
  digits.map Char.toLower = Nat.toDigits 16 n

theorem IsHexadecimal.value {n : Nat} (h : IsHexadecimal n digits) :
    digitsFrom 16 0 digits = some n := by
  rw [← digitsFrom_toLower, h, digitsFrom_base (by decide) (by decide)]

theorem IsHexadecimal.some {n : Nat} (h : IsHexadecimal n digits) : digits ≠ [] := by
  rintro rfl
  exact Nat.toDigits_ne_nil h.symm

theorem IsHexadecimal.each {n : Nat} (h : IsHexadecimal n digits) {c : Char} (isIn : c ∈ digits) :
    Lexer.isHexDigit c = true := by
  have lower := List.mem_map_of_mem (f := Char.toLower) isIn
  rw [h] at lower
  obtain ⟨digit, below, same⟩ := mem_toDigits (by decide) lower
  have each : ∀ digit < 16, Lexer.isHexDigit digit.digitChar = true := by decide
  rw [← isHexDigit_toLower, same]
  exact each digit below

end Literal

/-! ### Hexadecimal numerals -/

namespace Lexer

theorem hexDigit_namePart {c : Char} (h : isHexDigit c = true) : isNamePart c = true := by
  have each : ∀ code < 128, isHexDigit (Char.ofNat code) = true →
      isNamePart (Char.ofNat code) = true := by decide
  have part := each c.toNat (Literal.hexDigit_code h)
  rw [Char.ofNat_toNat] at part
  exact part h

theorem ends_hexDigit {text : List Char} (ends : Ends isNamePart text) : Ends isHexDigit text := by
  intro c rest same
  rw [← Bool.not_eq_true]
  intro isDigit
  have noPart := ends c rest same
  rw [hexDigit_namePart isDigit] at noPart
  cases noPart

theorem integerLength_hexadecimal {x : Char} {digits after : List Char} (isX : x ∈ ['x', 'X'])
    (some : digits ≠ []) (each : ∀ c ∈ digits, isHexDigit c = true) (ends : Ends isHexDigit after) :
    integerLength? ('0' :: x :: (digits ++ after)) =
      .some (digits.length + 2 + integerSuffix after) := by
  have long : digits.length ≠ 0 := fun none => some (List.length_eq_zero_iff.mp none)
  have letter : (decide (x = 'x') || decide (x = 'X')) = true := by simpa using isX
  have behind : ('0' :: x :: (digits ++ after)).drop (2 + digits.length) = after := by
    rw [Nat.add_comm]
    exact List.drop_left
  have more : 2 + digits.length ≠ 0 := by omega
  unfold integerLength?
  simp only [if_pos letter, takeWhile_ends each ends, if_neg long]
  rw [if_neg more, behind, Nat.add_comm 2]

/-- Hexadecimal digits behind `0x`, with the suffix of a long number or without one, are an
integer. -/
theorem scan_hexadecimal {x : Char} {digits suffix rest : List Char} (isX : x ∈ ['x', 'X'])
    (some : digits ≠ []) (each : ∀ c ∈ digits, isHexDigit c = true)
    (isSuffix : suffix ∈ numeralSuffixes) (ends : Ends prolongsNumeral rest) :
    scan ('0' :: x :: digits ++ suffix ++ rest) =
      .some (.some (.integer ('0' :: x :: digits ++ suffix)),
        ('0' :: x :: digits ++ suffix).length) := by
  obtain ⟨noPart, -, -⟩ := prolongs_ends ends
  have noLong : integerSuffix rest = 0 := oneOf_ends (by decide) noPart
  have noFloating (text : List Char) : floatingLength? ('0' :: x :: text) = none := by
    simp only [List.mem_cons, List.not_mem_nil, or_false] at isX
    rcases isX with rfl | rfl <;> rfl
  have length : integerLength? ('0' :: x :: (digits ++ (suffix ++ rest))) =
      .some ('0' :: x :: digits ++ suffix).length := by
    rw [List.length_append]
    simp only [numeralSuffixes, List.mem_cons, List.not_mem_nil, or_false] at isSuffix
    rcases isSuffix with rfl | rfl | rfl
    · rw [List.nil_append, integerLength_hexadecimal isX some each (ends_hexDigit noPart), noLong]
      rfl
    · exact integerLength_hexadecimal isX some each (ends_cons (by decide))
    · exact integerLength_hexadecimal isX some each (ends_cons (by decide))
  rw [← List.append_assoc] at length
  exact scan_integer (by decide) (noFloating _) length

end Lexer

/-! ### Values of the digits -/

namespace Literal

open Lexer (numeralSuffixes)

/-- Whether a suffix makes a number long. -/
def isWide (suffix : List Char) : Bool := !suffix.isEmpty

theorem takeWhile_digits {digits suffix : List Char} (each : ∀ c ∈ digits, isLongSuffix c = false)
    (isSuffix : suffix ∈ numeralSuffixes) :
    (digits ++ suffix).takeWhile (fun c => !isLongSuffix c) = digits := by
  refine Lexer.takeWhile_ends (fun c isIn => by simp [each c isIn]) ?_
  simp only [numeralSuffixes, List.mem_cons, List.not_mem_nil, or_false] at isSuffix
  rcases isSuffix with rfl | rfl | rfl
  · exact Lexer.ends_nil
  · exact Lexer.ends_cons rfl
  · exact Lexer.ends_cons rfl

theorem hexDigit_noSuffix {c : Char} (h : Lexer.isHexDigit c = true) : isLongSuffix c = false := by
  rw [← Bool.not_eq_true]
  intro isSuffix
  simp only [isLongSuffix, Bool.or_eq_true, decide_eq_true_eq] at isSuffix
  rcases isSuffix with rfl | rfl <;> exact absurd h (by decide)

theorem natural_value {base n : Nat} {digits : List Char} (some : digits ≠ [])
    (value : digitsFrom base 0 digits = .some n) : natural base digits = .ok n := by
  obtain ⟨c, rest, rfl⟩ := List.exists_cons_of_ne_nil some
  simp only [natural, value]

theorem suffixed_longer (digits suffix : List Char) :
    digits.length < (digits ++ suffix).length ↔ isWide suffix = true := by
  cases suffix with
  | nil => simp [isWide]
  | cons c suffix => simp [isWide]

/-- What the digits behind `0x` spell out. -/
theorem integer_hexadecimal {x : Char} {n : Nat} {digits suffix : List Char}
    (isX : x ∈ ['x', 'X']) (isHexadecimal : IsHexadecimal n digits)
    (isSuffix : suffix ∈ numeralSuffixes) :
    integer ('0' :: x :: digits ++ suffix) = .ok (integral n (isWide suffix)) := by
  simp only [List.mem_cons, List.not_mem_nil, or_false] at isX
  have noSuffix : isLongSuffix x = false := by rcases isX with rfl | rfl <;> rfl
  have each : ∀ c ∈ '0' :: x :: digits, isLongSuffix c = false := by
    simp only [List.forall_mem_cons]
    exact ⟨rfl, noSuffix, fun c isIn => hexDigit_noSuffix (isHexadecimal.each isIn)⟩
  have value := natural_value isHexadecimal.some isHexadecimal.value
  unfold integer
  rw [takeWhile_digits each isSuffix]
  simp only [suffixed_longer]
  rcases isX with rfl | rfl
  · simp only [value]
    rfl
  · simp only [value]
    rfl

theorem octalDigits_each {n : Nat} {c : Char} (isIn : c ∈ Nat.toDigits 8 n) :
    Lexer.isDigit c = true ∧ isLongSuffix c = false ∧ c ≠ 'x' ∧ c ≠ 'X' := by
  obtain ⟨digit, below, rfl⟩ := mem_toDigits (by decide) isIn
  have each : ∀ digit < 8, Lexer.isDigit digit.digitChar = true ∧
      isLongSuffix digit.digitChar = false ∧ digit.digitChar ≠ 'x' ∧ digit.digitChar ≠ 'X' := by
    decide
  exact each digit below

/-- What the digits behind a `0` spell out. -/
theorem integer_octal {n : Nat} {suffix : List Char} (isSuffix : suffix ∈ numeralSuffixes) :
    integer ('0' :: Nat.toDigits 8 n ++ suffix) = .ok (integral n (isWide suffix)) := by
  have each : ∀ c ∈ '0' :: Nat.toDigits 8 n, isLongSuffix c = false :=
    List.forall_mem_cons.mpr ⟨rfl, fun c isIn => (octalDigits_each isIn).2.1⟩
  have value : natural 8 ('0' :: Nat.toDigits 8 n) = .ok n :=
    natural_value (List.cons_ne_nil _ _) (digitsFrom_base (by decide) (by decide) n)
  obtain ⟨first, rest, split⟩ :=
    List.exists_cons_of_ne_nil (Nat.toDigits_ne_nil (n := n) (b := 8))
  have isFirst : first ∈ Nat.toDigits 8 n := split ▸ List.mem_cons_self
  obtain ⟨-, -, noX, noX'⟩ := octalDigits_each isFirst
  unfold integer
  rw [takeWhile_digits each isSuffix]
  simp only [suffixed_longer]
  rw [split] at value ⊢
  split
  · next same => exact absurd (List.cons.inj (List.cons.inj same).2).1 noX
  · next same => exact absurd (List.cons.inj (List.cons.inj same).2).1 noX'
  · simp only [value]
    rfl
  · next other => exact absurd rfl (other first rest)

/-- What decimal digits write. -/
theorem integer_natural {n : Nat} {suffix : List Char}
    (short : (Nat.toDigits 10 n).length ≤ maxDigits) (isSuffix : suffix ∈ numeralSuffixes) :
    integer (Nat.toDigits 10 n ++ suffix) = .ok (integerOf (isWide suffix) n) := by
  simp only [numeralSuffixes, List.mem_cons, List.not_mem_nil, or_false] at isSuffix
  have each : ∀ c rest, suffix = c :: rest → isLongSuffix c = true := by
    rcases isSuffix with rfl | rfl | rfl <;> simp [isLongSuffix]
  rw [integer_toDigits short suffix each]
  rcases isSuffix with rfl | rfl | rfl <;> rfl

end Literal

/-! ### Bodies that return an integer -/

section Evaluation

open Lexer (numeralSuffixes)
open Literal (isWide)

/-- The texts that write an integer of a width as a literal, without the suffix of a long number:
its decimal digits, behind a minus if it is negative, and its bits in hexadecimal digits behind `0x`
or in octal ones behind `0`. -/
inductive IntegerSpelling (bits : Nat) (v : Int) : List Char → Prop
  | decimal : IntegerSpelling bits v (intChars v)
  | hexadecimal {x : Char} {digits : List Char} : x ∈ ['x', 'X'] →
      Literal.IsHexadecimal (residue bits v) digits → IntegerSpelling bits v ('0' :: x :: digits)
  | octal : IntegerSpelling bits v ('0' :: Nat.toDigits 8 (residue bits v))

variable {wide : Bool} {v : Int} {text suffix : List Char}

theorem integral_residue (inRange : InBits (widthOf wide) v) :
    integral (residue (widthOf wide) v) wide = integerOf wide v := by
  rw [integral_eq, wrap_residue, wrap_same (widthOf_pos wide) inRange]

theorem settled_integerOf (wide : Bool) (v : Int) : (integerOf wide v).IsSettled := by
  cases wide <;> exact ⟨nofun, nofun⟩

/-- A negative integer is the negation of one that may be out of range by itself. -/
theorem negate_integerOf {n : Nat} (inRange : InBits (widthOf wide) (-n)) :
    Arithmetic.unary .minus (integerOf wide n) = .ok (integerOf wide (-n)) := by
  cases wide with
  | true =>
    have kept := wrap_same (widthOf_pos true) inRange
    change Except.ok (integral (-n) true) = _
    rw [integral_eq, kept]
  | false =>
    have kept := wrap_same (widthOf_pos false) inRange
    have fits : fitsInt (-n) = true := by
      obtain ⟨lower, upper⟩ := inRange
      simp only [widthOf, Bool.false_eq_true, if_false] at lower upper
      simp only [fitsInt, Bool.and_eq_true, decide_eq_true_eq]
      omega
    change Except.ok (integral (-n) (false || (!fitsInt n && !fitsInt (-n)))) = _
    rw [fits, Bool.not_true, Bool.and_false, Bool.or_false, integral_eq, kept]

/-- The digits of an integer in range are few. -/
theorem digits_short (inRange : InBits (widthOf wide) v) :
    (Nat.toDigits 10 v.natAbs).length ≤ maxDigits := by
  have small := inRange.natAbs_lt (by cases wide <;> decide)
  have few : (Nat.toDigits 10 v.natAbs).length ≤ 20 :=
    (Nat.length_toDigits_le_iff (by decide) (by decide)).mpr small
  exact few.trans (by decide)

theorem ends_semicolon : Lexer.Ends Lexer.prolongsNumeral ";".toList :=
  Lexer.ends_cons (by decide)

/-- A body that returns an integer literal. -/
theorem evaluates_integer {spelling : List Char} {value : Value} (some : spelling ≠ [])
    (found : Lexer.scan (spelling ++ ";".toList) =
      .some (.some (.integer spelling), spelling.length))
    (isValue : Literal.integer spelling = .ok value) (settled : value.IsSettled) :
    Evaluates (Source.returnOf spelling) value :=
  evaluates_constant (Source.readBody_literal some (.integer _) found isValue)
    (Eval.constant_literal _ _) settled

/-- Decimal digits, with the suffix of a long number or without one, are found whole. -/
theorem scan_digits (n : Nat) (isSuffix : suffix ∈ numeralSuffixes) :
    Lexer.scan (Nat.toDigits 10 n ++ suffix ++ ";".toList) =
      some (some (.integer (Nat.toDigits 10 n ++ suffix)), (Nat.toDigits 10 n ++ suffix).length) :=
  Lexer.scan_numeral Nat.toDigits_ne_nil (fun _ => Literal.toDigits_isDigit) isSuffix
    ends_semicolon

/-- The decimal digits of an integer, behind a minus if it is negative. -/
theorem evaluates_decimal (inRange : InBits (widthOf (isWide suffix)) v)
    (isSuffix : suffix ∈ numeralSuffixes) :
    Evaluates (Source.returnOf (intChars v ++ suffix)) (integerOf (isWide suffix) v) := by
  have isValue := Literal.integer_natural (digits_short inRange) isSuffix
  have found := scan_digits v.natAbs isSuffix
  have settled := settled_integerOf (isWide suffix) v
  unfold intChars
  split
  · next negative =>
    have same : -(v.natAbs : Int) = v := by omega
    have negated := negate_integerOf (same.symm ▸ inRange)
    rw [same] at negated
    obtain ⟨c, rest, split⟩ :=
      List.exists_cons_of_ne_nil (Nat.toDigits_ne_nil (n := v.natAbs) (b := 10))
    have isFirst : c ∈ Nat.toDigits 10 v.natAbs := split ▸ List.mem_cons_self
    obtain ⟨low, high⟩ := Literal.toDigits_code isFirst
    rw [split, List.cons_append] at isValue found
    rw [split]
    exact evaluates_constant (Source.readBody_negative low high (.integer _) found isValue)
      (Eval.constant_negative settled negated _ _) settled
  · next nonnegative =>
    have same : (v.natAbs : Int) = v := by omega
    rw [same] at isValue
    exact evaluates_integer (by simp [Nat.toDigits_ne_nil]) found isValue settled

/-- **An integer of a width**, written as a literal of it in any base. -/
theorem evaluates_spelling (inRange : InBits (widthOf (isWide suffix)) v)
    (spelled : IntegerSpelling (widthOf (isWide suffix)) v text)
    (isSuffix : suffix ∈ numeralSuffixes) :
    Evaluates (Source.returnOf (text ++ suffix)) (integerOf (isWide suffix) v) := by
  have settled := settled_integerOf (isWide suffix) v
  cases spelled with
  | decimal => exact evaluates_decimal inRange isSuffix
  | hexadecimal isX isHexadecimal =>
    have isValue := Literal.integer_hexadecimal isX isHexadecimal isSuffix
    rw [integral_residue inRange] at isValue
    have found := Lexer.scan_hexadecimal isX isHexadecimal.some (fun _ => isHexadecimal.each)
      isSuffix ends_semicolon
    exact evaluates_integer (List.cons_ne_nil _ _) found isValue settled
  | octal =>
    have isValue := Literal.integer_octal (n := residue (widthOf (isWide suffix)) v) isSuffix
    rw [integral_residue inRange] at isValue
    have each : ∀ c ∈ '0' :: Nat.toDigits 8 (residue (widthOf (isWide suffix)) v),
        Lexer.isDigit c = true :=
      List.forall_mem_cons.mpr ⟨by decide, fun c isIn => (Literal.octalDigits_each isIn).1⟩
    have found := Lexer.scan_numeral (List.cons_ne_nil _ _) each isSuffix ends_semicolon
    exact evaluates_integer (List.cons_ne_nil _ _) found isValue settled

/-- **Integer literals round-trip in every base.** An integer of 32 bits evaluates to itself from
any of its spellings, and one of 64 bits does with a suffix behind them. -/
theorem integerLiteral_evaluates (v : Int) :
    (-2 ^ 31 ≤ v → v < 2 ^ 31 → ∀ text, IntegerSpelling 32 v text →
      Evaluates (Source.returnOf text) (.int v)) ∧
    (-2 ^ 63 ≤ v → v < 2 ^ 63 → ∀ text, IntegerSpelling 64 v text → ∀ suffix ∈ ['l', 'L'],
      Evaluates (Source.returnOf (text ++ [suffix])) (.long v)) := by
  constructor
  · intro lower upper text spelled
    have evaluates := @evaluates_spelling v text [] ⟨lower, upper⟩ spelled (by decide)
    rwa [List.append_nil] at evaluates
  · intro lower upper text spelled suffix isSuffix
    simp only [List.mem_cons, List.not_mem_nil, or_false] at isSuffix
    rcases isSuffix with rfl | rfl
    · exact @evaluates_spelling v text ['l'] ⟨lower, upper⟩ spelled (by decide)
    · exact @evaluates_spelling v text ['L'] ⟨lower, upper⟩ spelled (by decide)

/-- The least integers of both widths, in bases where their digits are out of range. -/
theorem leastLiteral_evaluates :
    Evaluates (Source.returnOf "-2147483648".toList) (.int (-2147483648)) ∧
      Evaluates (Source.returnOf "0x80000000".toList) (.int (-2147483648)) ∧
      Evaluates (Source.returnOf "-9223372036854775808L".toList) (.long (-9223372036854775808)) ∧
      Evaluates (Source.returnOf "01000000000000000000000l".toList)
        (.long (-9223372036854775808)) := by
  obtain ⟨plain, -⟩ := integerLiteral_evaluates (-2147483648)
  obtain ⟨-, long⟩ := integerLiteral_evaluates (-9223372036854775808)
  refine ⟨plain (by decide) (by decide) _ ?_, plain (by decide) (by decide) _ ?_,
    long (by decide) (by decide) "-9223372036854775808".toList ?_ 'L' (by decide),
    long (by decide) (by decide) "01000000000000000000000".toList ?_ 'l' (by decide)⟩
  · exact .decimal
  · exact .hexadecimal (by decide) (by rfl)
  · exact .decimal
  · exact .octal

end Evaluation

end Formulary
