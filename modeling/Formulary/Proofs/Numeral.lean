/-
Decimal numerals.

The digits of a number, read as a literal, are that number: they do not begin with a zero that
would make them octal, and each of them counts for what it stands for.

* `digitsFrom_toDigits` — digits write the number that they are the digits of.
* `integer_toDigits` — as a literal, with the suffix of a long number or without one.
-/

import Formulary.Proofs.Lexing
import Formulary.Syntax.Literal

namespace Formulary.Literal

/-! ### Digits -/

theorem toDigits_code {n : Nat} {c : Char} (h : c ∈ Nat.toDigits 10 n) :
    48 ≤ c.toNat ∧ c.toNat ≤ 57 := by
  have digit := Nat.isDigit_of_mem_toDigits (by decide) (by decide) h
  simp only [Char.isDigit, Bool.and_eq_true, decide_eq_true_eq] at digit
  exact digit

theorem toDigits_isDigit {n : Nat} {c : Char} (h : c ∈ Nat.toDigits 10 n) :
    Lexer.isDigit c = true := by
  obtain ⟨low, high⟩ := toDigits_code h
  rw [Lexer.isDigit, Lexer.isDecimal_ascii (by omega)]
  simp [low, high]

theorem decimalValue_ascii {code : Nat} (low : 48 ≤ code) (high : code ≤ 57) :
    Text.decimalValue? code = some (code - 48) := by
  have each : ∀ digit < 10, Text.decimalValue? (48 + digit) = some digit := by decide
  have value := each (code - 48) (by omega)
  rwa [show 48 + (code - 48) = code by omega] at value

theorem digitsFrom_ascii {digits : List Char} (h : ∀ c ∈ digits, 48 ≤ c.toNat ∧ c.toNat ≤ 57)
    (value : Nat) : digitsFrom 10 value digits = some (Nat.ofDigitChars 10 digits value) := by
  induction digits generalizing value with
  | nil => rfl
  | cons c digits ih =>
    obtain ⟨low, high⟩ := h c List.mem_cons_self
    have digit : digitValue? 10 c = some (c.toNat - 48) := by
      rw [digitValue?, decimalValue_ascii low high]
      simp only [Option.filter_some, decide_eq_true_eq]
      rw [if_pos (by omega)]
    rw [digitsFrom, digit, Option.bind_some, ih fun d isIn => h d (List.mem_cons_of_mem c isIn),
      Nat.mul_comm]
    rfl

/-- The digits of a number write it. -/
theorem digitsFrom_toDigits (n : Nat) : digitsFrom 10 0 (Nat.toDigits 10 n) = some n := by
  rw [digitsFrom_ascii fun _ => toDigits_code,
    Nat.ofDigitChars_toDigits (by decide) (by decide)]

theorem digitChar_zero {n : Nat} (h : n < 10) (zero : n.digitChar = '0') : n = 0 := by
  revert zero
  revert n
  decide

/-- The digits of a positive number do not begin with a zero. -/
theorem toDigits_head {n : Nat} {rest : List Char} (h : Nat.toDigits 10 n = '0' :: rest) :
    n = 0 := by
  induction n using Nat.strongRecOn generalizing rest with
  | ind n ih =>
    rcases Nat.lt_or_ge n 10 with small | large
    · rw [Nat.toDigits_of_lt_base small] at h
      exact digitChar_zero small (List.cons.inj h).1
    · rw [Nat.toDigits_of_base_le (by decide) large] at h
      obtain ⟨first, digits, split⟩ :=
        List.exists_cons_of_ne_nil (Nat.toDigits_ne_nil (n := n / 10) (b := 10))
      rw [split, List.cons_append] at h
      have zero := ih (n / 10) (by omega) (split.trans (by rw [(List.cons.inj h).1]))
      omega

/-! ### Literals -/

theorem decimal_toDigits {n : Nat} (short : (Nat.toDigits 10 n).length ≤ maxDigits) :
    decimal (Nat.toDigits 10 n) = .ok n := by
  have value := digitsFrom_toDigits n
  obtain ⟨first, digits, split⟩ :=
    List.exists_cons_of_ne_nil (Nat.toDigits_ne_nil (n := n) (b := 10))
  rw [decimal, if_neg (Nat.not_lt.mpr short)]
  rw [split] at value ⊢
  simp only [natural, value]

/-- The value of digits, with a suffix that is none of them or without one. -/
theorem integer_decimal {digits suffix : List Char}
    (h : ∀ c ∈ digits, 48 ≤ c.toNat ∧ c.toNat ≤ 57)
    (noOctal : ∀ c rest, digits ≠ '0' :: c :: rest)
    (isSuffix : ∀ c rest, suffix = c :: rest → isLongSuffix c = true) :
    integer (digits ++ suffix) = (decimal digits).map fun value =>
      if suffix = [] then .int value else .long value := by
  have taken : (digits ++ suffix).takeWhile (fun c => !isLongSuffix c) = digits := by
    refine Lexer.takeWhile_ends (fun c isIn => ?_) fun c rest same => ?_
    · obtain ⟨low, high⟩ := h c isIn
      have noSuffix : c ≠ 'l' ∧ c ≠ 'L' := by
        constructor
        · rintro rfl
          revert high
          decide
        · rintro rfl
          revert high
          decide
      simp [isLongSuffix, noSuffix]
    · simp [isSuffix c rest same]
  have isLong : digits.length < (digits ++ suffix).length ↔ ¬suffix = [] := by
    rw [List.length_append, ← List.length_eq_zero_iff]
    omega
  unfold integer
  rw [taken]
  simp only [isLong]
  split
  · next rest => exact absurd rfl (noOctal 'x' rest)
  · next rest => exact absurd rfl (noOctal 'X' rest)
  · next c rest _ _ => exact absurd rfl (noOctal c rest)
  · cases decimal digits with
    | error error => rfl
    | ok value =>
      change Except.ok _ = Except.ok _
      congr 1
      by_cases none : suffix = [] <;> simp [none]

/-- The digits of a number, as a literal, are read as a decimal numeral. -/
theorem integer_digits (n : Nat) (suffix : List Char)
    (isSuffix : ∀ c rest, suffix = c :: rest → isLongSuffix c = true) :
    integer (Nat.toDigits 10 n ++ suffix) = (decimal (Nat.toDigits 10 n)).map fun value =>
      if suffix = [] then .int value else .long value := by
  refine integer_decimal (fun _ => toDigits_code) (fun c rest same => ?_) isSuffix
  rw [toDigits_head same] at same
  cases same

/-- The digits of a number as a literal are the number, if they are not too many. -/
theorem integer_toDigits {n : Nat} (short : (Nat.toDigits 10 n).length ≤ maxDigits)
    (suffix : List Char) (isSuffix : ∀ c rest, suffix = c :: rest → isLongSuffix c = true) :
    integer (Nat.toDigits 10 n ++ suffix) =
      .ok (if suffix = [] then .int n else .long n) := by
  rw [integer_digits n suffix isSuffix, decimal_toDigits short]
  rfl

end Formulary.Literal
