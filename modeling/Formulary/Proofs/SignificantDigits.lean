/-
The digits that a text shows.

The text of a decimal has its digits in their order, with the point among them, and at most zeros
in front of them and behind them. So the significant digits of the text are those of the decimal, if
it has no zero at its end.

* `significantDigits` — the digits of a text that count.
* `Layout.figures_decimal` — the digits of a decimal with zeros around them.
* `Layout.significantDigits_decimal` — as many digits count as the decimal has.
-/

import Formulary.Number.Decimal
import Formulary.Proofs.Numeral

namespace Formulary

/-- The digits that the text of a number shows, up to the mark of its exponent. -/
def figures (text : List Char) : List Char :=
  (text.takeWhile (· != 'E')).filter Char.isDigit

/-- How many of the digits count: not the zeros in front of all other ones or behind them. -/
def significantDigits (text : List Char) : Nat :=
  (((figures text).dropWhile (· == '0')).rdropWhile (· == '0')).length

/-! ### Zeros around digits -/

/-- Zeros around digits that begin and end with other ones do not count. -/
theorem strip_zeros {first last : Char} {digits rest front : List Char} (before after : Nat)
    (begins : digits = first :: rest) (ends : digits = front ++ [last]) (firstGiven : first ≠ '0')
    (lastGiven : last ≠ '0') :
    ((List.replicate before '0' ++ (digits ++ List.replicate after '0')).dropWhile
      (· == '0')).rdropWhile (· == '0') = digits := by
  have zeros (count : Nat) : ∀ c ∈ List.replicate count '0', (c == '0') = true := by
    intro c isIn
    rw [(List.mem_replicate.mp isIn).2]
    rfl
  have dropped : (digits ++ List.replicate after '0').dropWhile (· == '0') =
      digits ++ List.replicate after '0' := by
    rw [begins, List.cons_append, List.dropWhile_cons_of_neg (by simp [firstGiven])]
  rw [List.dropWhile_append_of_pos (zeros before), dropped, List.rdropWhile, List.reverse_append,
    List.reverse_replicate, List.dropWhile_append_of_pos (zeros after), ends, List.reverse_append,
    List.reverse_singleton, List.singleton_append, List.dropWhile_cons_of_neg (by simp [lastGiven]),
    List.reverse_cons, List.reverse_reverse]

/-- The digits of a number that is no multiple of ten begin and end with other digits than zeros. -/
theorem exists_ends {n : Nat} (solid : n % 10 ≠ 0) : ∃ first rest front last,
    Nat.toDigits 10 n = first :: rest ∧ Nat.toDigits 10 n = front ++ [last] ∧
      first ≠ '0' ∧ last ≠ '0' := by
  obtain ⟨first, rest, begins⟩ :=
    List.exists_cons_of_ne_nil (Nat.toDigits_ne_nil (n := n) (b := 10))
  have firstGiven : first ≠ '0' := by
    rintro rfl
    rw [Literal.toDigits_head begins] at solid
    exact solid rfl
  have lastGiven : (n % 10).digitChar ≠ '0' :=
    mt (Literal.digitChar_zero (Nat.mod_lt n (by decide))) solid
  obtain ⟨front, ends⟩ : ∃ front, Nat.toDigits 10 n = front ++ [(n % 10).digitChar] := by
    rw [Nat.toDigits_eq_if (by decide)]
    split
    · next small => exact ⟨[], by rw [Nat.mod_eq_of_lt small, List.nil_append]⟩
    · exact ⟨_, rfl⟩
  exact ⟨first, rest, front, _, begins, ends, firstGiven, lastGiven⟩

/-! ### Texts -/

/-- The digits of a text that ends with its exponent, or without one. -/
theorem figures_append {text tail : List Char} (plain : ∀ c ∈ text, c ≠ 'E')
    (ends : tail = [] ∨ ∃ rest, tail = 'E' :: rest) :
    figures (text ++ tail) = text.filter Char.isDigit := by
  have all : ∀ c ∈ text, (c != 'E') = true := fun c isIn => bne_iff_ne.mpr (plain c isIn)
  have stops : tail.takeWhile (· != 'E') = [] := by
    obtain rfl | ⟨rest, rfl⟩ := ends <;> rfl
  rw [figures, List.takeWhile_append_of_pos all, stops, List.append_nil]

/-- A sign in front is no digit. -/
theorem figures_sign (negative : Bool) (text : List Char) :
    figures ((if negative then ['-'] else []) ++ text) = figures text := by
  cases negative <;> rfl

namespace Layout

variable {digits : List Char} {d : Decimal}

theorem filter_digits (all : ∀ c ∈ digits, c.isDigit = true) :
    digits.filter Char.isDigit = digits :=
  List.filter_eq_self.mpr all

theorem digit_ne_mark {c : Char} (digit : c.isDigit = true) : c ≠ 'E' := by
  rintro rfl
  cases digit

theorem zeros_digits (count : Nat) : ∀ c ∈ List.replicate count '0', c.isDigit = true := by
  intro c isIn
  rw [(List.mem_replicate.mp isIn).2]
  rfl

/-- The digits around a point. -/
theorem figures_point {whole fraction tail : List Char}
    (wholeDigits : ∀ c ∈ whole, c.isDigit = true)
    (fractionDigits : ∀ c ∈ fraction, c.isDigit = true)
    (ends : tail = [] ∨ ∃ rest, tail = 'E' :: rest) :
    figures (whole ++ '.' :: fraction ++ tail) = whole ++ fraction := by
  have plain : ∀ c ∈ whole ++ '.' :: fraction, c ≠ 'E' := by
    intro c isIn
    rcases List.mem_append.mp isIn with isWhole | isRest
    · exact digit_ne_mark (wholeDigits c isWhole)
    · rcases List.mem_cons.mp isRest with rfl | isFraction
      · decide
      · exact digit_ne_mark (fractionDigits c isFraction)
  rw [figures_append plain ends, List.filter_append, filter_digits wholeDigits,
    List.filter_cons_of_neg (by decide), filter_digits fractionDigits]

theorem figures_positional (all : ∀ c ∈ digits, c.isDigit = true) (leading : Int) :
    ∃ before after, figures (positional digits leading) =
      List.replicate before '0' ++ (digits ++ List.replicate after '0') := by
  rw [positional]
  split
  · have fractionDigits (count : Nat) : ∀ c ∈ List.replicate count '0' ++ digits,
        c.isDigit = true := by
      intro c isIn
      exact (List.mem_append.mp isIn).elim (zeros_digits count c) (all c)
    have shown := figures_point (zeros_digits 1) (fractionDigits (-leading - 1).toNat) (.inl rfl)
    rw [List.append_nil] at shown
    refine ⟨(-leading - 1).toNat + 1, 0, ?_⟩
    rw [List.replicate_zero, List.append_nil, List.replicate_succ, List.cons_append]
    exact shown
  · simp only
    obtain ⟨more, isMore⟩ : ∃ more, leading.toNat + 1 - digits.length = more := ⟨_, rfl⟩
    obtain ⟨whole, isWhole⟩ : ∃ whole, leading.toNat + 1 = whole := ⟨_, rfl⟩
    rw [isMore, isWhole]
    have padded : ∀ c ∈ digits ++ List.replicate more '0', c.isDigit = true := by
      intro c isIn
      exact (List.mem_append.mp isIn).elim (all c) (zeros_digits more c)
    have front : ∀ c ∈ (digits ++ List.replicate more '0').take whole, c.isDigit = true :=
      fun c isIn => padded c (List.mem_of_mem_take isIn)
    split
    · next short =>
      -- A zero stands behind the point where no digit is left.
      have shown := figures_point front (zeros_digits 1) (.inl rfl)
      rw [List.append_nil] at shown
      refine ⟨0, more + 1, ?_⟩
      rw [List.replicate_zero, List.nil_append, List.replicate_succ', ← List.append_assoc]
      have full : (digits ++ List.replicate more '0').take whole =
          digits ++ List.replicate more '0' := by
        have parts := List.take_append_drop whole (digits ++ List.replicate more '0')
        rwa [List.isEmpty_iff.mp short, List.append_nil] at parts
      rw [full] at shown ⊢
      exact shown
    · have back : ∀ c ∈ (digits ++ List.replicate more '0').drop whole, c.isDigit = true :=
        fun c isIn => padded c (List.mem_of_mem_drop isIn)
      have shown := figures_point front back (.inl rfl)
      rw [List.append_nil, List.take_append_drop] at shown
      exact ⟨0, more, shown⟩

theorem figures_scientific (all : ∀ c ∈ digits, c.isDigit = true) (leading : Int) :
    ∃ after, figures (display.scientific digits leading) =
      digits ++ List.replicate after '0' := by
  have front : ∀ c ∈ digits.take 1, c.isDigit = true :=
    fun c isIn => all c (List.mem_of_mem_take isIn)
  have mark (text : List Char) : 'E' :: text = [] ∨ ∃ rest, 'E' :: text = 'E' :: rest :=
    .inr ⟨text, rfl⟩
  rw [scientific]
  split
  · next short =>
    have shown := figures_point front (zeros_digits 1)
      (mark (exponentChars display.plus display.exponentWidth leading))
    have full : digits.take 1 = digits := by
      have parts := List.take_append_drop 1 digits
      rwa [List.isEmpty_iff.mp short, List.append_nil] at parts
    rw [full] at shown ⊢
    exact ⟨1, shown⟩
  · have back : ∀ c ∈ digits.drop 1, c.isDigit = true :=
      fun c isIn => all c (List.mem_of_mem_drop isIn)
    have shown := figures_point front back
      (mark (exponentChars display.plus display.exponentWidth leading))
    rw [List.take_append_drop] at shown
    exact ⟨0, shown.trans (List.append_nil _).symm⟩

/-- **The text of a decimal shows its digits,** with zeros around them. -/
theorem figures_decimal (d : Decimal) : ∃ before after, figures (display.decimal d) =
    List.replicate before '0' ++ (d.digitChars ++ List.replicate after '0') := by
  have all : ∀ c ∈ d.digitChars, c.isDigit = true :=
    fun c => Nat.isDigit_of_mem_toDigits (by decide) (by decide)
  rw [decimal]
  split
  · exact figures_positional all _
  · obtain ⟨after, shown⟩ := figures_scientific all d.leadingExponent
    exact ⟨0, after, shown⟩

/-- **As many digits of a text count as the decimal has,** if there is no zero at its end. -/
theorem significantDigits_decimal (negative : Bool) (solid : d.digits % 10 ≠ 0) :
    significantDigits ((if negative then ['-'] else []) ++ display.decimal d) =
      digitCount d.digits := by
  obtain ⟨before, after, shown⟩ := figures_decimal d
  obtain ⟨first, rest, front, last, begins, ends, firstGiven, lastGiven⟩ := exists_ends solid
  have given : d.digits ≠ 0 := by
    intro zero
    exact solid (by rw [zero])
  rw [significantDigits, figures_sign, shown, Decimal.digitChars,
    strip_zeros before after begins ends firstGiven lastGiven, digitCount, if_neg given]

end Layout

end Formulary
