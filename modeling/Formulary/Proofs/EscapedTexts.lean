/-
Escaped texts.

Any text can be written as a string literal: a backslash, a double quote and a line feed are
written with a backslash in front, and everything else stands for itself. A backslash that escapes
is never the last character and never escapes a digit or a `u`, so the literal ends at its last
quote and the escapes are read one by one; what looks like a comment or like an escape of a code in
the text is none in the literal.

* `stringRest_escaped` — the first quote that no backslash escapes is the last one.
* `codesFrom_escaped` — the escapes denote what they were written for.
* `stringLiteral_evaluates` — the body that returns the literal evaluates to the text.
-/

import Formulary.Proofs.LiteralValues
import Formulary.Proofs.Quotes
import Formulary.Proofs.ReturnedLiterals

namespace Formulary

/-! ### Writing -/

/-- How a character is written in a string literal. -/
def escapedChar : Char → List Char
  | '\\' => ['\\', '\\']
  | '"' => ['\\', '"']
  | '\n' => ['\\', 'n']
  | c => [c]

/-- How a text is written in a string literal. -/
def escaped (text : List Char) : List Char :=
  text.flatMap escapedChar

/-- The string literal of a text. -/
def stringLiteral (text : List Char) : List Char :=
  inQuotes (escaped text)

/-- A character is escaped by a letter or a sign that stands for it, or is written as it is. -/
inductive WrittenChar (c : Char) : Prop
  | escape (letter : Char) : escapedChar c = ['\\', letter] → letter ≠ '\n' →
      (∀ rest, Literal.escape (letter :: rest) = .ok (c.toNat, 1)) → WrittenChar c
  | plain : escapedChar c = [c] → c ≠ '"' → c ≠ '\n' → c ≠ '\\' → WrittenChar c

/-- A letter that is neither a `u` nor a digit is an escape by itself. -/
theorem escape_letter {letter : Char} {code : Nat} (noUnicode : letter ≠ 'u')
    (noDigit : Text.isDigitSign letter.toNat = false) (noOctal : Lexer.isOctalDigit letter = false)
    (isEscape : Literal.escapeLetters.lookup letter = some code) (rest : List Char) :
    Literal.escape (letter :: rest) = .ok (code, 1) := by
  rw [Literal.escape, Literal.unicodeEscape_other noUnicode, Literal.octalEscape_other noOctal]
  simp [noUnicode, noDigit, isEscape]

theorem writtenChar (c : Char) : WrittenChar c := by
  by_cases backslash : c = '\\'
  · subst backslash
    exact .escape '\\' rfl (by decide) (escape_letter (by decide) (by decide) (by decide) rfl)
  by_cases quote : c = '"'
  · subst quote
    exact .escape '"' rfl (by decide) (escape_letter (by decide) (by decide) (by decide) rfl)
  by_cases lineEnd : c = '\n'
  · subst lineEnd
    exact .escape 'n' rfl (by decide) (escape_letter (by decide) (by decide) (by decide) rfl)
  exact .plain (escapedChar.eq_4 c backslash quote lineEnd) quote lineEnd backslash

theorem escaped_cons (c : Char) (text : List Char) :
    escaped (c :: text) = escapedChar c ++ escaped text :=
  List.flatMap_cons

/-! ### Reading -/

/-- The closing quote is the first one that no backslash escapes. -/
theorem stringRest_escaped (text : List Char) :
    Lexer.stringRest? (escaped text ++ ['"']) = some ((escaped text).length + 1) := by
  induction text with
  | nil => rfl
  | cons c text ih =>
    rw [escaped_cons]
    cases writtenChar c with
    | escape letter written noEnd _ =>
      rw [written, List.cons_append, List.singleton_append, List.cons_append, List.cons_append,
        Lexer.stringRest?, if_neg noEnd, ih]
      rfl
    | plain written noQuote noEnd noEscape =>
      rw [written, List.singleton_append, List.cons_append,
        Lexer.stringRest_plain noQuote noEnd noEscape, ih]
      rfl

theorem stringLength_escaped (text : List Char) :
    Lexer.stringLength? (stringLiteral text) = some (stringLiteral text).length := by
  rw [stringLiteral, inQuotes, Lexer.stringLength?, stringRest_escaped]
  simp

/-- The escapes are read one by one, and denote what they were written for. -/
theorem codesFrom_escaped (text : List Char) :
    Literal.codesFrom 0 (escaped text) = .ok (codesOf text) := by
  induction text with
  | nil => rfl
  | cons c text ih =>
    rw [escaped_cons]
    cases writtenChar c with
    | escape letter written _ denotes =>
      rw [written, List.cons_append, List.singleton_append, Literal.codesFrom, if_pos rfl, denotes]
      exact Check.bind_ok.mpr ⟨_, rfl, Check.bind_ok.mpr ⟨_, ih, rfl⟩⟩
    | plain written _ _ noEscape =>
      rw [written, List.singleton_append, Literal.codesFrom, if_neg noEscape]
      exact Check.bind_ok.mpr ⟨_, ih, rfl⟩

theorem quoted_escaped (text : List Char) :
    Literal.quoted (stringLiteral text) = .ok (codesOf text) := by
  have inner : ((stringLiteral text).drop 1).dropLast = escaped text := by
    simp [stringLiteral, inQuotes]
  rw [Literal.quoted, inner, codesFrom_escaped]

/-- **String literals round-trip.** Any text, written as a string literal and returned, is one token
of its body, is read as the literal of its codes, and is what the body evaluates to. -/
theorem stringLiteral_evaluates (text : List Char) :
    Lexer.tokens (Source.returnOf (stringLiteral text)) =
        .ok (Source.returnedTokens (stringLiteral text) (.string (stringLiteral text))) ∧
      readBody (Source.returnOf (stringLiteral text)) =
        .ok [.returns Position.start (some (.literal Source.returnedStart (.str (codesOf text))))] ∧
      Evaluates (Source.returnOf (stringLiteral text)) (.str (codesOf text)) := by
  have found := @Lexer.scan_string _ ";".toList (stringLength_escaped text)
  have isValue : Literal.value (.string (stringLiteral text)) = .ok (.str (codesOf text)) :=
    Check.bind_ok.mpr ⟨_, quoted_escaped text, rfl⟩
  have read := Source.readBody_literal (List.cons_ne_nil _ _) (.string _) found isValue
  exact ⟨Source.tokens_literal (List.cons_ne_nil _ _) found, read,
    evaluates_constant read (Eval.constant_literal _ _) ⟨nofun, nofun⟩⟩

/-- A text that looks like escapes, quotes and the start of a comment. -/
def disguised : List Char := "\\u0041\"\\12\"/*\n//".toList

/-- It is what the body that returns its literal evaluates to. -/
theorem disguised_evaluates :
    stringLiteral disguised = "\"\\\\u0041\\\"\\\\12\\\"/*\\n//\"".toList ∧
    ∃ program, Program.compile [] "args" "Object" (Source.returnOf (stringLiteral disguised)) =
        .ok program ∧
      ∀ fuel args, program.run fuel args Store.initial =
        (.ok (.str (codesOf disguised)), Store.initial) := by
  have intact : IsIntact Store.initial := fun operation => by cases operation <;> rfl
  obtain ⟨-, -, evaluates⟩ := stringLiteral_evaluates disguised
  obtain ⟨program, compiled, runs⟩ :=
    evaluates [] "args" "Object" (.core .object) (by decide) (by decide +kernel)
  exact ⟨by decide, program, compiled, fun fuel args =>
    (runs fuel args Store.initial).2 rfl intact⟩

end Formulary
