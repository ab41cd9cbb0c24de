/-
Printed expressions are cut back into their lexemes.

Every lexeme that is written is found whole in front of a blank, so that blanks between them are
enough to tell them apart.

* `whole_name`, `whole_keyword`, `whole_symbol`, `whole_spelled` — the sorts of lexemes.
* `cut_spaced` — the text of lexemes with blanks between them falls into them.
* `spelledOut_whole` — all lexemes of a printed expression are such ones.
-/

import Formulary.Proofs.Numeral
import Formulary.Proofs.Printing

namespace Formulary.Lexer

open Printing

/-! ### Lexemes in front of blanks -/

/-- A lexeme that is found whole in front of a blank. -/
structure Whole (lexeme : Lexeme) : Prop where
  some : lexeme.chars ≠ []
  found : ∀ rest, scan (lexeme.chars ++ ' ' :: rest) =
    .some (.some lexeme, lexeme.chars.length)

theorem whole_word {lexeme : Lexeme} {first : Char} {word : List Char}
    (chars : lexeme.chars = first :: word) (begins : isNameStart first = true)
    (h : ∀ c ∈ word, isNamePart c = true) (same : wordLexeme (first :: word) = lexeme) :
    Whole lexeme where
  some := by simp [chars]
  found rest := by
    rw [chars, scan_word begins h (ends_cons (by decide)), same]
    rfl

theorem whole_name {text : String} (h : IsIdentifier text) : Whole (.name text) := by
  obtain ⟨⟨first, word, chars, begins, parts⟩, noKeyword⟩ := h
  refine whole_word chars begins parts ?_
  rw [wordLexeme, ← chars, String.ofList_toList, noKeyword]

theorem keyword_mem (word : Keyword) : word ∈ Keyword.all := by
  cases word with
  | primitive type => cases type <;> decide
  | _ => decide

theorem whole_keyword (word : Keyword) : Whole (.keyword word) := by
  have spelled : ∀ word ∈ Keyword.all, word.text.toList.head?.any isNameStart = true ∧
      word.text.toList.tail.all isNamePart = true ∧
      wordLexeme word.text.toList = .keyword word := by
    decide +kernel
  obtain ⟨begins, parts, same⟩ := spelled word (keyword_mem word)
  obtain ⟨first, isFirst, begins⟩ := (Option.any_eq_true _ _).mp begins
  obtain ⟨rest, chars⟩ := List.head?_eq_some_iff.mp isFirst
  rw [chars] at parts same
  exact whole_word chars begins (List.all_eq_true.mp parts) same

theorem whole_symbol {symbol : Symbol} (h : symbol ∈ Symbol.all) : Whole (.symbol symbol) where
  some := by
    have spelled : ∀ symbol ∈ Symbol.all, symbol.text.toList ≠ [] := by decide +kernel
    exact spelled symbol h
  found := scan_symbol h

/-- The digits of a number, with the suffix of a long number or without one. -/
theorem whole_numeral (n : Nat) (suffix : List Char) (isSuffix : suffix ∈ numeralSuffixes) :
    Whole (.integer (Nat.toDigits 10 n ++ suffix)) where
  some := by simp [Lexeme.chars, Nat.toDigits_ne_nil]
  found rest :=
    scan_numeral Nat.toDigits_ne_nil (fun _ => Literal.toDigits_isDigit) isSuffix (ends_cons (by decide))

theorem whole_spelled {lexeme : Lexeme} {value : Value} (h : Spells lexeme value) :
    Whole lexeme := by
  cases h with
  | @int n _ =>
    have whole := whole_numeral n [] (by decide)
    rwa [List.append_nil] at whole
  | @long n suffix _ isLong =>
    refine whole_numeral n [suffix] ?_
    simp only [Literal.isLongSuffix, Bool.or_eq_true, decide_eq_true_eq] at isLong
    rcases isLong with rfl | rfl <;> decide
  | string closed _ =>
    refine ⟨?_, fun rest => scan_string closed⟩
    rintro rfl
    cases closed
  | trueWord | falseWord | nullWord => exact whole_keyword _

/-! ### Lexemes with blanks between them -/

theorem whole_first {lexeme : Lexeme} (h : Whole lexeme) (rest : List Char) :
    Ends isSpace (lexeme.chars ++ rest) := by
  obtain ⟨c, more, chars⟩ := List.exists_cons_of_ne_nil h.some
  rw [chars]
  refine ends_cons ?_
  rw [← Bool.not_eq_true]
  intro space
  have found := h.found []
  rw [chars, List.cons_append, scan_space space] at found
  cases found

theorem spaced_cons (lexeme : Lexeme) {lexemes : List Lexeme} (some : lexemes ≠ []) :
    spaced (lexeme :: lexemes) = lexeme.chars ++ ' ' :: spaced lexemes := by
  obtain ⟨next, more, rfl⟩ := List.exists_cons_of_ne_nil some
  simp [spaced, List.intercalate_cons_cons]

/-- The text of lexemes with single blanks between them falls into them. -/
theorem cut_spaced {lexemes : List Lexeme} {last : Lexeme}
    (h : ∀ lexeme ∈ lexemes, Whole lexeme) (isLast : Whole last)
    (ends : scan last.chars = some (some last, last.chars.length)) :
    Cut (lexemes ++ [last]) (spaced (lexemes ++ [last])) := by
  have alone : spaced [last] = last.chars ++ [] := by simp [spaced]
  induction lexemes with
  | nil =>
    rw [List.nil_append, alone]
    exact .lexeme isLast.some (by rw [List.append_nil, ends]) .nil
  | cons lexeme lexemes ih =>
    have whole := h lexeme List.mem_cons_self
    have others := ih fun other isIn => h other (List.mem_cons_of_mem _ isIn)
    have noSpace : Ends isSpace (spaced (lexemes ++ [last])) := by
      cases lexemes with
      | nil =>
        rw [List.nil_append, alone]
        exact whole_first isLast []
      | cons next more =>
        rw [List.cons_append, spaced_cons next (by simp)]
        exact whole_first (h next (by simp)) _
    rw [List.cons_append, spaced_cons lexeme (by simp)]
    exact .lexeme whole.some (whole.found _) (.blank noSpace others)

end Formulary.Lexer

namespace Formulary.Printing

open Lexer

/-! ### The lexemes of an expression -/

/-- Lexemes that are whole once they are written out. -/
def AllWhole (lexemes : List Lexeme) : Prop :=
  ∀ lexeme ∈ lexemes.flatMap writtenOut, Whole lexeme

theorem allWhole_nil : AllWhole [] := by
  simp [AllWhole]

theorem allWhole_append {front back : List Lexeme} (h : AllWhole front) (h' : AllWhole back) :
    AllWhole (front ++ back) := by
  intro lexeme isIn
  rw [List.flatMap_append, List.mem_append] at isIn
  exact isIn.elim (h lexeme) (h' lexeme)

theorem allWhole_one {lexeme : Lexeme} (whole : Whole lexeme)
    (single : writtenOut lexeme = [lexeme]) : AllWhole [lexeme] := by
  intro other isIn
  rw [List.flatMap_singleton, single, List.mem_singleton] at isIn
  rwa [isIn]

theorem allWhole_name {text : String} (h : IsIdentifier text) : AllWhole [.name text] :=
  allWhole_one (whole_name h) rfl

theorem allWhole_symbol {mark : Symbol} (h : mark ∈ Symbol.all) : AllWhole [.symbol mark] :=
  allWhole_one (whole_symbol h) rfl

theorem allWhole_keyword (word : Keyword) : AllWhole [.keyword word] :=
  allWhole_one (whole_keyword word) rfl

theorem allWhole_cons {lexeme : Lexeme} {rest : List Lexeme} (h : AllWhole [lexeme])
    (h' : AllWhole rest) : AllWhole (lexeme :: rest) :=
  allWhole_append h h'

theorem allWhole_parenthesized {inner : List Lexeme} (h : AllWhole inner) :
    AllWhole (parenthesized inner) :=
  allWhole_cons (allWhole_symbol (by decide))
    (allWhole_append h (allWhole_symbol (by decide)))

theorem allWhole_within {phrase : Grammar.Phrase} {e : PrintedExpr} {written : List Lexeme}
    (h : AllWhole written) : AllWhole (within phrase e written) := by
  unfold within
  split
  · exact allWhole_parenthesized h
  · exact h

theorem allWhole_guarded {operand : List Lexeme} (h : AllWhole operand) :
    AllWhole (guarded operand) := by
  unfold guarded
  split
  · exact allWhole_parenthesized h
  · exact h

theorem allWhole_dotted {parts : List String} (h : ∀ part ∈ parts, IsIdentifier part) :
    AllWhole (dotted parts) := by
  cases parts with
  | nil => exact allWhole_nil
  | cons first names =>
    refine allWhole_cons (allWhole_name (h first List.mem_cons_self)) ?_
    have others : ∀ name ∈ names, IsIdentifier name :=
      fun name isIn => h name (List.mem_cons_of_mem first isIn)
    clear h
    induction names with
    | nil => exact allWhole_nil
    | cons name names ih =>
      have others' := ih fun other isIn => others other (List.mem_cons_of_mem name isIn)
      exact allWhole_cons (allWhole_symbol (by decide))
        (allWhole_cons (allWhole_name (others name List.mem_cons_self)) others')

/-- The lexemes of a dotted name are written as they are. -/
theorem dotted_writtenOut (parts : List String) :
    (dotted parts).flatMap writtenOut = dotted parts := by
  cases parts with
  | nil => rfl
  | cons first names =>
    refine congrArg (Lexeme.name first :: ·) ?_
    change (names.flatMap _).flatMap writtenOut = names.flatMap _
    induction names with
    | nil => rfl
    | cons name names ih => simp [writtenOut, ih]

theorem allWhole_cast {name : String} (h : IsTypeName name) : AllWhole [.castType name] := by
  have whole := allWhole_parenthesized (allWhole_dotted h)
  intro lexeme isIn
  refine whole lexeme ?_
  rw [List.flatMap_singleton] at isIn
  rw [parenthesized, List.flatMap_cons, List.flatMap_append, dotted_writtenOut]
  exact isIn

mutual

/-- All lexemes of an expression that can be written are found whole. -/
theorem bare_whole : ∀ e : PrintedExpr, Printable e → AllWhole (bare e)
  | .literal _ ⟨lexeme, value, spells⟩, _ => by
    refine allWhole_one (whole_spelled spells) ?_
    cases spells <;> rfl
  | .name _ ident, isName => allWhole_name isName
  | .typeName .., printable => printable.elim
  | .field _ receiver member, ⟨printable, isName⟩ =>
    allWhole_append (allWhole_within (bare_whole receiver printable))
      (allWhole_cons (allWhole_symbol (by decide)) (allWhole_name isName))
  | .methodCall _ receiver method args, ⟨printable, isName, printable'⟩ =>
    allWhole_append (allWhole_within (bare_whole receiver printable))
      (allWhole_cons (allWhole_symbol (by decide)) (allWhole_cons (allWhole_name isName)
        (allWhole_parenthesized (bareAll_whole args printable'))))
  | .call _ callee args, ⟨isName, printable⟩ =>
    allWhole_cons (allWhole_name isName) (allWhole_parenthesized (bareAll_whole args printable))
  | .index _ container place, ⟨printable, printable'⟩ =>
    allWhole_append (allWhole_within (bare_whole container printable))
      (allWhole_cons (allWhole_symbol (by decide))
        (allWhole_append (bare_whole place printable') (allWhole_symbol (by decide))))
  | .unary _ op operand, printable =>
    allWhole_cons (allWhole_symbol (by cases op <;> decide))
      (allWhole_within (bare_whole operand printable))
  | .step _ op target true, printable =>
    allWhole_cons (allWhole_symbol (by cases op <;> decide))
      (allWhole_within (bare_whole target printable))
  | .step _ op target false, printable =>
    allWhole_append (allWhole_within (bare_whole target printable))
      (allWhole_symbol (by cases op <;> decide))
  | .binary _ op left right, ⟨printable, printable'⟩ =>
    allWhole_append (allWhole_within (bare_whole left printable))
      (allWhole_cons (allWhole_symbol (by cases op <;> decide))
        (allWhole_within (bare_whole right printable')))
  | .logical _ op left right, ⟨printable, printable'⟩ =>
    allWhole_append (allWhole_within (bare_whole left printable))
      (allWhole_cons (allWhole_symbol (by cases op <;> decide))
        (allWhole_within (bare_whole right printable')))
  | .conditional _ condition thenValue elseValue, ⟨printable, printable', printable''⟩ =>
    allWhole_append (allWhole_within (bare_whole condition printable))
      (allWhole_cons (allWhole_symbol (by decide))
        (allWhole_append (bare_whole thenValue printable')
          (allWhole_cons (allWhole_symbol (by decide))
            (allWhole_within (bare_whole elseValue printable'')))))
  | .assign _ op target value, ⟨isSymbol, printable, printable'⟩ => by
    refine allWhole_append (allWhole_within (bare_whole target printable))
      (allWhole_cons (allWhole_symbol ?_) (bare_whole value printable'))
    cases op with
    | none => decide
    | some op =>
      have compound : ∀ op ∈ Symbol.compoundOps, Symbol.compound op ∈ Symbol.all := by decide
      exact compound op (isSymbol op rfl)
  | .cast _ type operand, ⟨isType, printable⟩ => by
    have inner : AllWhole (within .unary operand (bare operand)) :=
      allWhole_within (bare_whole operand printable)
    rw [bare]
    split
    · exact allWhole_append (allWhole_parenthesized (allWhole_keyword _)) inner
    · next noPrimitive =>
      have isType := isType.resolve_left (by simp [noPrimitive])
      exact allWhole_cons (allWhole_cast isType) (allWhole_guarded inner)
  | .instanceOf _ value type, ⟨printable, isType⟩ =>
    allWhole_append (allWhole_within (bare_whole value printable))
      (allWhole_cons (allWhole_keyword _) (allWhole_dotted isType))
  | .new _ type args, ⟨isType, printable⟩ =>
    allWhole_cons (allWhole_keyword _)
      (allWhole_append (allWhole_dotted isType)
        (allWhole_parenthesized (bareAll_whole args printable)))

theorem bareAll_whole : ∀ es : List PrintedExpr, AllPrintable es → AllWhole (bareAll es)
  | [], _ => allWhole_nil
  | [e], ⟨printable, _⟩ => bare_whole e printable
  | e :: second :: more, ⟨printable, others⟩ =>
    allWhole_append (bare_whole e printable)
      (allWhole_cons (allWhole_symbol (by decide)) (bareAll_whole (second :: more) others))

end

end Formulary.Printing
