/-
The tokens of filled rows.

Strings and comments may run over slots; everything else ends at the parenthesis in front of the
name. A filled row therefore falls into the same parts whatever the name is, and outside of strings
the name is a token of its own, with the parenthesis in front of it and the bracket behind it.

* `Takes` — what a measure takes of a row, whatever the name.
* `scan_fill` — what is found at the start of a filled row.
* `Reads` — rows and the parts that they are read as.
* `lexemes_fill` — the lexemes of a filled row.
-/

import Formulary.Proofs.Closings
import Formulary.Proofs.FilledSources

namespace Formulary.Slots

open Lexer

/-! ### In front of slots -/

theorem stopping_slot (name : List Char) (cells : List Cell) :
    Stopping (fill name (.slot :: cells)) where
  first c rest same := by
    rw [fill_slot, List.cons.injEq] at same
    exact .inl same.1.symm
  second c d rest same := by
    rw [fill_slot, List.cons.injEq, List.cons.injEq] at same
    rintro rfl
    exact absurd same.2.1 (by decide)

/-- A row begins with a text that a slot or its end stops. -/
theorem exists_front (cells : List Cell) :
    ∃ text back, cells = plain text ++ back ∧ ∀ name, Stopping (fill name back) := by
  induction cells with
  | nil => exact ⟨[], [], rfl, fun _ => ⟨fun _ _ same => (nomatch same), fun _ _ _ same =>
      (nomatch same)⟩⟩
  | cons cell cells ih =>
    cases cell with
    | char c =>
      obtain ⟨text, back, rfl, stopping⟩ := ih
      exact ⟨c :: text, back, rfl, stopping⟩
    | slot => exact ⟨[], .slot :: cells, rfl, fun name => stopping_slot name cells⟩

/-! ### What measures take of rows -/

/-- The part of a row that a measure takes at its start, whatever the name is; none, if the measure
finds nothing there. -/
def Takes (measure : List Char → Option Nat) (cells : List Cell) : Option (List Cell) → Prop
  | none => ∀ name, IsArgsName name → measure (fill name cells) = none
  | some front => front <+: cells ∧
    ∀ name, IsArgsName name → measure (fill name cells) = some (fill name front).length

/-- A measure that goes on behind some cells. -/
theorem Takes.behind {measure further : List Char → Option Nat} {cells : List Cell}
    {taken? : Option (List Cell)} (h : Takes measure cells taken?) (front : List Cell)
    (goesOn : ∀ name, IsArgsName name → further (fill name (front ++ cells)) =
      (measure (fill name cells)).map (· + (fill name front).length)) :
    Takes further (front ++ cells) (taken?.map (front ++ ·)) := by
  cases taken? with
  | none =>
    intro name isArgs
    rw [goesOn name isArgs, h name isArgs]
    rfl
  | some taken =>
    refine ⟨(List.prefix_append_right_inj front).mpr h.1, fun name isArgs => ?_⟩
    rw [goesOn name isArgs, h.2 name isArgs, fill_append, List.length_append, Nat.add_comm]
    rfl

/-- A measure that goes on behind a cell. -/
theorem Takes.cell {measure further : List Char → Option Nat} {cells : List Cell}
    {taken? : Option (List Cell)} (h : Takes measure cells taken?) (cell : Cell)
    (goesOn : ∀ name, IsArgsName name → further (cell.text name ++ fill name cells) =
      (measure (fill name cells)).map (· + (cell.text name).length)) :
    Takes further (cell :: cells) (taken?.map (cell :: ·)) := by
  refine h.behind [cell] fun name isArgs => ?_
  have alone : fill name [cell] = cell.text name := List.append_nil _
  rw [fill_append, alone]
  exact goesOn name isArgs

section Strings

/-- A character that neither ends a string nor escapes. -/
def isInert (c : Char) : Bool := c != '"' && c != '\n' && c != '\\'

theorem stringRest_inert {front : List Char} (inert : front.all isInert = true)
    (back : List Char) :
    stringRest? (front ++ back) = (stringRest? back).map (· + front.length) := by
  induction front with
  | nil =>
    rw [List.nil_append]
    cases stringRest? back <;> rfl
  | cons c front ih =>
    simp only [List.all_cons, isInert, Bool.and_eq_true, bne_iff_ne] at inert
    obtain ⟨⟨⟨noQuote, noEnd⟩, noEscape⟩, others⟩ := inert
    rw [List.cons_append, stringRest_plain noQuote noEnd noEscape, ih others]
    cases stringRest? back <;> rfl

theorem inert_of_isArgs {name : List Char} (isArgs : IsArgsName name) :
    name.all isInert = true := by
  refine List.all_eq_true.mpr fun c isIn => ?_
  have ne {d : Char} (noLetter : d ≠ 'o') (noDigit : d.isDigit = false) : c ≠ d := by
    rintro rfl
    exact isArgs.not_mem noLetter noDigit isIn
  simp [isInert, ne (d := '"') (by decide) (by decide), ne (d := '\n') (by decide) (by decide),
    ne (d := '\\') (by decide) (by decide)]

theorem inert_slot {name : List Char} (isArgs : IsArgsName name) :
    (Cell.text name .slot).all isInert = true := by
  rw [Cell.text, List.all_cons, List.all_cons, List.all_append, inert_of_isArgs isArgs]
  decide

theorem exists_stringRest (cells : List Cell) : ∃ taken?, Takes stringRest? cells taken? := by
  induction size : cells.length using Nat.strong_induction_on generalizing cells with
  | _ n ih =>
    -- The last cells that have been looked at are those in front of the rest.
    have further (front rest : List Cell) (same : cells = front ++ rest) (some : front ≠ [])
        (goesOn : ∀ name, IsArgsName name → stringRest? (fill name (front ++ rest)) =
          (stringRest? (fill name rest)).map (· + (fill name front).length)) :
        ∃ taken?, Takes stringRest? cells taken? := by
      have positive := List.length_pos_of_ne_nil some
      obtain ⟨taken?, taken⟩ := ih rest.length (by
        rw [← size, same, List.length_append]
        omega) rest rfl
      exact ⟨_, same ▸ taken.behind front goesOn⟩
    rcases cells with - | ⟨c | -, cells⟩
    · exact ⟨none, fun _ _ => rfl⟩
    · by_cases isQuote : c = '"'
      · subst isQuote
        exact ⟨some [.char '"'], List.prefix_append [_] cells, fun _ _ => rfl⟩
      by_cases isEnd : c = '\n'
      · subst isEnd
        exact ⟨none, fun _ _ => rfl⟩
      by_cases isEscape : c = '\\'
      · subst isEscape
        rcases cells with - | ⟨d | -, cells⟩
        · exact ⟨none, fun _ _ => rfl⟩
        · by_cases isEnd : d = '\n'
          · subst isEnd
            exact ⟨none, fun _ _ => rfl⟩
          · refine further [.char '\\', .char d] cells rfl (List.cons_ne_nil _ _) fun name _ => ?_
            simp only [List.cons_append, List.nil_append, fill_char, stringRest?, isEnd, if_false]
            rfl
        · refine further [.char '\\', .slot] cells rfl (List.cons_ne_nil _ _) fun name isArgs => ?_
          -- The escape takes the parenthesis; behind it the slot goes on.
          have inert : (' ' :: (name ++ ['['])).all isInert = true := by
            have whole := inert_slot isArgs
            rw [Cell.text, List.all_cons, Bool.and_eq_true] at whole
            exact whole.2
          have behind := stringRest_inert inert (fill name cells)
          rw [List.cons_append, List.append_assoc, List.singleton_append] at behind
          have escaped : (')' = '\n') = False := by decide
          simp only [List.cons_append, List.nil_append, fill_char, fill_slot, stringRest?, escaped,
            if_false, behind, Option.map_map]
          refine congrArg (Option.map · _) (funext fun length => ?_)
          simp
          omega
      · have inert : [c].all isInert = true := by simp [isInert, isQuote, isEnd, isEscape]
        have shorter : cells.length < n := by
          rw [← size]
          exact Nat.lt_succ_self _
        obtain ⟨taken?, taken⟩ := ih _ shorter cells rfl
        exact ⟨_, taken.cell (.char c) fun name _ => stringRest_inert inert _⟩
    · have shorter : cells.length < n := by
        rw [← size]
        exact Nat.lt_succ_self _
      obtain ⟨taken?, taken⟩ := ih _ shorter cells rfl
      exact ⟨_, taken.cell .slot fun name isArgs => stringRest_inert (inert_slot isArgs) _⟩

end Strings

section Comments

/-- The length of the rest of a comment up to the end of a line. -/
def lineRest? (text : List Char) : Option Nat :=
  some (text.takeWhile (· != '\n')).length

theorem exists_lineRest (cells : List Cell) : ∃ taken?, Takes lineRest? cells taken? := by
  have goesOn {front : List Char} (within : ∀ c ∈ front, (c != '\n') = true) (back : List Char) :
      lineRest? (front ++ back) = (lineRest? back).map (· + front.length) := by
    rw [lineRest?, lineRest?, List.takeWhile_append_of_pos within, List.length_append,
      Option.map_some, Nat.add_comm]
  induction cells with
  | nil => exact ⟨some [], List.nil_prefix, fun _ _ => rfl⟩
  | cons cell cells ih =>
    obtain ⟨taken?, taken⟩ := ih
    cases cell with
    | char c =>
      by_cases isEnd : c = '\n'
      · subst isEnd
        exact ⟨some [], List.nil_prefix, fun _ _ => rfl⟩
      · exact ⟨_, taken.cell (.char c) fun name _ =>
          goesOn (List.forall_mem_singleton.mpr (by simpa using isEnd)) _⟩
    | slot =>
      refine ⟨_, taken.cell .slot fun name isArgs => goesOn (fun c isIn => ?_) _⟩
      have inert := List.all_eq_true.mp (inert_slot isArgs) c isIn
      simp only [isInert, Bool.and_eq_true] at inert
      exact inert.1.2

theorem blockRest_goesOn {front : List Char} (noStar : '*' ∉ front) (back : List Char) :
    blockRest? (front ++ back) = (blockRest? back).map (· + front.length) := by
  induction front with
  | nil =>
    rw [List.nil_append]
    cases blockRest? back <;> rfl
  | cons c front ih =>
    obtain ⟨differs, others⟩ := not_or.mp (List.mem_cons.not.mp noStar)
    rw [List.cons_append, blockRest_cons fun isStar => absurd isStar.symm differs, ih others]
    cases blockRest? back <;> rfl

theorem exists_blockRest (cells : List Cell) : ∃ taken?, Takes blockRest? cells taken? := by
  induction cells with
  | nil => exact ⟨none, fun _ _ => rfl⟩
  | cons cell cells ih =>
    obtain ⟨taken?, taken⟩ := ih
    cases cell with
    | char c =>
      by_cases isEnd : c = '*' ∧ cells.head? = some (.char '/')
      · obtain ⟨rfl, isSlash⟩ := isEnd
        obtain ⟨rest, rfl⟩ := List.head?_eq_some_iff.mp isSlash
        exact ⟨some [.char '*', .char '/'], List.prefix_append [_, _] rest, fun _ _ => rfl⟩
      · refine ⟨_, taken.cell (.char c) fun name _ => ?_⟩
        refine blockRest_cons fun isStar isSlash => isEnd ⟨isStar, ?_⟩
        change (fill name cells).head? = some '/' at isSlash
        rw [head?_fill, Option.map_eq_some_iff] at isSlash
        obtain ⟨next, isNext, same⟩ := isSlash
        cases next with
        | char d => rwa [← same]
        | slot => exact absurd same (by decide)
    | slot =>
      refine ⟨_, taken.cell .slot fun name isArgs => blockRest_goesOn ?_ _⟩
      simp [Cell.text, isArgs.not_mem (c := '*') (by decide) (by decide)]

theorem exists_comment (cells : List Cell) :
    ∃ taken?, Takes commentLength? (.char '/' :: cells) taken? := by
  rcases cells with - | ⟨c | -, cells⟩
  · exact ⟨none, fun _ _ => rfl⟩
  · by_cases isSlash : c = '/'
    · subst isSlash
      obtain ⟨taken?, taken⟩ := exists_lineRest cells
      exact ⟨_, taken.behind [.char '/', .char '/'] fun _ _ => rfl⟩
    by_cases isStar : c = '*'
    · subst isStar
      obtain ⟨taken?, taken⟩ := exists_blockRest cells
      exact ⟨_, taken.behind [.char '/', .char '*'] fun _ _ => rfl⟩
    · exact ⟨none, fun _ _ => commentLength_other isSlash isStar⟩
  · refine ⟨none, fun name _ => ?_⟩
    rw [fill_char, fill_slot]
    exact commentLength_other (by decide) (by decide)

end Comments

/-! ### Parts of rows -/

/-- A part of a row that is a token: one without slots, a string, or the name in a slot. -/
inductive Part where
  | fixed (lexeme : Lexeme)
  | quoted (cells : List Cell)
  | name
deriving DecidableEq, Repr

/-- The lexeme of a part. -/
def Part.toLexeme (name : List Char) : Part → Lexeme
  | fixed lexeme => lexeme
  | quoted cells => .string (fill name cells)
  | Part.name => .name (String.ofList name)

/-- Whether a part covers some cells outside of slots: a string is made of them, and what is a name
is made of their characters. -/
def Part.Covers (cells : List Cell) : Part → Prop
  | fixed lexeme => ∀ text, lexeme = .name text → cells = plain text.toList
  | quoted inner => inner = cells
  | Part.name => False

/-- What is found at the start of a row, whatever the name is. -/
structure Found (cells : List Cell) (part? : Option Part) (front : List Cell) : Prop where
  some : front ≠ []
  begins : front <+: cells
  covers : ∀ part ∈ part?, part.Covers front
  scans : ∀ name, IsArgsName name →
    scan (fill name cells) = .some (part?.map (Part.toLexeme name), (fill name front).length)

theorem blockRest_front {text back : List Char} (h : blockRest? (text ++ back) = none) :
    blockRest? text = none := by
  induction text with
  | nil => rfl
  | cons c text ih =>
    by_cases isEnd : c = '*' ∧ text.head? = some '/'
    · obtain ⟨rfl, isSlash⟩ := isEnd
      obtain ⟨rest, rfl⟩ := List.head?_eq_some_iff.mp isSlash
      cases h
    · have goesOn : blockRest? (text ++ back) = none := by
        rw [List.cons_append] at h
        unfold blockRest? at h
        split at h
        · cases h
        · next same =>
          obtain ⟨rfl, rfl⟩ := List.cons.inj same
          exact Option.map_eq_none_iff.mp h
        · next same => cases same
      rw [blockRest_cons fun isStar isSlash => isEnd ⟨isStar, isSlash⟩, ih goesOn]
      rfl

/-- Where no comment is found, there is none in a part of the text either. -/
theorem commentLength_front {c : Char} {text back : List Char}
    (h : commentLength? (c :: text ++ back) = none) : commentLength? (c :: text) = none := by
  by_cases isSlash : c = '/'
  · subst isSlash
    cases text with
    | nil => rfl
    | cons d text =>
      by_cases isLine : d = '/'
      · subst isLine
        cases h
      by_cases isBlock : d = '*'
      · subst isBlock
        have rest : blockRest? (text ++ back) = none := Option.map_eq_none_iff.mp h
        rw [commentLength?, blockRest_front rest]
        rfl
      · exact commentLength_other isLine isBlock
  · exact commentLength_none isSlash

theorem scan_comment {text : List Char} {length : Nat}
    (h : commentLength? ('/' :: text) = some length) :
    scan ('/' :: text) = some (none, length) := by
  unfold scan
  rw [floatingLength_none (by decide) (by simp), spaceLength_none (by decide), h]
  rfl

theorem symbolAt_head {c : Char} {text : List Char} {symbol : Symbol}
    (h : symbolAt? (c :: text) = some symbol) :
    symbol ∈ Symbol.all ∧ symbol.text.toList.head? = some c := by
  obtain ⟨isIn, begins⟩ := symbolAt_prefix h
  refine ⟨isIn, ?_⟩
  cases spelled : symbol.text.toList with
  | nil =>
    have positive := symbol_some symbol isIn
    rw [← String.length_toList, spelled] at positive
    cases positive
  | cons d rest =>
    rw [spelled, List.cons_prefix_cons] at begins
    rw [begins.1, List.head?_cons]

/-- Where no symbol begins like a text, none is found. -/
theorem symbolAt_none {c : Char} (h : ∀ symbol ∈ Symbol.all, symbol.text.toList.head? ≠ some c)
    (text : List Char) : symbolAt? (c :: text) = none := by
  rw [Option.eq_none_iff_forall_ne_some]
  intro symbol found
  obtain ⟨isIn, isHead⟩ := symbolAt_head found
  exact h symbol isIn isHead

theorem scan_quote (text : List Char) : scan ('"' :: text) =
    (stringLength? ('"' :: text)).map fun length =>
      (some (.string (('"' :: text).take length)), length) := by
  have noSymbol : symbolAt? ('"' :: text) = none := symbolAt_none (by decide +kernel) text
  have noName : nameLength? ('"' :: text) = none := rfl
  rw [scan_other (by decide) (by simp) (by decide) (commentLength_none (by decide)),
    characterLength_none (by decide), noName, noSymbol]
  cases stringLength? ('"' :: text) <;> rfl

theorem name_found {text : List Char} {word : String} {length : Nat}
    (h : Finds text (some (.name word)) length) : String.ofList (text.take length) = word := by
  generalize isName : some (Lexeme.name word) = lexeme? at h
  cases h with
  | word _ =>
    simp only [wordLexeme, Option.some.injEq] at isName
    split at isName <;> cases isName
    rfl
  | _ => cases isName

/-- What is neither a string nor a comment is found in front of the first slot. -/
theorem scan_stopped {c : Char} {cells : List Cell} (noQuote : c ≠ '"')
    (noComment : ∀ name, IsArgsName name → commentLength? (fill name (.char c :: cells)) = none) :
    (∀ name, IsArgsName name → scan (fill name (.char c :: cells)) = none) ∨
      ∃ part? front, Found (.char c :: cells) part? front := by
  obtain ⟨text, back, rfl, stopping⟩ := exists_front cells
  have split (name : List Char) : fill name (.char c :: (plain text ++ back)) =
      c :: text ++ fill name back := by
    rw [fill_char, fill_append, fill_plain, List.cons_append]
  have alone : ∀ name, IsArgsName name →
      scan (fill name (.char c :: (plain text ++ back))) = scan (c :: text) := by
    intro name isArgs
    have none := noComment name isArgs
    rw [split] at none ⊢
    rw [scan_stopping (stopping name) (List.cons_ne_nil c text), none, scan_eq,
      commentLength_front none]
    rw [List.cons_append, stringLength_none noQuote, stringLength_none noQuote]
  cases found : scan (c :: text) with
  | none => exact .inl fun name isArgs => (alone name isArgs).trans found
  | some result =>
    obtain ⟨lexeme?, length⟩ := result
    have finds := scan_finds found
    obtain ⟨positive, within⟩ := finds.length_le
    have whole : ((c :: text).take length).length = length := List.length_take_of_le within
    refine .inr ⟨lexeme?.map .fixed, plain ((c :: text).take length), ?_, ?_, ?_, ?_⟩
    · intro none
      have size := congrArg List.length none
      rw [length_plain, whole] at size
      exact Nat.ne_of_gt positive size
    · have begins : plain ((c :: text).take length) <+: plain (c :: text) :=
        (List.take_prefix length (c :: text)).map Cell.char
      exact begins.trans (List.prefix_append (plain (c :: text)) back)
    · intro part isPart
      obtain ⟨lexeme, rfl, rfl⟩ := Option.map_eq_some_iff.mp isPart
      rintro word rfl
      rw [← name_found finds, String.toList_ofList]
    · intro name isArgs
      rw [alone name isArgs, found, fill_plain, whole, Option.map_map]
      cases lexeme? <;> rfl

/-- **What is found at the start of a filled row** does not depend on the name. -/
theorem scan_fill (c : Char) (cells : List Cell) :
    (∀ name, IsArgsName name → scan (fill name (.char c :: cells)) = none) ∨
      ∃ part? front, Found (.char c :: cells) part? front := by
  by_cases isQuote : c = '"'
  · subst isQuote
    obtain ⟨taken?, taken⟩ := exists_stringRest cells
    have taken : Takes stringLength? (.char '"' :: cells) (taken?.map (.char '"' :: ·)) :=
      taken.cell (.char '"') fun _ _ => rfl
    cases taken? with
    | none =>
      refine .inl fun name isArgs => ?_
      have none := taken name isArgs
      rw [fill_char] at none ⊢
      rw [scan_quote, none]
      rfl
    | some front =>
      obtain ⟨begins, lengths⟩ := taken
      refine .inr ⟨some (.quoted (.char '"' :: front)), _, List.cons_ne_nil _ _, begins, ?_,
        fun name isArgs => ?_⟩
      · rintro _ ⟨⟩
        exact rfl
      · have whole : (fill name (.char '"' :: cells)).take (fill name (.char '"' :: front)).length =
            fill name (.char '"' :: front) := by
          obtain ⟨back, same⟩ := begins
          rw [← same, fill_append, List.take_left]
        have length := lengths name isArgs
        rw [fill_char name '"' cells] at length whole ⊢
        rw [scan_quote, length, Option.map_some, whole]
        rfl
  by_cases isSlash : c = '/'
  · subst isSlash
    obtain ⟨taken?, taken⟩ := exists_comment cells
    cases taken? with
    | none => exact scan_stopped (by decide) taken
    | some front =>
      obtain ⟨begins, lengths⟩ := taken
      refine .inr ⟨none, front, ?_, begins, fun part isPart => (nomatch isPart),
        fun name isArgs => scan_comment (lengths name isArgs)⟩
      rintro rfl
      have positive := (commentLength_le (lengths (argsAt 0) ⟨0, rfl⟩)).1
      exact Nat.lt_irrefl 0 positive
  · exact scan_stopped isQuote fun name _ => commentLength_none isSlash

/-! ### Rows and their parts -/

/-- The parts that a row is read as, from left to right. -/
inductive Reads : List Cell → List Part → Prop
  | nil : Reads [] []
  | part {part? : Option Part} {front back : List Cell} {parts : List Part}
      (covers : ∀ part ∈ part?, part.Covers front) (rest : Reads back parts) :
      Reads (front ++ back) (part?.toList ++ parts)
  | slot {cells : List Cell} {parts : List Part} (rest : Reads cells parts) :
      Reads (.slot :: cells)
        (.fixed (.symbol .rightParen) :: .name :: .fixed (.symbol .leftBracket) :: parts)

theorem fill_some {name : List Char} {cells : List Cell} (some : cells ≠ []) :
    fill name cells ≠ [] := by
  rcases cells with - | ⟨c | -, cells⟩
  · exact absurd rfl some
  · exact List.cons_ne_nil _ _
  · exact List.cons_ne_nil _ _

/-- The lexemes of a text that begins at a position. -/
def lexemesFrom (p : Position) (text : List Char) : Except IllegalCharacter (List Lexeme) :=
  (tokensFrom 0 p text).map (List.map Token.lexeme)

theorem lexemesFrom_piece {lexeme? : Option Lexeme} {text back : List Char} (some : text ≠ [])
    (found : scan (text ++ back) = .some (lexeme?, text.length)) (p : Position) :
    lexemesFrom p (text ++ back) =
      (lexemesFrom (behind p text) back).map (lexeme?.toList ++ ·) := by
  rw [lexemesFrom, lexemesFrom, tokensFrom_piece some found]
  cases tokensFrom 0 (behind p text) back with
  | error e => rfl
  | ok tokens => cases lexeme? <;> rfl

theorem lexemesFrom_slot {name : List Char} (isArgs : IsArgsName name) (cells : List Cell)
    (p : Position) : ∃ q, lexemesFrom p (fill name (.slot :: cells)) =
      (lexemesFrom q (fill name cells)).map
        ([.symbol .rightParen, .name (String.ofList name), .symbol .leftBracket] ++ ·) := by
  have isName : Printing.IsIdentifier (String.ofList name) := by
    obtain ⟨clock, rfl⟩ := isArgs
    exact argsAt_identifier clock
  have noSpace (rest : List Char) : Lexer.Ends isSpace (name ++ rest) := by
    obtain ⟨digits, -, -, rfl⟩ := isArgs.spelled
    exact ends_cons (by decide)
  have named : scan (name ++ '[' :: fill name cells) =
      some (some (.name (String.ofList name)), name.length) :=
    scan_name isName (ends_cons (by decide))
  -- The four pieces of the slot, one after the other.
  have first (rest : List Char) : lexemesFrom p (')' :: rest) =
      (lexemesFrom (behind p [')']) rest).map ([.symbol .rightParen] ++ ·) :=
    @lexemesFrom_piece _ [')'] rest (List.cons_ne_nil _ _) rfl p
  have second (q : Position) (rest : List Char) : lexemesFrom q (' ' :: (name ++ rest)) =
      lexemesFrom (q.advance ' ') (name ++ rest) := by
    rw [lexemesFrom, tokensFrom_blank (noSpace rest)]
    rfl
  have third (q : Position) := lexemesFrom_piece isArgs.some named q
  have fourth (q : Position) (rest : List Char) : lexemesFrom q ('[' :: rest) =
      (lexemesFrom (behind q ['[']) rest).map ([.symbol .leftBracket] ++ ·) :=
    @lexemesFrom_piece _ ['['] rest (List.cons_ne_nil _ _) rfl q
  rw [fill_slot, first, second, third, fourth]
  generalize behind _ ['['] = q
  refine ⟨q, ?_⟩
  cases lexemesFrom q (fill name cells) <;> rfl

/-- **The lexemes of a filled row**: whatever the name is, it has none, or it is read as the same
parts. -/
theorem lexemes_fill (cells : List Cell) :
    (∀ name p, IsArgsName name → ∃ e, lexemesFrom p (fill name cells) = .error e) ∨
      ∃ parts, Reads cells parts ∧ ∀ name p, IsArgsName name →
        lexemesFrom p (fill name cells) = .ok (parts.map (Part.toLexeme name)) := by
  induction size : cells.length using Nat.strong_induction_on generalizing cells with
  | _ n ih =>
    rcases cells with - | ⟨c | -, cells⟩
    · exact .inr ⟨[], .nil, fun _ _ _ => by rw [fill_nil, lexemesFrom, tokensFrom]; rfl⟩
    · rcases scan_fill c cells with none | ⟨part?, front, some, begins, covers, scans⟩
      · refine .inl fun name p isArgs => ⟨⟨p, c⟩, ?_⟩
        have none := none name isArgs
        rw [fill_char] at none ⊢
        rw [lexemesFrom, tokensFrom, none]
        rfl
      · obtain ⟨back, same⟩ := begins
        have positive := List.length_pos_of_ne_nil some
        have shorter : back.length < n := by
          rw [← size, ← same, List.length_append]
          omega
        have first (name : List Char) (p : Position) (isArgs : IsArgsName name) :
            lexemesFrom p (fill name (.char c :: cells)) =
              (lexemesFrom (behind p (fill name front)) (fill name back)).map
                ((part?.map (Part.toLexeme name)).toList ++ ·) := by
          have found := scans name isArgs
          rw [← same, fill_append] at found ⊢
          exact lexemesFrom_piece (fill_some some) found p
        rcases ih _ shorter back rfl with fails | ⟨parts, reads, lexemes⟩
        · refine .inl fun name p isArgs => ?_
          obtain ⟨e, isError⟩ := fails name (behind p (fill name front)) isArgs
          exact ⟨e, by rw [first name p isArgs, isError]; rfl⟩
        · refine .inr ⟨part?.toList ++ parts, same ▸ .part covers reads, fun name p isArgs => ?_⟩
          rw [first name p isArgs, lexemes name _ isArgs, List.map_append]
          cases part? <;> rfl
    · rcases ih _ (by rw [← size]; exact Nat.lt_succ_self _) cells rfl with
        fails | ⟨parts, reads, lexemes⟩
      · refine .inl fun name p isArgs => ?_
        obtain ⟨q, first⟩ := lexemesFrom_slot isArgs cells p
        obtain ⟨e, isError⟩ := fails name q isArgs
        exact ⟨e, by rw [first, isError]; rfl⟩
      · refine .inr ⟨_, .slot reads, fun name p isArgs => ?_⟩
        obtain ⟨q, first⟩ := lexemesFrom_slot isArgs cells p
        rw [first, lexemes name q isArgs]
        rfl

end Formulary.Slots
