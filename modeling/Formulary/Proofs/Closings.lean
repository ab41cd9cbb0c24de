/-
Texts that no lexeme goes on into.

Behind any lexeme a closing parenthesis or a semicolon ends it. What is found in front of such a
text is therefore found in front of any other one; only a comment up to the end of its line goes on
into it.

* `scan_closing` — what is found in front of a text that closes.
* `scan_into` — what goes on into it.
* `tokensFrom_closing` — the tokens of a text with a closing one behind it.
-/

import Formulary.Proofs.Scanning

namespace Formulary.Lexer

/-! ### Texts that no lexeme goes on into -/

/-- A text that stops everything but strings and comments: it begins with a closing parenthesis or
a semicolon, and no apostrophe follows. -/
structure Stopping (text : List Char) : Prop where
  first : ∀ c rest, text = c :: rest → c = ')' ∨ c = ';'
  second : ∀ c d rest, text = c :: d :: rest → d ≠ '\''

/-- A text of closing parentheses and semicolons. -/
def Closing (text : List Char) : Prop :=
  ∀ c ∈ text, c = ')' ∨ c = ';'

/-- What stands in front of a text whose first character does not prolong it ends there. -/
theorem takeWhile_before {p : Char → Bool} {back : List Char} (ends : Ends p back)
    (text : List Char) : (text ++ back).takeWhile p = text.takeWhile p := by
  induction text with
  | nil => exact @takeWhile_ends _ [] _ (by simp) ends
  | cons c text ih =>
    rw [List.cons_append, List.takeWhile_cons, List.takeWhile_cons, ih]

section Stopping

variable {back : List Char} (stopping : Stopping back)

include stopping

theorem Stopping.ends {prolongs : Char → Bool} (noParen : prolongs ')' = false)
    (noSemicolon : prolongs ';' = false) : Ends prolongs back := by
  intro c rest same
  rcases stopping.first c rest same with rfl | rfl
  · exact noParen
  · exact noSemicolon

theorem Stopping.head_ne {c : Char} {rest : List Char} (same : back = c :: rest) (d : Char)
    (noParen : d ≠ ')') (noSemicolon : d ≠ ';') : c ≠ d := by
  rintro rfl
  exact (stopping.first c rest same).elim noParen noSemicolon

theorem takeWhile_stopping {p : Char → Bool} (noParen : p ')' = false)
    (noSemicolon : p ';' = false) (text : List Char) :
    (text ++ back).takeWhile p = text.takeWhile p :=
  takeWhile_before (stopping.ends noParen noSemicolon) text

theorem digitsLength_stopping (text : List Char) :
    digitsLength (text ++ back) = digitsLength text := by
  rw [digitsLength, takeWhile_stopping stopping (by decide) (by decide)]
  rfl

theorem oneOf_stopping (letters : List Char) (noParen : letters.contains ')' = false)
    (noSemicolon : letters.contains ';' = false) (text : List Char) :
    oneOf letters (text ++ back) = oneOf letters text := by
  cases text with
  | cons c text => rfl
  | nil =>
    cases back with
    | nil => rfl
    | cons c rest =>
      have absent : letters.contains c = false := stopping.ends noParen noSemicolon c rest rfl
      simp only [List.nil_append, oneOf, absent, Bool.false_eq_true, if_false]

theorem signLength_stopping (text : List Char) : signLength (text ++ back) = signLength text := by
  cases text with
  | cons c text => rfl
  | nil =>
    cases back with
    | nil => rfl
    | cons c rest =>
      rcases stopping.first c _ rfl with rfl | rfl <;> rfl

omit stopping in
theorem signLength_le (text : List Char) : signLength text ≤ text.length := by
  cases text with
  | nil => exact Nat.le_refl 0
  | cons c rest =>
    rw [signLength, List.length_cons]
    split <;> omega

theorem exponentLength_stopping (text : List Char) :
    exponentLength (text ++ back) = exponentLength text := by
  cases text with
  | nil => exact exponentLength_ends (stopping.ends (by decide) (by decide))
  | cons letter rest =>
    rw [List.cons_append, exponentLength_cons, exponentLength_cons, signLength_stopping stopping,
      List.drop_append_of_le_length (signLength_le rest), digitsLength_stopping stopping]

theorem fractionLength_stopping (whole : Nat) (text : List Char) :
    fractionLength whole (text ++ back) = fractionLength whole text := by
  cases text with
  | nil =>
    cases back with
    | nil => rfl
    | cons c rest =>
      rcases stopping.first c _ rfl with rfl | rfl <;> rfl
  | cons c text =>
    by_cases isPoint : c = '.'
    · subst isPoint
      simp only [List.cons_append, fractionLength, digitsLength_stopping stopping]
    · rw [List.cons_append, fractionLength_other isPoint, fractionLength_other isPoint]

theorem floatingLength_stopping (text : List Char) :
    floatingLength? (text ++ back) = floatingLength? text := by
  have whole := digitsLength_le text
  have fraction := fractionLength_le (digitsLength text) (text.drop (digitsLength text))
  have exponent := exponentLength_le (text.drop (digitsLength text +
    fractionLength (digitsLength text) (text.drop (digitsLength text))))
  rw [List.length_drop] at fraction exponent
  rw [floatingLength_eq, floatingLength_eq, digitsLength_stopping stopping,
    List.drop_append_of_le_length whole, fractionLength_stopping stopping]
  simp only [floatingFrom?]
  rw [List.drop_append_of_le_length (by omega), exponentLength_stopping stopping,
    List.drop_append_of_le_length (by omega)]
  simp only [floatingSuffix, oneOf_stopping stopping ['f', 'F', 'd', 'D'] rfl rfl]
  rfl

theorem hexLength_stopping (text : List Char) : hexLength (text ++ back) = hexLength text := by
  rcases text with - | ⟨c, - | ⟨x, rest⟩⟩
  · rcases back with - | ⟨c, - | ⟨d, rest⟩⟩
    · rfl
    · rcases stopping.first c _ rfl with rfl | rfl <;> rfl
    · rcases stopping.first c _ rfl with rfl | rfl <;> rfl
  · cases back with
    | nil => rfl
    | cons d rest =>
      by_cases isZero : c = '0'
      · subst isZero
        rcases stopping.first d _ rfl with rfl | rfl <;> rfl
      · rw [List.singleton_append, hexLength_other isZero, hexLength_other isZero]
  · by_cases isZero : c = '0'
    · subst isZero
      simp only [List.cons_append, hexLength,
        takeWhile_stopping stopping (p := isHexDigit) (by decide) (by decide)]
    · rw [List.cons_append, hexLength_other isZero, hexLength_other isZero]

theorem integerLength_stopping (text : List Char) :
    integerLength? (text ++ back) = integerLength? text := by
  have decimal := digitsLength_le text
  have hex := hexLength_le text
  rw [integerLength_eq, integerLength_eq, digitsLength_stopping stopping,
    hexLength_stopping stopping]
  dsimp only
  have within : (if hexLength text = 0 then digitsLength text else 2 + hexLength text) ≤
      text.length := by
    split <;> omega
  rw [List.drop_append_of_le_length within, integerSuffix,
    oneOf_stopping stopping ['l', 'L'] rfl rfl]
  rfl

theorem spaceLength_stopping (text : List Char) :
    spaceLength? (text ++ back) = spaceLength? text := by
  rw [spaceLength?, takeWhile_stopping stopping (by decide) (by decide)]
  rfl

omit stopping in
theorem closedAfter_eq (length : Nat) (text : List Char) :
    closedAfter length text =
      if (text.drop length).head? = some '\'' then some (length + 1) else none := by
  unfold closedAfter
  split
  · next same => rw [same, List.head?_cons, if_pos rfl]
  · next other =>
    rw [if_neg]
    intro isMark
    obtain ⟨rest, same⟩ := List.head?_eq_some_iff.mp isMark
    exact other rest same

/-- An apostrophe that is looked for within a text or just behind it. -/
theorem closedAfter_stopping {length : Nat} {text : List Char} (within : length ≤ text.length + 1) :
    closedAfter length (text ++ back) = closedAfter length text := by
  rw [closedAfter_eq, closedAfter_eq, List.drop_append]
  cases rest : text.drop length with
  | cons c more => rfl
  | nil =>
    have reached : text.length ≤ length := List.drop_eq_nil_iff.mp rest
    have noMark : (back.drop (length - text.length)).head? ≠ some '\'' := by
      intro isMark
      obtain ⟨more, behind⟩ := List.head?_eq_some_iff.mp isMark
      rcases Nat.le_succ_iff.mp within with inside | next
      · rw [Nat.sub_eq_zero_of_le inside, List.drop_zero] at behind
        exact stopping.head_ne behind '\'' (by decide) (by decide) rfl
      · have isSecond : length - text.length = 1 := by omega
        rw [isSecond] at behind
        cases same : back with
        | nil => simp [same] at behind
        | cons c after =>
          rw [same, List.drop_one, List.tail_cons] at behind
          exact stopping.second c '\'' more (by rw [same, behind]) rfl
    rw [List.nil_append, if_neg noMark]
    rfl

/-- The length of the rest of an escape in hexadecimal digits. -/
def unicodeRest? (text : List Char) : Option Nat :=
  match text with
  | 'u' :: rest =>
    if 4 ≤ (rest.takeWhile isHexDigit).length then closedAfter 5 text else none
  | _ => none

/-- The length of the rest of an escape in octal digits. -/
def octalRest? (text : List Char) : Option Nat :=
  let digits := ((text.take 3).takeWhile isOctalDigit).length
  if digits = 0 then none else closedAfter digits text

/-- The length of the rest of an escape of one character. -/
def singleRest? (text : List Char) : Option Nat :=
  match text with
  | c :: _ => if c = '\n' then none else closedAfter 1 text
  | [] => none

omit stopping in
theorem escapedRest_eq (text : List Char) :
    escapedRest? text = (unicodeRest? text <|> octalRest? text <|> singleRest? text) := rfl

theorem unicodeRest_stopping (text : List Char) :
    unicodeRest? (text ++ back) = unicodeRest? text := by
  have other {c : Char} (noMark : c ≠ 'u') (rest : List Char) :
      unicodeRest? (c :: rest) = none := by
    unfold unicodeRest?
    split
    · next same => exact absurd (List.cons.inj same).1 noMark
    · rfl
  cases text with
  | nil =>
    cases back with
    | nil => rfl
    | cons c rest => exact other (stopping.head_ne rfl 'u' (by decide) (by decide)) rest
  | cons c text =>
    by_cases isMark : c = 'u'
    · subst isMark
      have digits := (List.takeWhile_prefix isHexDigit (l := text)).length_le
      simp only [List.cons_append, unicodeRest?,
        takeWhile_stopping stopping (p := isHexDigit) (by decide) (by decide)]
      split
      · next four =>
        have within : 5 ≤ ('u' :: text).length + 1 := by
          rw [List.length_cons]
          omega
        exact closedAfter_stopping stopping within
      · rfl
    · rw [List.cons_append, other isMark, other isMark]

theorem octalRest_stopping (text : List Char) :
    octalRest? (text ++ back) = octalRest? text := by
  have ends : Ends isOctalDigit (back.take (3 - text.length)) := by
    intro c rest same
    obtain ⟨more, whole⟩ : [c] <+: back :=
      (same ▸ (List.cons_prefix_cons.mpr ⟨rfl, List.nil_prefix⟩ : [c] <+: c :: rest)).trans
        (List.take_prefix _ _)
    exact stopping.ends (by decide) (by decide) c more whole.symm
  have digits := ((List.takeWhile_prefix isOctalDigit (l := text.take 3)).length_le.trans
    (List.length_take_le' 3 text)).trans (Nat.le_succ text.length)
  simp only [octalRest?, List.take_append, takeWhile_before ends,
    closedAfter_stopping stopping digits]

theorem singleRest_stopping (text : List Char) :
    singleRest? (text ++ back) = singleRest? text := by
  cases text with
  | cons c text =>
    have inside := closedAfter_stopping stopping (Nat.le_add_left 1 (c :: text).length)
    rw [List.cons_append] at inside
    simp only [List.cons_append, singleRest?, inside]
  | nil =>
    cases back with
    | nil => rfl
    | cons c rest =>
      have inside := closedAfter_stopping stopping (Nat.le_add_left 1 ([] : List Char).length)
      rw [List.nil_append] at inside
      simp only [List.nil_append, singleRest?, inside]
      split <;> rfl

theorem escapedRest_stopping (text : List Char) :
    escapedRest? (text ++ back) = escapedRest? text := by
  rw [escapedRest_eq, escapedRest_eq, unicodeRest_stopping stopping, octalRest_stopping stopping,
    singleRest_stopping stopping]

theorem characterLength_stopping (text : List Char) :
    characterLength? (text ++ back) = characterLength? text := by
  cases text with
  | nil =>
    cases back with
    | nil => rfl
    | cons c rest =>
      exact characterLength_none (stopping.head_ne rfl '\'' (by decide) (by decide))
  | cons c text =>
    by_cases isMark : c = '\''
    · subst isMark
      cases text with
      | nil =>
        cases back with
        | nil => rfl
        | cons d rest =>
          have noEscape := stopping.head_ne rfl '\\' (by decide) (by decide)
          have inside := closedAfter_stopping stopping (Nat.le_add_left 1 ([] : List Char).length)
          rw [List.nil_append] at inside
          have open_ : closedAfter 1 [] = none := rfl
          unfold characterLength?
          split
          · next same => exact absurd (List.cons.inj (List.cons.inj same).2).1 noEscape
          · next same =>
            obtain ⟨rfl, rfl⟩ := List.cons.inj (List.cons.inj same).2
            rw [inside, open_]
            split <;> rfl
          · rfl
      | cons d text =>
        by_cases isEscape : d = '\\'
        · subst isEscape
          simp only [List.cons_append, characterLength?, escapedRest_stopping stopping]
        · have inside := closedAfter_stopping stopping (Nat.le_add_left 1 (d :: text).length)
          rw [List.cons_append] at inside
          have plain (more : List Char) : characterLength? ('\'' :: d :: more) =
              if d = '\'' || d = '\n' then none else (closedAfter 1 (d :: more)).map (· + 1) := by
            rw [characterLength?]
            exact isEscape
          rw [List.cons_append, List.cons_append, plain, plain, inside]
    · rw [List.cons_append, characterLength_none isMark, characterLength_none isMark]

theorem nameLength_stopping {text : List Char} (some : text ≠ []) :
    nameLength? (text ++ back) = nameLength? text := by
  obtain ⟨c, text, rfl⟩ := List.exists_cons_of_ne_nil some
  simp only [List.cons_append, nameLength?,
    takeWhile_stopping stopping (p := isNamePart) (by decide) (by decide)]

omit stopping in
/-- Behind its first character no symbol has a closing parenthesis or a semicolon. -/
theorem symbol_unclosed : ∀ symbol ∈ Symbol.all, ')' ∉ symbol.text.toList.tail ∧
    ';' ∉ symbol.text.toList.tail := by
  decide

theorem isPrefixOf_stopping {word : List Char} (h : ')' ∉ word ∧ ';' ∉ word) (text : List Char) :
    word.isPrefixOf (text ++ back) = word.isPrefixOf text := by
  induction word generalizing text with
  | nil => rfl
  | cons c word ih =>
    have others : ')' ∉ word ∧ ';' ∉ word :=
      ⟨fun isIn => h.1 (List.mem_cons_of_mem c isIn), fun isIn => h.2 (List.mem_cons_of_mem c isIn)⟩
    cases text with
    | cons d text => simp only [List.cons_append, List.isPrefixOf, ih others]
    | nil =>
      cases back with
      | nil => rfl
      | cons d rest =>
        have ne : d ≠ c := stopping.head_ne rfl c (fun same => h.1 (same ▸ List.mem_cons_self))
          fun same => h.2 (same ▸ List.mem_cons_self)
        simp [List.isPrefixOf, ne.symm]

theorem symbolAt_stopping {text : List Char} (some : text ≠ []) :
    symbolAt? (text ++ back) = symbolAt? text := by
  obtain ⟨c, text, rfl⟩ := List.exists_cons_of_ne_nil some
  unfold symbolAt?
  refine List.foldl_ext _ _ _ fun best symbol isIn => ?_
  have unclosed := symbol_unclosed symbol isIn
  have same : symbol.text.toList.isPrefixOf (c :: text ++ back) =
      symbol.text.toList.isPrefixOf (c :: text) := by
    cases spelled : symbol.text.toList with
    | nil => rfl
    | cons d word =>
      rw [spelled, List.tail_cons] at unclosed
      simp only [List.cons_append, List.isPrefixOf, isPrefixOf_stopping stopping unclosed]
  rw [same]

end Stopping

/-! ### Scanning in front of a text that stops -/

/-- What is found at the start of a text, given the length of a comment there. -/
def scanWith (comment : Option Nat) (text : List Char) : Option (Option Lexeme × Nat) :=
  let taken (kind : List Char → Lexeme) (length : Nat) :
      Option (Option Lexeme × Nat) :=
    some (some (kind (text.take length)), length)
  match floatingLength? text with
  | some length => taken .floating length
  | none =>
    match spaceLength? text <|> comment with
    | some length => some (none, length)
    | none =>
      match integerLength? text with
      | some length => taken .integer length
      | none =>
        match stringLength? text with
        | some length => taken .string length
        | none =>
          match characterLength? text with
          | some length => taken .character length
          | none =>
            match nameLength? text with
            | some length => taken wordLexeme length
            | none =>
              (symbolAt? text).map fun symbol =>
                (some (.symbol symbol), symbol.text.length)

theorem scan_eq (text : List Char) : scan text = scanWith (commentLength? text) text := rfl

theorem scan_stopping {back : List Char} (stopping : Stopping back) {text : List Char}
    (some : text ≠ []) (string : stringLength? (text ++ back) = stringLength? text) :
    scan (text ++ back) = scanWith (commentLength? (text ++ back)) text := by
  have taken {length : Nat} (le : length ≤ text.length) : (text ++ back).take length =
      text.take length := List.take_append_of_le_length le
  rw [scan_eq]
  unfold scanWith
  simp only [floatingLength_stopping stopping, spaceLength_stopping stopping,
    integerLength_stopping stopping, string, characterLength_stopping stopping,
    nameLength_stopping stopping some, symbolAt_stopping stopping some]
  split
  · next found => rw [taken (floatingLength_le found).2]
  · split
    · rfl
    · split
      · next found => rw [taken (integerLength_le found).2]
      · split
        · next found => rw [taken (stringLength_le found).2]
        · split
          · next found => rw [taken (characterLength_le found).2]
          · split
            · next found => rw [taken (nameLength_le found).2]
            · rfl

section Closings

variable {back : List Char} (closing : Closing back)

include closing

theorem Closing.stopping : Stopping back where
  first := by
    rintro c rest rfl
    exact closing c List.mem_cons_self
  second := by
    rintro c d rest rfl rfl
    have isLast := closing '\'' (List.mem_cons_of_mem c List.mem_cons_self)
    revert isLast
    decide

/-! ### Strings -/

theorem stringRest_none : stringRest? back = none := by
  induction back with
  | nil => rfl
  | cons c text ih =>
    have ne (d : Char) := closing.stopping.head_ne rfl d
    rw [stringRest_plain (ne '"' (by decide) (by decide)) (ne '\n' (by decide) (by decide))
      (ne '\\' (by decide) (by decide)), ih fun d isIn => closing d (List.mem_cons_of_mem c isIn)]
    rfl

theorem stringRest_closing (text : List Char) :
    stringRest? (text ++ back) = stringRest? text := by
  induction text using stringRest?.induct with
  | case1 text => rfl
  | case2 text => rfl
  | case3 text => rfl
  | case4 c text isEnd ih =>
    rw [List.cons_append, List.cons_append]
    simp only [stringRest?, isEnd, if_false, ih]
  | case5 =>
    cases back with
    | nil => rfl
    | cons c rest =>
      have noEnd := closing.stopping.head_ne rfl '\n' (by decide) (by decide)
      have none := stringRest_none fun d isIn => closing d (List.mem_cons_of_mem c isIn)
      simp [stringRest?, noEnd, none]
  | case6 c text noQuote noEnd noEscape noBackslash ih =>
    have plain := ne_backslash noEscape noBackslash
    rw [List.cons_append, stringRest_plain noQuote noEnd plain,
      stringRest_plain noQuote noEnd plain, ih]
  | case7 => exact stringRest_none closing

theorem stringLength_closing (text : List Char) :
    stringLength? (text ++ back) = stringLength? text := by
  cases text with
  | nil =>
    cases back with
    | nil => rfl
    | cons c rest =>
      exact stringLength_none (closing.stopping.head_ne rfl '"' (by decide) (by decide))
  | cons c text =>
    by_cases isQuote : c = '"'
    · subst isQuote
      simp only [List.cons_append, stringLength?, stringRest_closing closing]
    · rw [List.cons_append, stringLength_none isQuote, stringLength_none isQuote]

/-! ### Comments -/

omit closing in
theorem blockRest_cons {c : Char} {rest : List Char} (h : c = '*' → rest.head? ≠ some '/') :
    blockRest? (c :: rest) = (blockRest? rest).map (· + 1) := by
  rw [blockRest?.eq_2]
  rintro more rfl rfl
  exact h rfl rfl

theorem blockRest_none : blockRest? back = none := by
  induction back with
  | nil => rfl
  | cons c rest ih =>
    have noStar := closing.stopping.head_ne rfl '*' (by decide) (by decide)
    rw [blockRest_cons (fun isStar => absurd isStar noStar),
      ih fun d isIn => closing d (List.mem_cons_of_mem c isIn)]
    rfl

theorem blockRest_closing (text : List Char) : blockRest? (text ++ back) = blockRest? text := by
  have noSlash : back.head? ≠ some '/' := by
    intro isSlash
    obtain ⟨rest, same⟩ := List.head?_eq_some_iff.mp isSlash
    exact closing.stopping.head_ne same '/' (by decide) (by decide) rfl
  induction text with
  | nil => exact blockRest_none closing
  | cons c rest ih =>
    by_cases isEnd : c = '*' ∧ rest.head? = some '/'
    · obtain ⟨rfl, isSlash⟩ := isEnd
      obtain ⟨more, rfl⟩ := List.head?_eq_some_iff.mp isSlash
      rfl
    · have goesOn : c = '*' → rest.head? ≠ some '/' := fun isStar isSlash => isEnd ⟨isStar, isSlash⟩
      have goesOn' : c = '*' → (rest ++ back).head? ≠ some '/' := by
        intro isStar
        cases rest with
        | nil => exact noSlash
        | cons d rest => exact goesOn isStar
      rw [List.cons_append, blockRest_cons goesOn, blockRest_cons goesOn', ih]

omit closing in
theorem commentLength_other {c : Char} {rest : List Char} (noSlash : c ≠ '/') (noStar : c ≠ '*') :
    commentLength? ('/' :: c :: rest) = none := by
  unfold commentLength?
  split
  · next same => exact absurd (List.cons.inj (List.cons.inj same).2).1 noSlash
  · next same => exact absurd (List.cons.inj (List.cons.inj same).2).1 noStar
  · rfl

/-- Comments but those up to the end of a line end before what closes. -/
theorem commentLength_closing {text : List Char} (some : text ≠ [])
    (noLine : ∀ rest, text ≠ '/' :: '/' :: rest) :
    commentLength? (text ++ back) = commentLength? text := by
  obtain ⟨c, text, rfl⟩ := List.exists_cons_of_ne_nil some
  by_cases isSlash : c = '/'
  · subst isSlash
    cases text with
    | nil =>
      cases back with
      | nil => rfl
      | cons d rest =>
        have noSlash := closing.stopping.head_ne rfl '/' (by decide) (by decide)
        have noStar := closing.stopping.head_ne rfl '*' (by decide) (by decide)
        exact commentLength_other noSlash noStar
    | cons d text =>
      by_cases isStar : d = '*'
      · subst isStar
        simp only [List.cons_append, commentLength?, blockRest_closing closing]
      · have noSlash : d ≠ '/' := by
          rintro rfl
          exact noLine text rfl
        rw [List.cons_append, List.cons_append, commentLength_other noSlash isStar,
          commentLength_other noSlash isStar]
  · rw [List.cons_append, commentLength_none isSlash, commentLength_none isSlash]

/-- A comment up to the end of a line goes on into what closes if the line does. -/
theorem commentLength_line (text : List Char) :
    commentLength? ('/' :: '/' :: text ++ back) =
      if '\n' ∈ text then commentLength? ('/' :: '/' :: text)
      else some (('/' :: '/' :: text).length + back.length) := by
  have line : back.takeWhile (· != '\n') = back := by
    refine List.takeWhile_eq_self_iff.mpr fun c isIn => ?_
    rcases closing c isIn with rfl | rfl <;> rfl
  have alone : text.takeWhile (· != '\n') = text ↔ '\n' ∉ text := by
    rw [List.takeWhile_eq_self_iff]
    constructor
    · intro all isIn
      simpa using all '\n' isIn
    · intro absent c isIn
      rw [bne_iff_ne]
      rintro rfl
      exact absent isIn
  simp only [List.cons_append, commentLength?, List.takeWhile_append, line]
  by_cases ends : '\n' ∈ text
  · rw [if_pos ends, if_neg]
    intro same
    exact alone.mp ((List.takeWhile_prefix _).eq_of_length same) ends
  · rw [if_neg ends, if_pos (congrArg List.length (alone.mpr ends))]
    simp only [List.length_append, List.length_cons]
    congr 1
    omega

/-! ### Scanning -/

theorem scan_append {text : List Char} (some : text ≠ []) :
    scan (text ++ back) = scanWith (commentLength? (text ++ back)) text :=
  scan_stopping closing.stopping some (stringLength_closing closing text)

omit closing in
theorem scanWith_line (comment : Nat) (text : List Char) :
    scanWith (some comment) ('/' :: '/' :: text) = some (none, comment) := by
  unfold scanWith
  rw [floatingLength_none (by decide) (by simp), spaceLength_none (by decide)]
  rfl

/-- **What is found in front of a text that closes** is found in front of any other one, if it ends
before it. -/
theorem scan_closing {back' text : List Char} (closing' : Closing back') (some : text ≠ [])
    (some' : back ≠ []) {lexeme? : Option Lexeme} {length : Nat}
    (h : scan (text ++ back) = .some (lexeme?, length)) (within : length ≤ text.length) :
    scan (text ++ back') = .some (lexeme?, length) := by
  rw [scan_append closing some] at h
  rw [scan_append closing' some]
  by_cases isLine : ∃ rest, text = '/' :: '/' :: rest
  · obtain ⟨rest, rfl⟩ := isLine
    have positive := List.length_pos_of_ne_nil some'
    rw [commentLength_line closing] at h
    rw [commentLength_line closing']
    by_cases ends : '\n' ∈ rest
    · rwa [if_pos ends] at h ⊢
    · rw [if_neg ends, scanWith_line] at h
      cases h
      omega
  · have noLine : ∀ rest, text ≠ '/' :: '/' :: rest := fun rest same => isLine ⟨rest, same⟩
    rw [commentLength_closing closing some noLine] at h
    rwa [commentLength_closing closing' some noLine]

/-- What is found in front of a text that closes and goes on into it is a comment up to its end. -/
theorem scan_into {text : List Char} (some : text ≠ []) {lexeme? : Option Lexeme} {length : Nat}
    (h : scan (text ++ back) = .some (lexeme?, length)) (into : text.length < length) :
    lexeme? = none ∧ length = (text ++ back).length ∧ scan text = .some (none, text.length) := by
  rw [scan_append closing some] at h
  by_cases isLine : ∃ rest, text = '/' :: '/' :: rest
  · obtain ⟨rest, rfl⟩ := isLine
    rw [commentLength_line closing] at h
    have alone := @commentLength_line [] (List.forall_mem_nil _) rest
    rw [List.append_nil] at alone
    by_cases ends : '\n' ∈ rest
    · rw [if_pos ends, ← scan_eq] at h
      have le := (scan_finds h).length_le.2
      omega
    · rw [if_neg ends, scanWith_line] at h
      cases h
      rw [if_neg ends, List.length_nil, Nat.add_zero] at alone
      refine ⟨rfl, (List.length_append ..).symm, ?_⟩
      rw [scan_eq, alone, scanWith_line]
  · have noLine : ∀ rest, text ≠ '/' :: '/' :: rest := fun rest same => isLine ⟨rest, same⟩
    rw [commentLength_closing closing some noLine, ← scan_eq] at h
    have le := (scan_finds h).length_le.2
    omega

/-! ### Pieces in front of a text that closes -/

/-- Pieces in front of a text that closes are found in front of any other one. -/
theorem Scanned.before_closing {back' : List Char} (closing' : Closing back') (some : back ≠ [])
    {mid : List Char} {pieces : List Piece} (h : Scanned (mid ++ back) pieces) :
    Scanned (mid ++ back') pieces := by
  induction h with
  | nil => exact .nil
  | @cons piece rest some' found _ ih =>
    have nonempty : piece.text ++ (textOf rest ++ mid) ≠ [] :=
      fun none => some' (List.append_eq_nil_iff.mp none).1
    have within : piece.text.length ≤ (piece.text ++ (textOf rest ++ mid)).length := by simp
    rw [← List.append_assoc (textOf rest), ← List.append_assoc piece.text] at found
    have found' := scan_closing closing closing' nonempty some found within
    rw [List.append_assoc piece.text, List.append_assoc (textOf rest)] at found'
    exact .cons some' found' ih

omit closing in
theorem Scanned.textOf_some {piece : Piece} {rest : List Piece} {later : List Char}
    (h : Scanned later (piece :: rest)) : textOf (piece :: rest) ≠ [] := by
  cases h with
  | cons some _ _ => exact fun none => some (List.append_eq_nil_iff.mp none).1

/-- Pieces of a text with one behind it that closes: a piece ends where the closing text begins,
or the last piece is a comment that runs over it. -/
theorem Scanned.seam (some : back ≠ []) {text : List Char} {pieces : List Piece}
    (h : Scanned [] pieces) (same : textOf pieces = text ++ back) :
    (∃ front later, pieces = front ++ later ∧ textOf front = text ∧ textOf later = back) ∨
    ∃ front comment, pieces = front ++ [⟨comment ++ back, none⟩] ∧ text = textOf front ++ comment ∧
      Scanned [] (front ++ [⟨comment, none⟩]) := by
  obtain ⟨front, piece, after, inner, rfl, rfl, within⟩ := exists_piece some same
  rw [textOf_append, List.append_assoc] at same
  have rest := List.append_cancel_left same
  obtain ⟨before, last⟩ := h.split
  cases inner with
  | nil => exact .inl ⟨front, piece :: after, rfl, (List.append_nil _).symm, rest⟩
  | cons c inner =>
    right
    have nonempty := List.cons_ne_nil c inner
    cases last with
    | cons _ found others =>
      rw [List.append_nil, ← textOf_cons, rest] at found
      obtain ⟨isNone, isWhole, alone⟩ := scan_into closing nonempty found within
      -- The comment takes the whole rest of the text, so that no piece stands behind it.
      have length := congrArg List.length rest
      rw [← isWhole, textOf_cons, List.length_append, Nat.add_eq_left,
        List.length_eq_zero_iff] at length
      cases after with
      | cons next after => exact absurd length others.textOf_some
      | nil =>
        obtain ⟨spelling, lexeme?⟩ := piece
        obtain rfl : lexeme? = none := isNone
        obtain rfl : spelling = c :: inner ++ back := by simpa using rest
        refine ⟨front, c :: inner, rfl, rfl, ?_⟩
        have comment : Scanned [] [⟨c :: inner, none⟩] := .cons nonempty (by simpa using alone) .nil
        rw [textOf_cons, textOf_nil, List.append_nil, List.append_nil] at before
        have none : Closing [] := List.forall_mem_nil _
        have kept := before.before_closing closing none some
        exact Scanned.append (by simpa using kept) comment

omit closing in
theorem placed_unread (p : Position) (front : List Piece) (comment : List Char) :
    placed p (front ++ [⟨comment, none⟩]) = placed p front := by
  rw [placed_append]
  exact List.append_nil _

/-- **The tokens of a text with one behind it that closes** are its own and behind them those of
the closing text, unless a comment runs over the latter. -/
theorem tokensFrom_closing {text : List Char} {p : Position} {tokens : List Token}
    (h : tokensFrom 0 p (text ++ back) = .ok tokens) :
    ∃ own, tokensFrom 0 p text = .ok own ∧
      (tokens = own ∨ ∀ back', Closing back' → tokensFrom 0 p (text ++ back') =
        (tokensFrom 0 (behind p text) back').map (own ++ ·)) := by
  by_cases some : back = []
  · subst some
    rw [List.append_nil] at h
    exact ⟨tokens, h, .inl rfl⟩
  · obtain ⟨pieces, same, scanned, rfl⟩ := scanned_of_tokens h
    rcases scanned.seam closing some same.symm with
      ⟨front, later, rfl, rfl, rfl⟩ | ⟨front, comment, rfl, rfl, alone⟩
    · have before : Scanned ([] ++ textOf later) front := by simpa using scanned.split.1
      refine ⟨placed p front, ?_, .inr fun back' closing' => ?_⟩
      · refine tokens_of_scanned ?_ p
        exact before.before_closing closing (List.forall_mem_nil _) some
      · exact tokensFrom_scanned (before.before_closing closing closing' some) p
    · refine ⟨placed p front, ?_, .inl (placed_unread p front _)⟩
      have read := tokens_of_scanned alone p
      rwa [textOf_append, textOf_cons, textOf_nil, List.append_nil, placed_unread] at read

end Closings

end Formulary.Lexer
