/-
Where lexemes end.

A lexeme is found as it is written if nothing behind it prolongs it: a word ends in front of what
is no part of a name, a numeral in front of what is neither that nor a digit nor a point, and a
symbol at the latest in front of a blank.

* `scan_word`, `scan_numeral`, `scan_string`, `scan_symbol` — one lexeme and any text behind it.
* `tokensFrom_lexeme`, `tokensFrom_blank` — what the lexeme or a blank leaves to be cut.
* `tokensFrom_cut` — a text that falls into lexemes is cut into them.
-/

import Formulary.Syntax.Lexer
import Mathlib

namespace Formulary.Lexer

/-! ### Characters -/

/-- Of the first characters, those from `0` to `9` are the digits. -/
theorem isDecimal_ascii {code : Nat} (h : code < 128) :
    Text.isDecimal code = (48 ≤ code && code ≤ 57) := by
  revert code
  decide

theorem le_iff_toNat (c d : Char) : c ≤ d ↔ c.toNat ≤ d.toNat :=
  Iff.rfl

theorem isNameStart_code {c : Char} (h : isNameStart c = true) :
    c.toNat < 128 ∧ (c.toNat < 48 ∨ 57 < c.toNat) := by
  simp only [isNameStart, Bool.or_eq_true, Bool.and_eq_true, decide_eq_true_eq, le_iff_toNat] at h
  rcases h with ((⟨low, high⟩ | ⟨low, high⟩) | rfl) | rfl
  · simp only [Char.reduceToNat] at low high
    omega
  · simp only [Char.reduceToNat] at low high
    omega
  · decide
  · decide

theorem isNameStart_not_digit {c : Char} (h : isNameStart c = true) : isDigit c = false := by
  obtain ⟨ascii, outside⟩ := isNameStart_code h
  rw [isDigit, isDecimal_ascii ascii]
  simp only [Bool.and_eq_false_iff, decide_eq_false_iff_not]
  omega

theorem isNameStart_ne {c d : Char} (h : isNameStart c = true) (other : isNameStart d = false) :
    c ≠ d := by
  rintro rfl
  rw [h] at other
  cases other

theorem isSpace_cases {c : Char} (h : isSpace c = true) :
    c = ' ' ∨ c = '\t' ∨ c = '\x0c' ∨ c = '\r' ∨ c = '\n' := by
  simpa [isSpace, or_assoc] using h

/-- A class without the five blanks has no blank. -/
theorem not_space {p : Char → Bool}
    (none : [' ', '\t', '\x0c', '\r', '\n'].all (fun c => !p c) = true) {c : Char}
    (isIn : p c = true) : isSpace c = false := by
  refine Bool.eq_false_iff.mpr fun isBlank => ?_
  have absent : (!p c) = true := by
    refine List.all_eq_true.mp none c ?_
    rcases isSpace_cases isBlank with rfl | rfl | rfl | rfl | rfl <;> decide
  rw [isIn] at absent
  cases absent

theorem isNameStart_not_space {c : Char} (h : isNameStart c = true) : isSpace c = false :=
  not_space (by decide) h

theorem isSpace_no_numeral {c : Char} (h : isSpace c = true) : isDigit c = false ∧ c ≠ '.' := by
  rcases isSpace_cases h with rfl | rfl | rfl | rfl | rfl <;> decide

/-- The characters that would prolong a numeral. -/
def prolongsNumeral (c : Char) : Bool :=
  isNamePart c || isDigit c || c = '.'

/-- Whether a text does not begin with a character of a class. -/
def Ends (prolongs : Char → Bool) (text : List Char) : Prop :=
  ∀ c rest, text = c :: rest → prolongs c = false

theorem ends_nil {prolongs : Char → Bool} : Ends prolongs [] :=
  fun _ _ same => nomatch same

theorem ends_cons {prolongs : Char → Bool} {c : Char} {rest : List Char}
    (h : prolongs c = false) : Ends prolongs (c :: rest) := by
  rintro _ _ ⟨⟩
  exact h

/-- Characters of a class are taken up to where the class ends. -/
theorem takeWhile_ends {prolongs : Char → Bool} {front back : List Char}
    (h : ∀ c ∈ front, prolongs c = true) (ends : Ends prolongs back) :
    (front ++ back).takeWhile prolongs = front := by
  induction front with
  | nil =>
    cases back with
    | nil => rfl
    | cons c back => simp [ends c back rfl]
  | cons c front ih =>
    have others := ih fun d isIn => h d (List.mem_cons_of_mem c isIn)
    simp [h c List.mem_cons_self, others]

/-! ### Words -/

theorem floatingLength_none {c : Char} {rest : List Char} (noDigit : isDigit c = false)
    (noPoint : c = '.' → digitsLength rest = 0) : floatingLength? (c :: rest) = none := by
  have whole : digitsLength (c :: rest) = 0 := by simp [digitsLength, noDigit]
  unfold floatingLength?
  simp only [whole, List.drop_zero, decide_true, Bool.true_and]
  by_cases isPoint : c = '.'
  · subst isPoint
    simp [noPoint rfl]
  · split
    · next same =>
      exact absurd (List.cons.inj same).1 isPoint
    · simp

theorem integerLength_none {c : Char} {rest : List Char} (noDigit : isDigit c = false) :
    integerLength? (c :: rest) = none := by
  have noZero : c ≠ '0' := by
    rintro rfl
    revert noDigit
    decide
  have whole : digitsLength (c :: rest) = 0 := by simp [digitsLength, noDigit]
  unfold integerLength?
  split
  · next same => exact absurd (List.cons.inj same).1 noZero
  · simp [whole]

theorem spaceLength_none {c : Char} {rest : List Char} (noSpace : isSpace c = false) :
    spaceLength? (c :: rest) = none := by
  simp [spaceLength?, noSpace]

/-- Blanks are taken up to where they end. -/
theorem scan_space {c : Char} (isBlank : isSpace c = true) (rest : List Char) :
    scan (c :: rest) = some (none, (rest.takeWhile isSpace).length + 1) := by
  obtain ⟨noDigit, noPoint⟩ := isSpace_no_numeral isBlank
  unfold scan
  rw [floatingLength_none noDigit fun isPoint => absurd isPoint noPoint, spaceLength?,
    List.takeWhile_cons_of_pos isBlank]
  rfl

/-- What does not begin like a number, a blank or a comment is a text, a word or a symbol. -/
theorem scan_other {c : Char} {rest : List Char} (noDigit : isDigit c = false)
    (noPoint : c = '.' → digitsLength rest = 0) (noSpace : isSpace c = false)
    (noComment : commentLength? (c :: rest) = none) :
    scan (c :: rest) =
      match stringLength? (c :: rest) with
      | some length => some (some (.string ((c :: rest).take length)), length)
      | none =>
        match characterLength? (c :: rest) with
        | some length => some (some (.character ((c :: rest).take length)), length)
        | none =>
          match nameLength? (c :: rest) with
          | some length => some (some (wordLexeme ((c :: rest).take length)), length)
          | none => (symbolAt? (c :: rest)).map fun symbol =>
            (some (.symbol symbol), symbol.text.length) := by
  unfold scan
  rw [floatingLength_none noDigit noPoint, integerLength_none noDigit, spaceLength_none noSpace,
    noComment]
  rfl

theorem stringLength_none {c : Char} {rest : List Char} (h : c ≠ '"') :
    stringLength? (c :: rest) = none := by
  unfold stringLength?
  split
  · next same => exact absurd (List.cons.inj same).1 h
  · rfl

theorem characterLength_none {c : Char} {rest : List Char} (h : c ≠ '\'') :
    characterLength? (c :: rest) = none := by
  unfold characterLength?
  split
  · next same => exact absurd (List.cons.inj same).1 h
  · next same => exact absurd (List.cons.inj same).1 h
  · rfl

theorem commentLength_none {c : Char} {rest : List Char} (h : c ≠ '/') :
    commentLength? (c :: rest) = none := by
  unfold commentLength?
  split
  · next same => exact absurd (List.cons.inj same).1 h
  · next same => exact absurd (List.cons.inj same).1 h
  · rfl

/-- Letters in front of what is no part of a name are a word. -/
theorem scan_word {first : Char} {word rest : List Char} (begins : isNameStart first = true)
    (h : ∀ c ∈ word, isNamePart c = true) (ends : Ends isNamePart rest) :
    scan (first :: word ++ rest) = some (some (wordLexeme (first :: word)), word.length + 1) := by
  have length : nameLength? (first :: (word ++ rest)) = some (word.length + 1) := by
    rw [nameLength?, if_pos begins, takeWhile_ends h ends]
  rw [List.cons_append, scan_other (isNameStart_not_digit begins)
    (fun isPoint => absurd isPoint (isNameStart_ne begins (by decide)))
    (isNameStart_not_space begins) (commentLength_none (isNameStart_ne begins (by decide))),
    stringLength_none (isNameStart_ne begins (by decide)),
    characterLength_none (isNameStart_ne begins (by decide)), length]
  simp

/-! ### Numerals -/

theorem exponentLength_ends {text : List Char} (h : Ends isNamePart text) :
    exponentLength text = 0 := by
  cases text with
  | nil => rfl
  | cons c rest =>
    have noPart := h c rest rfl
    have noLetter {letter : Char} (isPart : isNamePart letter = true) : c ≠ letter := by
      rintro rfl
      rw [noPart] at isPart
      cases isPart
    simp [exponentLength, noLetter (by decide : isNamePart 'e' = true),
      noLetter (by decide : isNamePart 'E' = true)]

theorem oneOf_ends {letters text : List Char} (isPart : letters.all isNamePart = true)
    (h : Ends isNamePart text) : oneOf letters text = 0 := by
  cases text with
  | nil => rfl
  | cons c rest =>
    have noLetter : c ∉ letters := by
      intro isIn
      have noPart := h c rest rfl
      rw [List.all_eq_true.mp isPart c isIn] at noPart
      cases noPart
    simp [oneOf, noLetter]

/-- What may stand behind the digits of a numeral. -/
def numeralSuffixes : List (List Char) := [[], ['l'], ['L']]

theorem prolongs_ends {text : List Char} (h : Ends prolongsNumeral text) :
    Ends isNamePart text ∧ Ends isDigit text ∧ Ends (· = '.') text := by
  have parts (c : Char) (rest : List Char) (same : text = c :: rest) := h c rest same
  simp only [prolongsNumeral, Bool.or_eq_false_iff] at parts
  exact ⟨fun c rest same => (parts c rest same).1.1, fun c rest same => (parts c rest same).1.2,
    fun c rest same => (parts c rest same).2⟩

theorem floatingLength_numeral {digits after : List Char} (h : ∀ c ∈ digits, isDigit c = true)
    (noDigit : Ends isDigit after) (noPoint : Ends (· = '.') after)
    (noExponent : exponentLength after = 0) (noSuffix : floatingSuffix after = 0) :
    floatingLength? (digits ++ after) = none := by
  have whole : digitsLength (digits ++ after) = digits.length := by
    rw [digitsLength, takeWhile_ends h noDigit]
  unfold floatingLength?
  simp only [whole, List.drop_left]
  split
  · next rest =>
    have isPoint := noPoint '.' rest rfl
    simp at isPoint
  · simp [noExponent, noSuffix]

theorem integerLength_numeral {digits after : List Char} (some : digits ≠ [])
    (h : ∀ c ∈ digits, isDigit c = true) (noDigit : Ends isDigit after)
    (noHex : ∀ x rest, after = x :: rest → x ≠ 'x' ∧ x ≠ 'X') :
    integerLength? (digits ++ after) = .some (digits.length + integerSuffix after) := by
  have whole : digitsLength (digits ++ after) = digits.length := by
    rw [digitsLength, takeWhile_ends h noDigit]
  have long : digits.length ≠ 0 := fun none => some (List.length_eq_zero_iff.mp none)
  unfold integerLength?
  split
  · next x rest same =>
    -- Behind the first digit stands another one or what ends the numeral.
    have noHex : ¬(x = 'x' ∨ x = 'X') := by
      cases digits with
      | nil => exact absurd rfl some
      | cons first digits =>
        have behind : digits ++ after = x :: rest := (List.cons.inj same).2
        cases digits with
        | nil =>
          obtain ⟨lower, upper⟩ := noHex x rest behind
          exact fun isHex => isHex.elim lower upper
        | cons second digits =>
          obtain rfl : second = x := (List.cons.inj behind).1
          have isDigit := h second (by simp)
          rintro (rfl | rfl)
          · revert isDigit
            decide
          · revert isDigit
            decide
    simp [noHex, whole, long]
  · simp [whole, long]

/-- What begins with a digit and is no floating number is an integer as far as one goes. -/
theorem scan_integer {first : Char} {others rest : List Char} (begins : isDigit first = true)
    (floating : floatingLength? (first :: others ++ rest) = none)
    (length : integerLength? (first :: others ++ rest) = .some (first :: others).length) :
    scan (first :: others ++ rest) =
      .some (.some (.integer (first :: others)), (first :: others).length) := by
  have noSpace : isSpace first = false := not_space (by decide) begins
  have noComment : first ≠ '/' := by
    rintro rfl
    revert begins
    decide
  unfold scan
  rw [floating, length, List.cons_append, spaceLength_none noSpace, commentLength_none noComment,
    ← List.cons_append]
  exact congrArg (fun text => Option.some (Option.some (Lexeme.integer text), _)) List.take_left

/-- Digits, with the suffix of a long number or without one, are an integer. -/
theorem scan_numeral {digits suffix rest : List Char} (some : digits ≠ [])
    (h : ∀ c ∈ digits, isDigit c = true) (isSuffix : suffix ∈ numeralSuffixes)
    (ends : Ends prolongsNumeral rest) :
    scan (digits ++ suffix ++ rest) =
      .some (.some (.integer (digits ++ suffix)), (digits ++ suffix).length) := by
  obtain ⟨noPart, noDigit, noPoint⟩ := prolongs_ends ends
  have noExponent := exponentLength_ends noPart
  have noSuffix : floatingSuffix rest = 0 := oneOf_ends (by decide) noPart
  have noLong : integerSuffix rest = 0 := oneOf_ends (by decide) noPart
  have noHex (x : Char) (more : List Char) (same : rest = x :: more) : x ≠ 'x' ∧ x ≠ 'X' := by
    have apart := noPart x more same
    constructor
    · rintro rfl
      revert apart
      decide
    · rintro rfl
      revert apart
      decide
  simp only [numeralSuffixes, List.mem_cons, List.not_mem_nil, or_false] at isSuffix
  have floating : floatingLength? (digits ++ (suffix ++ rest)) = none := by
    rcases isSuffix with rfl | rfl | rfl
    · exact floatingLength_numeral h noDigit noPoint noExponent noSuffix
    · exact floatingLength_numeral h (ends_cons (by decide)) (ends_cons (by decide)) rfl rfl
    · exact floatingLength_numeral h (ends_cons (by decide)) (ends_cons (by decide)) rfl rfl
  have length : integerLength? (digits ++ (suffix ++ rest)) =
      .some (digits ++ suffix).length := by
    rw [List.length_append]
    rcases isSuffix with rfl | rfl | rfl
    · rw [List.nil_append, integerLength_numeral some h noDigit noHex, noLong]
      rfl
    · exact integerLength_numeral some h (ends_cons (by decide)) (by simp)
    · exact integerLength_numeral some h (ends_cons (by decide)) (by simp)
  obtain ⟨first, digits, rfl⟩ := List.exists_cons_of_ne_nil some
  rw [← List.append_assoc] at floating length
  exact scan_integer (h first List.mem_cons_self) floating length

/-! ### Texts in quotes -/

/-- A character that neither ends a text in quotes nor escapes another one belongs to the text. -/
theorem stringRest_plain {c : Char} (noQuote : c ≠ '"') (noEnd : c ≠ '\n') (noEscape : c ≠ '\\')
    (rest : List Char) : stringRest? (c :: rest) = (stringRest? rest).map (· + 1) :=
  stringRest?.eq_5 c rest noQuote noEnd (fun _ _ same => absurd same noEscape)
    fun same => absurd same noEscape

/-- What is a backslash neither in front of a character nor at the end is none. -/
theorem ne_backslash {c : Char} {text : List Char}
    (noEscape : ∀ d rest, c = '\\' → text = d :: rest → False)
    (noBackslash : c = '\\' → text = [] → False) : c ≠ '\\' := by
  intro same
  cases text with
  | nil => exact noBackslash same rfl
  | cons d rest => exact noEscape d rest same rfl

theorem stringRest_append {text rest : List Char} {length : Nat}
    (h : stringRest? text = some length) : stringRest? (text ++ rest) = some length := by
  induction text using stringRest?.induct generalizing length with
  | case1 text => exact h
  | case2 text => simp [stringRest?] at h
  | case3 text => simp [stringRest?] at h
  | case4 c text isEnd ih =>
    simp only [stringRest?, isEnd, if_false] at h
    obtain ⟨length, isLength, rfl⟩ := Option.map_eq_some_iff.mp h
    simp [stringRest?, isEnd, ih isLength]
  | case5 => simp [stringRest?] at h
  | case6 c text noQuote noEnd noEscape noBackslash ih =>
    have plain := ne_backslash noEscape noBackslash
    rw [stringRest_plain noQuote noEnd plain] at h
    obtain ⟨length, isLength, rfl⟩ := Option.map_eq_some_iff.mp h
    rw [List.cons_append, stringRest_plain noQuote noEnd plain, ih isLength]
    rfl
  | case7 => simp [stringRest?] at h

theorem stringLength_append {text : List Char} {length : Nat}
    (h : stringLength? text = some length) (rest : List Char) :
    stringLength? (text ++ rest) = some length := by
  unfold stringLength? at h
  split at h
  · obtain ⟨length, isLength, rfl⟩ := Option.map_eq_some_iff.mp h
    simp [stringLength?, stringRest_append isLength]
  · cases h

/-- A closed text in quotes is a string. -/
theorem scan_string {spelling rest : List Char}
    (h : stringLength? spelling = some spelling.length) :
    scan (spelling ++ rest) = some (some (.string spelling), spelling.length) := by
  have length := stringLength_append h rest
  cases spelling with
  | nil => cases h
  | cons c spelling =>
    have isQuote : c = '"' := by
      by_contra other
      rw [stringLength_none other] at h
      cases h
    subst isQuote
    rw [List.cons_append] at length ⊢
    rw [scan_other (by decide) (by simp) (by decide) (commentLength_none (by decide)), length]
    simp

/-! ### Symbols -/

/-- No symbol has a blank in it. -/
theorem symbol_unbroken : ∀ symbol ∈ Symbol.all, ' ' ∉ symbol.text.toList := by
  decide +kernel

/-- What stands behind a blank does not tell whether a text without blanks stands in front. -/
theorem isPrefixOf_blank {word : List Char} (h : ' ' ∉ word) (text rest rest' : List Char) :
    word.isPrefixOf (text ++ ' ' :: rest) = word.isPrefixOf (text ++ ' ' :: rest') := by
  induction text generalizing word with
  | nil =>
    cases word with
    | nil => rfl
    | cons c word =>
      have apart : (c == ' ') = false := by
        rw [beq_eq_false_iff_ne]
        rintro rfl
        exact h List.mem_cons_self
      simp [List.isPrefixOf, apart]
  | cons d text ih =>
    cases word with
    | nil => rfl
    | cons c word =>
      simp only [List.cons_append, List.isPrefixOf]
      rw [ih fun isIn => h (List.mem_cons_of_mem c isIn)]

theorem symbolAt_blank (text rest rest' : List Char) :
    symbolAt? (text ++ ' ' :: rest) = symbolAt? (text ++ ' ' :: rest') := by
  unfold symbolAt?
  refine List.foldl_ext _ _ _ fun best symbol isIn => ?_
  rw [isPrefixOf_blank (symbol_unbroken symbol isIn) text rest rest']

/-- Whether a text begins like a symbol and like nothing else, with a blank behind it. -/
def beginsSymbol : List Char → Bool
  | [] => false
  | c :: rest =>
    !isDigit c && !isSpace c && !isNameStart c && c != '"' && c != '\'' &&
      (c != '.' || rest.isEmpty) && (c != '/' || rest.isEmpty || rest == ['='])

theorem scan_beginsSymbol {text rest : List Char} (h : beginsSymbol text = true) :
    scan (text ++ ' ' :: rest) =
      (symbolAt? (text ++ ' ' :: rest)).map fun symbol =>
        (some (.symbol symbol), symbol.text.length) := by
  cases text with
  | nil => cases h
  | cons c text =>
    simp only [beginsSymbol, Bool.and_eq_true, Bool.not_eq_true', bne_iff_ne, Bool.or_eq_true,
      beq_iff_eq, List.isEmpty_iff] at h
    obtain ⟨⟨⟨⟨⟨⟨noDigit, noSpace⟩, noName⟩, noQuote⟩, noMark⟩, point⟩, slash⟩ := h
    have noComment : commentLength? (c :: (text ++ ' ' :: rest)) = none := by
      by_cases isSlash : c = '/'
      · subst isSlash
        rcases slash with (other | rfl) | rfl
        · exact absurd rfl other
        · rfl
        · rfl
      · exact commentLength_none isSlash
    have noPoint : c = '.' → digitsLength (text ++ ' ' :: rest) = 0 := by
      rintro rfl
      obtain rfl : text = [] := point.resolve_left fun other => other rfl
      rfl
    rw [List.cons_append, scan_other noDigit noPoint noSpace noComment, stringLength_none noQuote,
      characterLength_none noMark]
    simp [nameLength?, noName]

/-- A symbol in front of a blank is found whole. -/
theorem scan_symbol {symbol : Symbol} (h : symbol ∈ Symbol.all) (rest : List Char) :
    scan (symbol.text.toList ++ ' ' :: rest) =
      some (some (.symbol symbol), symbol.text.toList.length) := by
  have begins : ∀ symbol ∈ Symbol.all, beginsSymbol symbol.text.toList = true := by
    decide +kernel
  have found : ∀ symbol ∈ Symbol.all, symbolAt? (symbol.text.toList ++ [' ']) = some symbol := by
    decide +kernel
  rw [scan_beginsSymbol (begins symbol h), symbolAt_blank _ rest [], found symbol h,
    String.length_toList]
  rfl

/-! ### Texts -/

/-- The position behind a text. -/
def behind (p : Position) (text : List Char) : Position :=
  text.foldl Position.advance p

theorem tokensFrom_skip (text rest : List Char) (p : Position) :
    tokensFrom text.length p (text ++ rest) = tokensFrom 0 (behind p text) rest := by
  induction text generalizing p with
  | nil => rfl
  | cons c text ih => exact ih (p.advance c)

/-- A lexeme that is found whole is the first token. -/
theorem tokensFrom_lexeme {lexeme : Lexeme} {text rest : List Char} (some : text ≠ [])
    (h : scan (text ++ rest) = .some (.some lexeme, text.length)) (p : Position) :
    tokensFrom 0 p (text ++ rest) =
      (tokensFrom 0 (behind p text) rest).map (⟨lexeme, p⟩ :: ·) := by
  cases text with
  | nil => exact absurd rfl some
  | cons c text =>
    rw [List.cons_append] at h ⊢
    rw [tokensFrom, h]
    simp only [List.length_cons, Nat.add_sub_cancel]
    rw [tokensFrom_skip]
    rfl

/-- A single blank gives no token. -/
theorem tokensFrom_blank {rest : List Char} (h : Ends isSpace rest) (p : Position) :
    tokensFrom 0 p (' ' :: rest) = tokensFrom 0 (p.advance ' ') rest := by
  have length : spaceLength? (' ' :: rest) = some 1 := by
    have one : ([' '] ++ rest).takeWhile isSpace = [' '] :=
      takeWhile_ends (List.all_eq_true.mp (by decide)) h
    rw [List.singleton_append] at one
    simp [spaceLength?, one]
  have found : scan (' ' :: rest) = some (none, 1) := by
    unfold scan
    rw [floatingLength_none (by decide) (by simp), length]
    rfl
  rw [tokensFrom, found]

/-- Texts that fall into lexemes: each is found whole in front of what follows it, and there may
be single blanks. -/
inductive Cut : List Lexeme → List Char → Prop
  | nil : Cut [] []
  | lexeme {lexeme : Lexeme} {more : List Lexeme} {rest : List Char} :
      lexeme.chars ≠ [] →
      scan (lexeme.chars ++ rest) = some (some lexeme, lexeme.chars.length) →
      Cut more rest → Cut (lexeme :: more) (lexeme.chars ++ rest)
  | blank {lexemes : List Lexeme} {rest : List Char} :
      Ends isSpace rest → Cut lexemes rest → Cut lexemes (' ' :: rest)

/-- The lexemes that a text falls into are its tokens. -/
theorem tokensFrom_cut {lexemes : List Lexeme} {text : List Char} (h : Cut lexemes text)
    (p : Position) :
    ∃ tokens, tokensFrom 0 p text = .ok tokens ∧ tokens.map Token.lexeme = lexemes := by
  induction h generalizing p with
  | nil => exact ⟨[], tokensFrom.eq_1 _ _, rfl⟩
  | lexeme some found _ ih =>
    obtain ⟨tokens, cut, same⟩ := ih (behind p _)
    rw [tokensFrom_lexeme some found, cut]
    exact ⟨_, rfl, by rw [List.map_cons, same]⟩
  | blank noSpace _ ih =>
    rw [tokensFrom_blank noSpace]
    exact ih (p.advance ' ')

end Formulary.Lexer
