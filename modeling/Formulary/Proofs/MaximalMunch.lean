/-
What a blank behind a text leaves alone.

The lexer takes what is longest. If that ends within the front of a text, it is the longest one of
the front as well, and since neither a numeral nor a word nor a symbol has a blank in it, it stays
the longest one when a blank follows the front. Strings, characters and block comments close
themselves and are found in front of anything.

* `Munch` — measures of which a front keeps what ends within it, and which stop at blanks.
* `floating_munch`, `integer_munch`, `name_munch`, `symbol_munch` — numerals, names and symbols.
* `solid_munch`, `scan_solid` — the four of them as the lexer tries them.
* `characterLength_elsewhere`, `commentLength_elsewhere` — what closes itself.
* `scan_blank` — what is found in front of a text is found in front of a blank.
-/

import Formulary.Proofs.FilledTokens
import Formulary.Proofs.LiteralValues

namespace Formulary.Lexer

open Literal (CharacterSpelling)
open Slots (scan_comment scan_quote symbolAt_none)

/-! ### Measures that stop at blanks -/

/-- A measure that takes what is longest and has no blank in it. -/
structure Munch {α : Type} (measure : List Char → Option α) (size : α → Nat) : Prop where
  /-- What ends within the front of a text is found in the front. -/
  cut : ∀ {front back : List Char} {found : α}, measure (front ++ back) = some found →
    size found ≤ front.length → measure front = some found
  cut_none : ∀ {front back : List Char}, measure (front ++ back) = none → measure front = none
  solid : ∀ {text : List Char} {found : α}, measure text = some found →
    ∀ c ∈ text.take (size found), isSpace c = false

/-- In front of a blank a text is measured as if nothing stood behind it. -/
theorem Munch.blank {α : Type} {measure : List Char → Option α} {size : α → Nat}
    (munch : Munch measure size) {b : Char} (isBlank : isSpace b = true)
    (front rest : List Char) : measure (front ++ b :: rest) = measure front := by
  cases taken : measure (front ++ b :: rest) with
  | none => exact (munch.cut_none taken).symm
  | some found =>
    have within : size found ≤ front.length := by
      by_contra longer
      have isIn : b ∈ (front ++ b :: rest).take (size found) := by
        rw [List.take_append, List.mem_append]
        right
        obtain ⟨n, isSucc⟩ := Nat.exists_eq_succ_of_ne_zero
          (Nat.sub_ne_zero_of_lt (Nat.not_le.mp longer))
        rw [isSucc, List.take_succ_cons]
        exact List.mem_cons_self
      rw [munch.solid taken b isIn] at isBlank
      cases isBlank
    exact (munch.cut taken within).symm

/-! ### Numerals -/

theorem takeWhile_cut {p : Char → Bool} {front back : List Char}
    (within : ((front ++ back).takeWhile p).length ≤ front.length) :
    (front ++ back).takeWhile p = front.takeWhile p := by
  rw [List.takeWhile_append] at within ⊢
  split
  · next all =>
    rw [if_pos all, List.length_append] at within
    have none : back.takeWhile p = [] := List.length_eq_zero_iff.mp (by omega)
    rw [none, List.append_nil]
    exact (List.takeWhile_prefix p).eq_of_length all |>.symm
  · rfl

theorem digitsLength_cut {front back : List Char}
    (within : digitsLength (front ++ back) ≤ front.length) :
    digitsLength front = digitsLength (front ++ back) :=
  congrArg List.length (takeWhile_cut within).symm

theorem oneOf_cut {letters front back : List Char}
    (within : oneOf letters (front ++ back) ≤ front.length) :
    oneOf letters front = oneOf letters (front ++ back) := by
  cases front with
  | nil => exact (Nat.le_zero.mp within).symm
  | cons c front => rfl

theorem exponentLength_cut {front back : List Char}
    (within : exponentLength (front ++ back) ≤ front.length) :
    exponentLength front = exponentLength (front ++ back) := by
  cases front with
  | nil => exact (Nat.le_zero.mp within).symm
  | cons letter rest =>
    rw [List.cons_append, exponentLength_cons] at within
    rw [List.cons_append, exponentLength_cons, exponentLength_cons]
    by_cases isLetter : (letter = 'e' || letter = 'E') = true
    · rw [if_pos isLetter] at within
      rw [if_pos isLetter, if_pos isLetter]
      cases rest with
      | nil =>
        -- An exponent has a digit, which the letter alone has no room for.
        rw [List.nil_append, List.length_singleton] at *
        by_cases none : digitsLength (back.drop (signLength back)) = 0
        · rw [if_pos none]
          rfl
        · rw [if_neg none] at within
          omega
      | cons c rest =>
        have sign : signLength (c :: rest ++ back) = signLength (c :: rest) := rfl
        have short := signLength_le (c :: rest)
        rw [sign, List.drop_append_of_le_length short] at within ⊢
        have digits : digitsLength ((c :: rest).drop (signLength (c :: rest)) ++ back) ≤
            ((c :: rest).drop (signLength (c :: rest))).length := by
          have size : (letter :: c :: rest).length = (c :: rest).length + 1 := rfl
          rw [size] at within
          rw [List.length_drop]
          split at within <;> omega
        rw [digitsLength_cut digits]
    · rw [if_neg isLetter, if_neg isLetter]

theorem fractionLength_cut {whole : Nat} {front back : List Char}
    (within : fractionLength whole (front ++ back) ≤ front.length) :
    fractionLength whole front = fractionLength whole (front ++ back) := by
  cases front with
  | nil => exact (Nat.le_zero.mp within).symm
  | cons c rest =>
    by_cases isPoint : c = '.'
    · subst isPoint
      simp only [List.cons_append, fractionLength, List.length_cons] at within ⊢
      have digits : digitsLength (rest ++ back) ≤ rest.length := by
        split at within
        · next none =>
          simp only [Bool.and_eq_true, decide_eq_true_eq] at none
          omega
        · omega
      rw [digitsLength_cut digits]
    · rw [List.cons_append, fractionLength_other isPoint, fractionLength_other isPoint]

theorem suffixes_cut {front back : List Char} {whole fraction : Nat}
    (within : whole + fraction +
        exponentLength ((front ++ back).drop (whole + fraction)) +
        floatingSuffix ((front ++ back).drop (whole + fraction +
          exponentLength ((front ++ back).drop (whole + fraction)))) ≤ front.length) :
    floatingFrom? front whole fraction = floatingFrom? (front ++ back) whole fraction := by
  have exponent : exponentLength (front.drop (whole + fraction)) =
      exponentLength ((front ++ back).drop (whole + fraction)) := by
    rw [List.drop_append_of_le_length (by omega)] at within ⊢
    refine exponentLength_cut ?_
    rw [List.length_drop]
    omega
  have suffix : floatingSuffix (front.drop (whole + fraction +
        exponentLength ((front ++ back).drop (whole + fraction)))) =
      floatingSuffix ((front ++ back).drop (whole + fraction +
        exponentLength ((front ++ back).drop (whole + fraction)))) := by
    generalize exponentLength ((front ++ back).drop (whole + fraction)) = n at *
    rw [List.drop_append_of_le_length (by omega)] at within ⊢
    refine oneOf_cut ?_
    rw [floatingSuffix] at within
    rw [List.length_drop]
    omega
  simp only [floatingFrom?, exponent, suffix]

/-- A floating literal, or none, in the front of a text. -/
theorem floatingFrom_cut {front back : List Char}
    (digits : digitsLength (front ++ back) ≤ front.length)
    (fraction : fractionLength (digitsLength (front ++ back))
        ((front ++ back).drop (digitsLength (front ++ back))) ≤
      front.length - digitsLength (front ++ back)) :
    floatingLength? front = floatingFrom? front (digitsLength (front ++ back))
      (fractionLength (digitsLength (front ++ back))
        ((front ++ back).drop (digitsLength (front ++ back)))) := by
  rw [floatingLength_eq, digitsLength_cut digits]
  rw [List.drop_append_of_le_length digits] at fraction ⊢
  rw [fractionLength_cut (by rwa [List.length_drop])]

theorem floatingLength_cut {front back : List Char} {length : Nat}
    (h : floatingLength? (front ++ back) = some length) (within : length ≤ front.length) :
    floatingLength? front = some length := by
  rw [floatingLength_eq] at h
  have sum := h
  simp only [floatingFrom?, Option.ite_none_left_eq_some, Option.some.injEq] at sum
  obtain ⟨-, -, rfl⟩ := sum
  have shorter := @floatingFrom_cut front back (by omega) (by omega)
  rw [shorter, suffixes_cut within, h]

/-- Digits that go on behind a text are all there is in front. -/
theorem floatingLength_digits {front back : List Char}
    (goesOn : front.length < digitsLength (front ++ back)) : floatingLength? front = none := by
  have all : digitsLength front = front.length := by
    rw [digitsLength, List.takeWhile_append] at goesOn
    split at goesOn
    · next all => exact all
    · exact absurd (List.takeWhile_prefix isDigit).length_le (Nat.not_le.mpr goesOn)
  rw [floatingLength_eq, all, List.drop_length]
  simp [floatingFrom?, fractionLength, exponentLength, floatingSuffix, oneOf]

theorem floatingLength_cut_none {front back : List Char}
    (h : floatingLength? (front ++ back) = none) : floatingLength? front = none := by
  by_cases goesOn : front.length < digitsLength (front ++ back)
  · exact floatingLength_digits goesOn
  rw [floatingLength_eq] at h
  have digits := Nat.not_lt.mp goesOn
  have parts := h
  simp only [floatingFrom?, ite_eq_left_iff, reduceCtorEq, imp_false, Bool.and_eq_true,
    decide_eq_true_eq, not_not] at parts
  have noFraction : fractionLength (digitsLength (front ++ back))
      ((front ++ back).drop (digitsLength (front ++ back))) = 0 := by
    by_cases isNone : digitsLength (front ++ back) = 0 ∧ fractionLength
        (digitsLength (front ++ back)) ((front ++ back).drop (digitsLength (front ++ back))) = 0
    · exact isNone.2
    · exact (parts isNone).1.1
  have shorter := @floatingFrom_cut front back digits (by omega)
  rw [shorter]
  by_cases noDigit : digitsLength (front ++ back) = 0
  · rw [noFraction, noDigit]
    rfl
  · obtain ⟨⟨-, noExponent⟩, noSuffix⟩ := parts fun isNone => noDigit isNone.1
    have whole : floatingFrom? front (digitsLength (front ++ back)) 0 =
        floatingFrom? (front ++ back) (digitsLength (front ++ back)) 0 := by
      rw [noFraction] at noExponent noSuffix
      exact suffixes_cut (by rw [noSuffix, noExponent]; exact digits)
    rw [noFraction] at h ⊢
    rw [whole, h]

theorem hexLength_cut {front back : List Char}
    (within : 2 + hexLength (front ++ back) ≤ front.length ∨ hexLength (front ++ back) = 0) :
    hexLength front = hexLength (front ++ back) := by
  rcases front with - | ⟨c, - | ⟨x, rest⟩⟩
  · exact (within.resolve_left (by simp)).symm
  · have none : hexLength ([c] ++ back) = 0 :=
      within.resolve_left fun longer => by
        rw [List.length_singleton] at longer
        omega
    have alone : hexLength [c] = 0 := by
      unfold hexLength
      split
      · next same => cases (List.cons.inj same).2
      · rfl
    rw [none, alone]
  · by_cases isZero : c = '0'
    · subst isZero
      simp only [List.cons_append, hexLength, List.length_cons] at within ⊢
      split
      · next isHex =>
        rw [if_pos isHex] at within
        rw [takeWhile_cut (by omega)]
      · rfl
    · rw [List.cons_append, hexLength_other isZero, hexLength_other isZero]

theorem integerLength_cut {front back : List Char} {length : Nat}
    (h : integerLength? (front ++ back) = some length) (within : length ≤ front.length) :
    integerLength? front = some length := by
  rw [integerLength_eq] at h ⊢
  simp only [Option.ite_none_left_eq_some, Option.some.injEq] at h ⊢
  obtain ⟨positive, rfl⟩ := h
  have hex : hexLength front = hexLength (front ++ back) := by
    refine hexLength_cut ?_
    split at within <;> omega
  have digits : (if hexLength front = 0 then digitsLength front else 2 + hexLength front) =
      if hexLength (front ++ back) = 0 then digitsLength (front ++ back)
      else 2 + hexLength (front ++ back) := by
    rw [hex]
    split
    · next noHex =>
      rw [if_pos noHex] at within
      exact digitsLength_cut (by omega)
    · rfl
  rw [digits]
  generalize (if hexLength (front ++ back) = 0 then digitsLength (front ++ back)
    else 2 + hexLength (front ++ back)) = n at *
  refine ⟨positive, ?_⟩
  rw [List.drop_append_of_le_length (by omega)] at within ⊢
  rw [integerSuffix, oneOf_cut]
  · rfl
  · rw [integerSuffix] at within
    rw [List.length_drop]
    omega

theorem integerLength_cut_none {front back : List Char}
    (h : integerLength? (front ++ back) = none) : integerLength? front = none := by
  rw [integerLength_eq] at h ⊢
  simp only [ite_eq_left_iff, reduceCtorEq, imp_false, not_not] at h ⊢
  have noHex : hexLength (front ++ back) = 0 := by
    by_contra some
    rw [if_neg some] at h
    omega
  rw [if_pos noHex] at h
  have noDigit : digitsLength front = digitsLength (front ++ back) := digitsLength_cut (by omega)
  rw [hexLength_cut (.inr noHex), if_pos noHex, noDigit, h]

theorem floating_munch : Munch floatingLength? id where
  cut := floatingLength_cut
  cut_none := floatingLength_cut_none
  solid h c isIn := not_space (by decide) (List.all_eq_true.mp (floating_inNumeral h) c isIn)

theorem integer_munch : Munch integerLength? id where
  cut := integerLength_cut
  cut_none := integerLength_cut_none
  solid h c isIn := not_space (by decide) (List.all_eq_true.mp (integer_inNumeral h) c isIn)

/-! ### Names -/

theorem name_munch : Munch nameLength? id where
  cut := by
    intro front back length h within
    cases front with
    | nil => exact absurd (nameLength_le h).1 (Nat.not_lt.mpr within)
    | cons c front =>
      simp only [List.cons_append, nameLength?, Option.ite_none_right_eq_some,
        Option.some.injEq] at h ⊢
      obtain ⟨begins, rfl⟩ := h
      rw [takeWhile_cut (Nat.le_of_succ_le_succ within)]
      exact ⟨begins, rfl⟩
  cut_none := by
    intro front back h
    cases front with
    | nil => rfl
    | cons c front =>
      simp only [List.cons_append, nameLength?, ite_eq_right_iff, reduceCtorEq] at h ⊢
      exact h
  solid := by
    intro text length h c isIn
    cases text with
    | nil => cases h
    | cons first rest =>
      simp only [nameLength?, Option.ite_none_right_eq_some, Option.some.injEq] at h
      obtain ⟨begins, rfl⟩ := h
      rw [id, List.take_succ_cons, take_takeWhile, List.mem_cons] at isIn
      rcases isIn with rfl | isIn
      · exact isNameStart_not_space begins
      · exact @not_space isNamePart (by decide) c (List.mem_takeWhile_imp isIn)

/-! ### Symbols -/

/-- The longest symbol, out of some, at the start of a text. -/
def Longest (symbols : List Symbol) (text : List Char) : Option Symbol → Prop
  | none => ∀ other ∈ symbols, ¬other.text.toList <+: text
  | some symbol => (symbol ∈ symbols ∧ symbol.text.toList <+: text) ∧
      ∀ other ∈ symbols, other.text.toList <+: text → other.text.length ≤ symbol.text.length

theorem symbolAt_longest (text : List Char) : Longest Symbol.all text (symbolAt? text) := by
  unfold symbolAt?
  induction Symbol.all using List.reverseRecOn with
  | nil => exact List.forall_mem_nil _
  | append_singleton symbols symbol ih =>
    rw [List.foldl_concat]
    generalize symbols.foldl _ none = best at ih
    split
    · next begins =>
      rw [List.isPrefixOf_iff_prefix] at begins
      cases best with
      | none =>
        refine ⟨⟨by simp, begins⟩, ?_⟩
        refine List.forall_mem_append.mpr ⟨fun other isIn starts => absurd starts (ih other isIn),
          List.forall_mem_singleton.mpr fun _ => Nat.le_refl _⟩
      | some other =>
        obtain ⟨⟨isIn, starts⟩, longest⟩ := ih
        dsimp only
        split
        · next longer =>
          refine ⟨⟨by simp, begins⟩, ?_⟩
          refine List.forall_mem_append.mpr ⟨fun third isIn starts =>
            (longest third isIn starts).trans (Nat.le_of_lt longer),
            List.forall_mem_singleton.mpr fun _ => Nat.le_refl _⟩
        · next shorter =>
          refine ⟨⟨List.mem_append_left _ isIn, starts⟩, ?_⟩
          exact List.forall_mem_append.mpr ⟨longest,
            List.forall_mem_singleton.mpr fun _ => Nat.not_lt.mp shorter⟩
    · next differs =>
      rw [List.isPrefixOf_iff_prefix] at differs
      cases best with
      | none => exact List.forall_mem_append.mpr ⟨ih, List.forall_mem_singleton.mpr differs⟩
      | some other =>
        obtain ⟨⟨isIn, starts⟩, longest⟩ := ih
        refine ⟨⟨List.mem_append_left _ isIn, starts⟩, ?_⟩
        exact List.forall_mem_append.mpr ⟨longest,
          List.forall_mem_singleton.mpr fun starts => absurd starts differs⟩

theorem symbol_text_inj {a b : Symbol} (isIn : a ∈ Symbol.all) (isIn' : b ∈ Symbol.all)
    (same : a.text.toList = b.text.toList) : a = b := by
  have distinct : (Symbol.all.map fun symbol => symbol.text.toList).Nodup := by decide +kernel
  exact List.inj_on_of_nodup_map distinct isIn isIn' same

theorem Longest.unique {text : List Char} {a b : Option Symbol}
    (h : Longest Symbol.all text a) (h' : Longest Symbol.all text b) : a = b := by
  cases a with
  | none =>
    cases b with
    | none => rfl
    | some b => exact absurd h'.1.2 (h b h'.1.1)
  | some a =>
    cases b with
    | none => exact absurd h.1.2 (h' a h.1.1)
    | some b =>
      obtain ⟨⟨isIn, starts⟩, longest⟩ := h
      obtain ⟨⟨isIn', starts'⟩, longest'⟩ := h'
      have same : a.text.toList.length = b.text.toList.length := by
        rw [String.length_toList, String.length_toList]
        exact Nat.le_antisymm (longest' a isIn starts) (longest b isIn' starts')
      have prefixes := List.prefix_of_prefix_length_le starts starts' (Nat.le_of_eq same)
      rw [symbol_text_inj isIn isIn' (prefixes.eq_of_length same)]

theorem symbol_solid {symbol : Symbol} (isIn : symbol ∈ Symbol.all) :
    ∀ c ∈ symbol.text.toList, isSpace c = false := by
  have solid : Symbol.all.all (fun symbol =>
      symbol.text.toList.all fun c => !isSpace c) = true := by decide +kernel
  simpa using List.all_eq_true.mp solid symbol isIn

theorem symbol_munch : Munch symbolAt? (fun symbol => symbol.text.length) where
  cut := by
    intro front back symbol h within
    have whole := symbolAt_longest (front ++ back)
    rw [h] at whole
    obtain ⟨⟨isIn, starts⟩, longest⟩ := whole
    have begins : symbol.text.toList <+: front :=
      List.prefix_of_prefix_length_le starts (List.prefix_append front back)
        (by rwa [String.length_toList])
    have found : Longest Symbol.all front (some symbol) :=
      ⟨⟨isIn, begins⟩, fun other isIn starts =>
        longest other isIn (starts.trans (List.prefix_append front back))⟩
    exact (symbolAt_longest front).unique found
  cut_none := by
    intro front back h
    have whole := symbolAt_longest (front ++ back)
    rw [h] at whole
    have none : Longest Symbol.all front none := fun other isIn starts =>
      whole other isIn (starts.trans (List.prefix_append front back))
    exact (symbolAt_longest front).unique none
  solid := by
    intro text symbol h c isIn
    obtain ⟨isSymbol, starts⟩ := symbolAt_prefix h
    rw [← String.length_toList, ← List.prefix_iff_eq_take.mp starts] at isIn
    exact symbol_solid isSymbol c isIn

/-! ### Numerals, names and symbols together -/

/-- What a measure finds, as a lexeme of a kind. -/
def spelledBy (measure : List Char → Option Nat) (kind : List Char → Lexeme) (text : List Char) :
    Option (Lexeme × Nat) :=
  (measure text).map fun length => (kind (text.take length), length)

theorem Munch.spelledBy {measure : List Char → Option Nat} (munch : Munch measure id)
    (kind : List Char → Lexeme) : Munch (spelledBy measure kind) Prod.snd where
  cut := by
    intro front back found h within
    obtain ⟨length, isLength, rfl⟩ := Option.map_eq_some_iff.mp h
    rw [Lexer.spelledBy, munch.cut isLength within, List.take_append_of_le_length within]
    rfl
  cut_none h := by
    rw [Lexer.spelledBy, munch.cut_none (Option.map_eq_none_iff.mp h)]
    rfl
  solid h := by
    obtain ⟨length, isLength, rfl⟩ := Option.map_eq_some_iff.mp h
    exact munch.solid isLength

theorem Munch.map {α β : Type} {measure : List Char → Option α} {size : β → Nat} {f : α → β}
    (munch : Munch measure (size ∘ f)) : Munch (fun text => (measure text).map f) size where
  cut := by
    intro front back found h within
    obtain ⟨part, isPart, rfl⟩ := Option.map_eq_some_iff.mp h
    rw [munch.cut isPart within]
    rfl
  cut_none h := by
    rw [munch.cut_none (Option.map_eq_none_iff.mp h)]
    rfl
  solid h := by
    obtain ⟨part, isPart, rfl⟩ := Option.map_eq_some_iff.mp h
    exact munch.solid isPart

theorem Munch.or {α : Type} {first second : List Char → Option α} {size : α → Nat}
    (munch : Munch first size) (munch' : Munch second size) :
    Munch (fun text => (first text).or (second text)) size where
  cut := by
    intro front back found h within
    rw [Option.or_eq_some_iff] at h ⊢
    rcases h with isFirst | ⟨none, isSecond⟩
    · exact .inl (munch.cut isFirst within)
    · exact .inr ⟨munch.cut_none none, munch'.cut isSecond within⟩
  cut_none h := by
    rw [Option.or_eq_none_iff] at h ⊢
    exact ⟨munch.cut_none h.1, munch'.cut_none h.2⟩
  solid h := by
    rcases Option.or_eq_some_iff.mp h with isFirst | ⟨-, isSecond⟩
    · exact munch.solid isFirst
    · exact munch'.solid isSecond

/-- The numeral, the word or the symbol at the start of a text. -/
def solidAt? (text : List Char) : Option (Lexeme × Nat) :=
  (spelledBy floatingLength? .floating text).or
    ((spelledBy integerLength? .integer text).or
      ((spelledBy nameLength? wordLexeme text).or
        ((symbolAt? text).map fun symbol => (.symbol symbol, symbol.text.length))))

theorem solid_munch : Munch solidAt? Prod.snd :=
  (floating_munch.spelledBy .floating).or ((integer_munch.spelledBy .integer).or
    ((name_munch.spelledBy wordLexeme).or (Munch.map symbol_munch)))

/-- What begins neither with a blank nor with a quote nor with a comment is a numeral, a word or a
symbol. -/
theorem scan_solid {c : Char} {rest : List Char} (noSpace : isSpace c = false) (noQuote : c ≠ '"')
    (noMark : c ≠ '\'') (noComment : commentLength? (c :: rest) = none) :
    scan (c :: rest) = (solidAt? (c :: rest)).map fun found => (some found.1, found.2) := by
  unfold scan solidAt? spelledBy
  rw [spaceLength_none noSpace, noComment, stringLength_none noQuote, characterLength_none noMark]
  cases floatingLength? (c :: rest) <;> cases integerLength? (c :: rest) <;>
    cases nameLength? (c :: rest) <;> cases symbolAt? (c :: rest) <;> rfl

/-! ### Quotes -/

theorem stringRest_take {text : List Char} {length : Nat} (h : stringRest? text = some length) :
    stringRest? (text.take length) = some length := by
  induction text using stringRest?.induct generalizing length with
  | case1 text =>
    cases h
    rfl
  | case2 text => cases h
  | case3 text => simp [stringRest?] at h
  | case4 c text isEnd ih =>
    simp only [stringRest?, isEnd, if_false] at h
    obtain ⟨length, isLength, rfl⟩ := Option.map_eq_some_iff.mp h
    simp [stringRest?, isEnd, ih isLength]
  | case5 => cases h
  | case6 c text noQuote noEnd noEscape noBackslash ih =>
    have plain := ne_backslash noEscape noBackslash
    rw [stringRest_plain noQuote noEnd plain] at h
    obtain ⟨length, isLength, rfl⟩ := Option.map_eq_some_iff.mp h
    rw [List.take_succ_cons, stringRest_plain noQuote noEnd plain, ih isLength]
    rfl
  | case7 => cases h

theorem stringLength_take {text : List Char} {length : Nat} (h : stringLength? text = some length) :
    stringLength? (text.take length) = some length := by
  unfold stringLength? at h
  split at h
  · obtain ⟨length, isLength, rfl⟩ := Option.map_eq_some_iff.mp h
    rw [List.take_succ_cons, stringLength?, stringRest_take isLength]
    rfl
  · cases h

theorem closedAfter_length {text rest : List Char} {length : Nat} (h : text.length = length) :
    closedAfter length (text ++ '\'' :: rest) = some (length + 1) := by
  rw [closedAfter_eq, List.drop_left' h, List.head?_cons, if_pos rfl]

theorem unicodeRest_none {c : Char} {rest : List Char}
    (h : c = 'u' → Ends isHexDigit rest) : unicodeRest? (c :: rest) = none := by
  unfold unicodeRest?
  split
  · next more same =>
    obtain ⟨rfl, rfl⟩ := List.cons.inj same
    have noDigits : rest.takeWhile isHexDigit = [] :=
      @takeWhile_ends isHexDigit [] rest (List.forall_mem_nil _) (h rfl)
    rw [noDigits]
    rfl
  · rfl

theorem escapedRest_unicode {digits : List Char} (four : digits.length = 4)
    (isHex : ∀ c ∈ digits, isHexDigit c = true) (rest : List Char) :
    escapedRest? ('u' :: (digits ++ '\'' :: rest)) = some 6 := by
  have all : (digits ++ '\'' :: rest).takeWhile isHexDigit = digits :=
    takeWhile_ends isHex (ends_cons (by decide))
  have closed := @closedAfter_length ('u' :: digits) rest 5 (by rw [List.length_cons, four])
  rw [List.cons_append] at closed
  rw [escapedRest_eq, unicodeRest?, all, if_pos (Nat.le_of_eq four.symm), closed]
  rfl

theorem escapedRest_octal {digits : List Char} (some : digits ≠ []) (three : digits.length ≤ 3)
    (isOctal : ∀ c ∈ digits, isOctalDigit c = true) (rest : List Char) :
    escapedRest? (digits ++ '\'' :: rest) = .some (digits.length + 1) := by
  have ends : Ends isOctalDigit (('\'' :: rest).take (3 - digits.length)) := by
    cases 3 - digits.length with
    | zero => exact ends_nil
    | succ n => exact ends_cons (by decide)
  have all : ((digits ++ '\'' :: rest).take 3).takeWhile isOctalDigit = digits := by
    rw [List.take_append, List.take_of_length_le three, takeWhile_ends isOctal ends]
  have noUnicode : unicodeRest? (digits ++ '\'' :: rest) = none := by
    obtain ⟨c, digits, rfl⟩ := List.exists_cons_of_ne_nil some
    refine unicodeRest_none fun isMark => ?_
    have noDigit := isOctal c List.mem_cons_self
    rw [isMark] at noDigit
    cases noDigit
  have octal : octalRest? (digits ++ '\'' :: rest) = .some (digits.length + 1) := by
    rw [octalRest?, all, closedAfter_length rfl]
    exact if_neg fun none => some (List.length_eq_zero_iff.mp none)
  rw [escapedRest_eq, noUnicode, octal]
  rfl

theorem escapedRest_single (c : Char) (rest : List Char) :
    escapedRest? (c :: '\'' :: rest) = if c = '\n' then none else some 2 := by
  have closed : closedAfter 1 (c :: '\'' :: rest) = some 2 :=
    @closedAfter_length [c] rest 1 rfl
  by_cases isOctal : isOctalDigit c = true
  · have noEnd : c ≠ '\n' := by
      rintro rfl
      cases isOctal
    rw [if_neg noEnd]
    exact escapedRest_octal (List.cons_ne_nil c []) (by simp)
      (List.forall_mem_singleton.mpr isOctal) rest
  · have octal : octalRest? (c :: '\'' :: rest) = none := by
      rw [octalRest?, List.take_succ_cons, List.takeWhile_cons_of_neg isOctal]
      rfl
    rw [escapedRest_eq, unicodeRest_none fun _ => ends_cons (by decide), octal, singleRest?, closed]
    rfl

/-- A character is found in front of anything. -/
theorem characterLength_elsewhere {spelling back : List Char}
    (h : characterLength? (spelling ++ back) = some spelling.length) (rest : List Char) :
    characterLength? (spelling ++ rest) = some spelling.length := by
  have spelled := characterLength_spelling h
  rw [List.take_left] at spelled
  cases spelled with
  | @plain c noEscape =>
    have plain (more : List Char) : characterLength? (['\'', c, '\''] ++ more) =
        if c = '\'' || c = '\n' then none else some 3 := by
      simp only [List.cons_append, List.nil_append]
      rw [characterLength?]
      · rfl
      · exact noEscape
    rw [plain] at h ⊢
    exact h
  | @unicode digits four isHex =>
    simp only [List.cons_append, List.append_assoc, List.nil_append, characterLength?,
      escapedRest_unicode four isHex]
    simp [four]
  | @octal digits some three isOctal =>
    simp only [List.cons_append, List.append_assoc, List.nil_append, characterLength?,
      escapedRest_octal some three isOctal]
    simp
  | single c =>
    have single (more : List Char) : characterLength? (['\'', '\\', c, '\''] ++ more) =
        (if c = '\n' then none else some 2).map (· + 2) := by
      rw [← escapedRest_single c more]
      rfl
    rw [single] at h ⊢
    exact h

theorem scan_mark (text : List Char) : scan ('\'' :: text) =
    (characterLength? ('\'' :: text)).map fun length =>
      (some (.character (('\'' :: text).take length)), length) := by
  have noSymbol : symbolAt? ('\'' :: text) = none := symbolAt_none (by decide +kernel) text
  have noName : nameLength? ('\'' :: text) = none := rfl
  rw [scan_other (by decide) (by simp) (by decide) (commentLength_none (by decide)),
    stringLength_none (by decide), noName, noSymbol]
  cases characterLength? ('\'' :: text) <;> rfl

/-! ### Comments -/

/-- A block comment ends where it does, whatever stands behind its end. -/
theorem blockRest_take {text : List Char} {length : Nat} (h : blockRest? text = some length)
    (rest : List Char) : blockRest? (text.take length ++ rest) = some length := by
  induction text using blockRest?.induct generalizing length with
  | case1 text =>
    cases h
    rfl
  | case2 c text noEnd ih =>
    rw [blockRest?.eq_2 _ _ noEnd] at h
    obtain ⟨length, isLength, rfl⟩ := Option.map_eq_some_iff.mp h
    have goesOn : c = '*' → (text.take length ++ rest).head? ≠ some '/' := by
      intro isStar isSlash
      obtain ⟨front, ends⟩ := blockRest_ends isLength
      have some : text.take length ≠ [] := by simp [ends]
      rw [List.head?_append_of_ne_nil _ some, List.head?_take] at isSlash
      split at isSlash
      · cases isSlash
      · obtain ⟨more, rfl⟩ := List.head?_eq_some_iff.mp isSlash
        exact noEnd more isStar rfl
    rw [List.take_succ_cons, List.cons_append, blockRest_cons goesOn, ih isLength]
    rfl
  | case3 => cases h

/-- A comment with a text behind it, or a block comment, is found whatever comes then. -/
theorem commentLength_elsewhere {comment front back : List Char}
    (h : commentLength? (comment ++ (front ++ back)) = some comment.length)
    (noLine : front = [] → ∀ inner, comment ≠ '/' :: '/' :: inner) (rest : List Char) :
    commentLength? (comment ++ (front ++ rest)) = some comment.length := by
  obtain ⟨inner, starts⟩ := comment_starts h
  rw [List.take_left] at starts
  subst starts
  rcases inner with - | ⟨d, inner⟩
  · -- Two characters begin a comment.
    unfold commentLength? at h
    split at h
    · simp at h
    · obtain ⟨length, -, short⟩ := Option.map_eq_some_iff.mp h
      simp at short
    · cases h
  by_cases isLine : d = '/'
  · subst isLine
    simp only [List.cons_append, commentLength?, List.length_cons, Option.some.injEq,
      Nat.add_right_cancel_iff] at h ⊢
    rw [← List.append_assoc] at h ⊢
    have within : ((inner ++ front ++ back).takeWhile (· != '\n')).length ≤
        (inner ++ front).length := by
      rw [h, List.length_append]
      omega
    rw [takeWhile_cut within] at h
    rw [List.takeWhile_append, if_neg]
    · exact h
    · intro all
      have none : front = [] := List.length_eq_zero_iff.mp (by
        rw [all, List.length_append] at h
        omega)
      exact noLine none inner rfl
  · by_cases isBlock : d = '*'
    · subst isBlock
      simp only [List.cons_append, commentLength?, List.length_cons, Option.map_eq_some_iff,
        Nat.add_right_cancel_iff, exists_eq_right] at h ⊢
      have closed := blockRest_take h (front ++ rest)
      rwa [List.take_left] at closed
    · rw [List.cons_append, List.cons_append, commentLength_other isLine isBlock] at h
      cases h

/-! ### In front of blanks -/

/-- What gives a token begins neither with a blank nor with a comment. -/
theorem begins_of_scan {c : Char} {text : List Char} {lexeme : Lexeme} {length : Nat}
    (h : scan (c :: text) = some (some lexeme, length)) :
    isSpace c = false ∧ commentLength? (c :: text) = none := by
  constructor
  · refine Bool.eq_false_iff.mpr fun isBlank => ?_
    rw [scan_space isBlank] at h
    cases h
  · by_cases isSlash : c = '/'
    · subst isSlash
      cases isComment : commentLength? ('/' :: text) with
      | none => rfl
      | some length =>
        rw [scan_comment isComment] at h
        cases h
    · exact commentLength_none isSlash

/-- **A lexeme that ends within the front of a text** is found there if a blank follows the front,
unless it is taken for the beginning of a comment. -/
theorem scan_blank {c b : Char} {spelling front back : List Char} {lexeme : Lexeme}
    (h : scan (c :: (spelling ++ (front ++ back))) = some (some lexeme, (c :: spelling).length))
    (noStar : c = '/' → (spelling ++ front).head? ≠ some '*') (isBlank : isSpace b = true)
    (rest : List Char) :
    scan (c :: (spelling ++ (front ++ b :: rest))) =
      some (some lexeme, (c :: spelling).length) := by
  obtain ⟨noSpace, noComment⟩ := begins_of_scan h
  have taken (more : List Char) :
      (c :: (spelling ++ more)).take (c :: spelling).length = c :: spelling :=
    @List.take_left _ (c :: spelling) more
  by_cases isQuote : c = '"'
  · subst isQuote
    rw [scan_quote] at h
    obtain ⟨length, isLength, same⟩ := Option.map_eq_some_iff.mp h
    obtain ⟨isLexeme, rfl⟩ := Prod.mk.inj same
    have closed := stringLength_take isLength
    rw [taken] at closed isLexeme
    have found := @scan_string _ (front ++ b :: rest) closed
    rw [isLexeme] at found
    exact found
  by_cases isMark : c = '\''
  · subst isMark
    rw [scan_mark] at h
    obtain ⟨length, isLength, same⟩ := Option.map_eq_some_iff.mp h
    obtain ⟨isLexeme, rfl⟩ := Prod.mk.inj same
    have closed := @characterLength_elsewhere ('\'' :: spelling) _ isLength (front ++ b :: rest)
    rw [List.cons_append] at closed
    rw [taken] at isLexeme
    rw [scan_mark, closed, Option.map_some, taken, isLexeme]
  · have noComment' : commentLength? (c :: (spelling ++ front ++ b :: rest)) = none := by
      by_cases isSlash : c = '/'
      · subst isSlash
        rw [← List.append_assoc] at noComment
        cases first : spelling ++ front with
        | nil =>
          have noMark : b ≠ '/' ∧ b ≠ '*' := by
            rcases isSpace_cases isBlank with rfl | rfl | rfl | rfl | rfl <;> decide
          exact commentLength_other noMark.1 noMark.2
        | cons d more =>
          rw [first] at noStar noComment
          refine commentLength_other ?_ fun isStar => noStar rfl (congrArg some isStar)
          rintro rfl
          cases noComment
      · exact commentLength_none isSlash
    have within : (c :: spelling).length ≤ (c :: (spelling ++ front)).length := by
      simp only [List.length_cons, List.length_append]
      omega
    rw [scan_solid noSpace isQuote isMark noComment] at h
    obtain ⟨⟨found, length⟩, isFound, same⟩ := Option.map_eq_some_iff.mp h
    obtain ⟨isLexeme, rfl⟩ := Prod.mk.inj same
    rw [← List.append_assoc, ← List.cons_append] at isFound
    have alone := solid_munch.cut isFound within
    have blank := solid_munch.blank isBlank (c :: (spelling ++ front)) rest
    rw [List.cons_append] at blank
    rw [← List.append_assoc, scan_solid noSpace isQuote isMark noComment', blank, alone]
    exact congrArg some same

end Formulary.Lexer
