/-
Texts as rows of pieces.

The lexer takes a text apart into pieces, each found as a whole in front of everything that stands
behind it: tokens, blanks and comments.

* `scan_finds` — what is found at the start of a text is of one of eight sorts.
* `tokensFrom_scanned` — the tokens of a row of pieces come first, whatever stands behind it.
* `scanned_of_tokens` — a text that has tokens is a row of pieces.
* `tokensFrom_inOrder` — the tokens of a text stand one behind the other.
-/

import Formulary.Proofs.Quotes

namespace Formulary

/-- Whether a position is in front of another one. -/
def Position.Before (p q : Position) : Prop :=
  p.line < q.line ∨ p.line = q.line ∧ p.column < q.column

theorem Position.Before.trans {p q r : Position} (h : p.Before q) (h' : q.Before r) :
    p.Before r := by
  unfold Position.Before at *
  omega

theorem Position.before_advance (p : Position) (c : Char) : p.Before (p.advance c) := by
  rw [advance]
  split
  · exact .inl (Nat.lt_succ_self _)
  · exact .inr ⟨rfl, Nat.lt_succ_self _⟩

theorem Position.Before.ne {p q : Position} (h : p.Before q) : p ≠ q := by
  rintro rfl
  unfold Position.Before at h
  omega

end Formulary

namespace Formulary.Lexer

/-! ### Parts of numerals -/

/-- The length of the sign of an exponent. -/
def signLength : List Char → Nat
  | c :: _ => if c = '+' || c = '-' then 1 else 0
  | [] => 0

theorem exponentLength_cons (letter : Char) (rest : List Char) :
    exponentLength (letter :: rest) =
      if letter = 'e' || letter = 'E' then
        if digitsLength (rest.drop (signLength rest)) = 0 then 0
        else 1 + signLength rest + digitsLength (rest.drop (signLength rest))
      else 0 := rfl

/-- The length of a point and of the digits behind it, where `whole` digits stand in front. -/
def fractionLength (whole : Nat) : List Char → Nat
  | '.' :: rest => if whole = 0 && digitsLength rest = 0 then 0 else 1 + digitsLength rest
  | _ => 0

theorem fractionLength_other {whole : Nat} {c : Char} (noPoint : c ≠ '.') (rest : List Char) :
    fractionLength whole (c :: rest) = 0 := by
  unfold fractionLength
  split
  · next same => exact absurd (List.cons.inj same).1 noPoint
  · rfl

/-- The length of a floating literal with so many digits in front of its point. -/
def floatingFrom? (text : List Char) (whole fraction : Nat) : Option Nat :=
  let exponent := exponentLength (text.drop (whole + fraction))
  let suffix := floatingSuffix (text.drop (whole + fraction + exponent))
  if whole = 0 && fraction = 0 then none
  else if fraction = 0 && exponent = 0 && suffix = 0 then none
  else some (whole + fraction + exponent + suffix)

theorem floatingLength_eq (text : List Char) :
    floatingLength? text =
      floatingFrom? text (digitsLength text)
        (fractionLength (digitsLength text) (text.drop (digitsLength text))) := rfl

/-- The number of the digits behind `0x`. -/
def hexLength : List Char → Nat
  | '0' :: x :: rest => if x = 'x' || x = 'X' then (rest.takeWhile isHexDigit).length else 0
  | _ => 0

theorem hexLength_other {c : Char} (noZero : c ≠ '0') (rest : List Char) :
    hexLength (c :: rest) = 0 := by
  unfold hexLength
  split
  · next same => exact absurd (List.cons.inj same).1 noZero
  · rfl

theorem integerLength_eq (text : List Char) :
    integerLength? text =
      let length := if hexLength text = 0 then digitsLength text else 2 + hexLength text
      if length = 0 then none else some (length + integerSuffix (text.drop length)) := rfl

/-! ### Lengths -/

theorem digitsLength_le (text : List Char) : digitsLength text ≤ text.length :=
  (List.takeWhile_prefix _).length_le

theorem oneOf_le (letters text : List Char) : oneOf letters text ≤ text.length := by
  cases text with
  | nil => exact Nat.le_refl 0
  | cons c rest =>
    simp only [oneOf, List.length_cons]
    split <;> omega

theorem exponentLength_le (text : List Char) : exponentLength text ≤ text.length := by
  cases text with
  | nil => exact Nat.le_refl 0
  | cons letter rest =>
    have digits := digitsLength_le (rest.drop (signLength rest))
    rw [List.length_drop] at digits
    rw [exponentLength_cons, List.length_cons]
    split
    · split <;> omega
    · exact Nat.zero_le _

theorem fractionLength_le (whole : Nat) (text : List Char) :
    fractionLength whole text ≤ text.length := by
  unfold fractionLength
  split
  · next rest =>
    have digits := digitsLength_le rest
    rw [List.length_cons]
    split <;> omega
  · exact Nat.zero_le _

theorem floatingLength_le {text : List Char} {length : Nat}
    (h : floatingLength? text = some length) : 0 < length ∧ length ≤ text.length := by
  have whole := digitsLength_le text
  have fraction := fractionLength_le (digitsLength text) (text.drop (digitsLength text))
  rw [floatingLength_eq] at h
  generalize digitsLength text = w at *
  generalize fractionLength w (text.drop w) = f at *
  have exponent := exponentLength_le (text.drop (w + f))
  have suffix := oneOf_le ['f', 'F', 'd', 'D']
    (text.drop (w + f + exponentLength (text.drop (w + f))))
  simp only [List.length_drop] at fraction exponent suffix
  simp only [floatingFrom?, floatingSuffix, Option.ite_none_left_eq_some, Bool.and_eq_true,
    decide_eq_true_eq, Option.some.injEq] at h
  omega

theorem hexLength_le (text : List Char) :
    2 + hexLength text ≤ text.length ∨ hexLength text = 0 := by
  unfold hexLength
  split
  · next x rest =>
    split
    · have digits := (List.takeWhile_prefix isHexDigit (l := rest)).length_le
      simp only [List.length_cons]
      omega
    · exact .inr rfl
  · exact .inr rfl

theorem integerLength_le {text : List Char} {length : Nat}
    (h : integerLength? text = some length) : 0 < length ∧ length ≤ text.length := by
  have decimal := digitsLength_le text
  have hex := hexLength_le text
  rw [integerLength_eq] at h
  dsimp only at h
  generalize isLength : (if hexLength text = 0 then digitsLength text else 2 + hexLength text) = n
    at h
  have suffix := oneOf_le ['l', 'L'] (text.drop n)
  rw [List.length_drop] at suffix
  rw [Option.ite_none_left_eq_some, Option.some.injEq, integerSuffix] at h
  split at isLength <;> omega

theorem spaceLength_le {text : List Char} {length : Nat} (h : spaceLength? text = some length) :
    0 < length ∧ length ≤ text.length := by
  have blanks := (List.takeWhile_prefix isSpace (l := text)).length_le
  simp only [spaceLength?, Option.ite_none_left_eq_some, Option.some.injEq] at h
  omega

theorem blockRest_le {text : List Char} {length : Nat} (h : blockRest? text = some length) :
    length ≤ text.length := by
  induction text using blockRest?.induct generalizing length with
  | case1 rest =>
    cases h
    simp
  | case2 c rest noEnd ih =>
    rw [blockRest?.eq_2 _ _ noEnd] at h
    obtain ⟨length, isLength, rfl⟩ := Option.map_eq_some_iff.mp h
    exact Nat.succ_le_succ (ih isLength)
  | case3 => cases h

theorem commentLength_le {text : List Char} {length : Nat}
    (h : commentLength? text = some length) : 0 < length ∧ length ≤ text.length := by
  unfold commentLength? at h
  split at h
  · next rest =>
    have line := (List.takeWhile_prefix (· != '\n') (l := rest)).length_le
    cases h
    simp only [List.length_cons]
    omega
  · obtain ⟨length, isLength, rfl⟩ := Option.map_eq_some_iff.mp h
    have block := blockRest_le isLength
    simp only [List.length_cons]
    omega
  · cases h

theorem quoted_le {text : List Char} {length : Nat} (h : Text.Quoted (text.take length)) :
    0 < length := by
  obtain ⟨q, inner, -, same⟩ := h
  cases length with
  | zero => cases same
  | succ => exact Nat.succ_pos _

theorem stringLength_le {text : List Char} {length : Nat} (h : stringLength? text = some length) :
    0 < length ∧ length ≤ text.length := by
  unfold stringLength? at h
  split at h
  · obtain ⟨length, isLength, rfl⟩ := Option.map_eq_some_iff.mp h
    obtain ⟨inner, back, rfl, rfl⟩ := stringRest_quoted isLength
    simp only [List.length_cons, List.length_append]
    omega
  · cases h

theorem closedAfter_le {text : List Char} {before length : Nat}
    (h : closedAfter before text = some length) : length ≤ text.length := by
  unfold closedAfter at h
  split at h
  · next rest same =>
    cases h
    have behind := congrArg List.length same
    simp only [List.length_drop, List.length_cons] at behind
    omega
  · cases h

theorem escapedRest_le {text : List Char} {length : Nat} (h : escapedRest? text = some length) :
    length ≤ text.length := by
  unfold escapedRest? at h
  simp only [Option.orElse_eq_orElse, Option.orElse_eq_or, Option.or_eq_some_iff] at h
  rcases h with unicode | ⟨-, octal | ⟨-, single⟩⟩
  · split at unicode
    · split at unicode
      · exact closedAfter_le unicode
      · cases unicode
    · cases unicode
  · split at octal
    · cases octal
    · exact closedAfter_le octal
  · split at single
    · split at single
      · cases single
      · exact closedAfter_le single
    · cases single

theorem characterLength_le {text : List Char} {length : Nat}
    (h : characterLength? text = some length) : 0 < length ∧ length ≤ text.length := by
  unfold characterLength? at h
  split at h
  · obtain ⟨length, isLength, rfl⟩ := Option.map_eq_some_iff.mp h
    have rest := escapedRest_le isLength
    simp only [List.length_cons]
    omega
  · split at h
    · cases h
    · obtain ⟨length, isLength, rfl⟩ := Option.map_eq_some_iff.mp h
      have rest := closedAfter_le isLength
      simp only [List.length_cons] at rest ⊢
      omega
  · cases h

theorem nameLength_le {text : List Char} {length : Nat} (h : nameLength? text = some length) :
    0 < length ∧ length ≤ text.length := by
  cases text with
  | nil => cases h
  | cons c rest =>
    have parts := (List.takeWhile_prefix isNamePart (l := rest)).length_le
    simp only [nameLength?, Option.ite_none_right_eq_some, Option.some.injEq] at h
    simp only [List.length_cons]
    omega


/-! ### What is found at the start of a text -/

theorem symbolAt_prefix {text : List Char} {symbol : Symbol} (h : symbolAt? text = some symbol) :
    symbol ∈ Symbol.all ∧ symbol.text.toList <+: text := by
  let Best (best : Option Symbol) : Prop :=
    ∀ found, best = some found → found ∈ Symbol.all ∧ found.text.toList <+: text
  have best : Best (symbolAt? text) := by
    unfold symbolAt?
    refine List.foldlRecOn (motive := Best) Symbol.all _ (fun _ none => by cases none) ?_
    intro best before symbol isIn found same
    split at same
    · next begins =>
      have isNew := And.intro isIn (List.isPrefixOf_iff_prefix.mp begins)
      split at same
      · split at same
        · cases same
          exact isNew
        · exact before _ same
      · cases same
        exact isNew
    · exact before _ same
  exact best symbol h

theorem symbol_some : ∀ symbol ∈ Symbol.all, 0 < symbol.text.length := by
  decide

/-- The ways in which a lexeme, a comment or blanks are found at the start of a text. -/
inductive Finds (text : List Char) : Option Lexeme → Nat → Prop
  | floating {length : Nat} (h : floatingLength? text = some length) :
      Finds text (some (.floating (text.take length))) length
  | space {length : Nat} (h : spaceLength? text = some length) : Finds text none length
  | comment {length : Nat} (h : commentLength? text = some length) : Finds text none length
  | integer {length : Nat} (h : integerLength? text = some length) :
      Finds text (some (.integer (text.take length))) length
  | string {length : Nat} (h : stringLength? text = some length) :
      Finds text (some (.string (text.take length))) length
  | character {length : Nat} (h : characterLength? text = some length) :
      Finds text (some (.character (text.take length))) length
  | word {length : Nat} (h : nameLength? text = some length) :
      Finds text (some (wordLexeme (text.take length))) length
  | symbol {symbol : Symbol} (h : symbolAt? text = some symbol) :
      Finds text (some (.symbol symbol)) symbol.text.length

theorem scan_finds {text : List Char} {lexeme? : Option Lexeme} {length : Nat}
    (h : scan text = some (lexeme?, length)) : Finds text lexeme? length := by
  unfold scan at h
  dsimp only at h
  split at h
  · next found =>
    cases h
    exact .floating found
  · split at h
    · next found =>
      cases h
      simp only [Option.orElse_eq_orElse, Option.orElse_eq_or, Option.or_eq_some_iff] at found
      exact found.elim .space fun found => .comment found.2
    · split at h
      · next found =>
        cases h
        exact .integer found
      · split at h
        · next found =>
          cases h
          exact .string found
        · split at h
          · next found =>
            cases h
            exact .character found
          · split at h
            · next found =>
              cases h
              exact .word found
            · obtain ⟨symbol, found, same⟩ := Option.map_eq_some_iff.mp h
              cases same
              exact .symbol found

theorem Finds.length_le {text : List Char} {lexeme? : Option Lexeme} {length : Nat}
    (h : Finds text lexeme? length) : 0 < length ∧ length ≤ text.length := by
  cases h with
  | floating h => exact floatingLength_le h
  | space h => exact spaceLength_le h
  | comment h => exact commentLength_le h
  | integer h => exact integerLength_le h
  | string h => exact stringLength_le h
  | character h => exact characterLength_le h
  | word h => exact nameLength_le h
  | symbol h =>
    obtain ⟨isIn, begins⟩ := symbolAt_prefix h
    exact ⟨symbol_some _ isIn, String.length_toList ▸ begins.length_le⟩

/-! ### Pieces -/

/-- A part of a text that is found as a whole: a token, or, without a lexeme, blanks or a
comment. -/
structure Piece where
  text : List Char
  lexeme? : Option Lexeme

/-- The text of pieces. -/
def textOf (pieces : List Piece) : List Char :=
  pieces.flatMap Piece.text

@[simp]
theorem textOf_nil : textOf [] = [] := rfl

@[simp]
theorem textOf_cons (piece : Piece) (rest : List Piece) :
    textOf (piece :: rest) = piece.text ++ textOf rest := rfl

@[simp]
theorem textOf_append (front back : List Piece) :
    textOf (front ++ back) = textOf front ++ textOf back :=
  List.flatMap_append

/-- The tokens of pieces, the first of which begins at a position. -/
def placed : Position → List Piece → List Token
  | _, [] => []
  | p, piece :: rest =>
    (piece.lexeme?.map (⟨·, p⟩)).toList ++ placed (behind p piece.text) rest

theorem behind_append (p : Position) (front back : List Char) :
    behind p (front ++ back) = behind (behind p front) back :=
  List.foldl_append

theorem placed_append (p : Position) (front back : List Piece) :
    placed p (front ++ back) = placed p front ++ placed (behind p (textOf front)) back := by
  induction front generalizing p with
  | nil => rfl
  | cons piece front ih =>
    rw [List.cons_append, placed, placed, ih, textOf_cons, behind_append, List.append_assoc]

/-- Pieces that are found one after the other, with a text behind the last one. -/
inductive Scanned (back : List Char) : List Piece → Prop
  | nil : Scanned back []
  | cons {piece : Piece} {rest : List Piece} : piece.text ≠ [] →
      scan (piece.text ++ (textOf rest ++ back)) = some (piece.lexeme?, piece.text.length) →
      Scanned back rest → Scanned back (piece :: rest)

theorem Scanned.append {front later : List Piece} {back : List Char}
    (h : Scanned (textOf later ++ back) front) (h' : Scanned back later) :
    Scanned back (front ++ later) := by
  induction h with
  | nil => exact h'
  | cons some found _ ih =>
    rw [← List.append_assoc (textOf _), ← textOf_append] at found
    exact .cons some found ih

theorem Scanned.split {front later : List Piece} {back : List Char}
    (h : Scanned back (front ++ later)) :
    Scanned (textOf later ++ back) front ∧ Scanned back later := by
  induction front with
  | nil => exact ⟨.nil, h⟩
  | cons piece front ih =>
    rw [List.cons_append] at h
    cases h with
    | cons some found rest =>
      obtain ⟨first, last⟩ := ih rest
      rw [textOf_append, List.append_assoc] at found
      exact ⟨.cons some found first, last⟩

/-- The first piece of a text gives a token or none. -/
theorem tokensFrom_piece {lexeme? : Option Lexeme} {text back : List Char} (some : text ≠ [])
    (found : scan (text ++ back) = .some (lexeme?, text.length)) (p : Position) :
    tokensFrom 0 p (text ++ back) =
      (tokensFrom 0 (behind p text) back).map ((lexeme?.map (⟨·, p⟩)).toList ++ ·) := by
  cases lexeme? with
  | some lexeme => exact tokensFrom_lexeme some found p
  | none =>
    obtain ⟨c, text, rfl⟩ := List.exists_cons_of_ne_nil some
    rw [List.cons_append] at found ⊢
    rw [tokensFrom, found]
    simp only [List.length_cons, Nat.add_sub_cancel]
    rw [tokensFrom_skip]
    exact (congrFun Except.map_id _).symm

/-- Behind the tokens of pieces stand those of the text behind them. -/
theorem tokensFrom_scanned {pieces : List Piece} {back : List Char} (h : Scanned back pieces)
    (p : Position) :
    tokensFrom 0 p (textOf pieces ++ back) =
      (tokensFrom 0 (behind p (textOf pieces)) back).map (placed p pieces ++ ·) := by
  induction h generalizing p with
  | nil => exact (congrFun Except.map_id _).symm
  | cons some found _ ih =>
    rw [textOf_cons, List.append_assoc, tokensFrom_piece some found, ih, ← behind_append, placed]
    cases tokensFrom 0 (behind p _) back with
    | error e => rfl
    | ok tokens => simp [Except.map]

/-- **A text that has tokens falls into pieces**, and its tokens are those of the pieces. -/
theorem scanned_of_tokens {text : List Char} {p : Position} {tokens : List Token}
    (h : tokensFrom 0 p text = .ok tokens) :
    ∃ pieces, text = textOf pieces ∧ Scanned [] pieces ∧ tokens = placed p pieces := by
  induction length : text.length using Nat.strong_induction_on generalizing text p tokens with
  | _ _ ih =>
    cases text with
    | nil =>
      cases h
      exact ⟨[], rfl, .nil, rfl⟩
    | cons c text =>
      rw [tokensFrom] at h
      -- Behind the first piece the text is shorter.
      have behindFirst {lexeme? : Option Lexeme} {n : Nat} {more : List Token}
          (found : scan (c :: text) = some (lexeme?, n))
          (others : tokensFrom (n - 1) (p.advance c) text = .ok more) :
          ∃ pieces, c :: text = textOf pieces ∧ Scanned [] pieces ∧
            (lexeme?.map (⟨·, p⟩)).toList ++ more = placed p pieces := by
        obtain ⟨positive, within⟩ := (scan_finds found).length_le
        obtain ⟨n, rfl⟩ := Nat.exists_eq_add_of_le' positive
        have front : (text.take n).length = n := by
          rw [List.length_take]
          simpa using within
        have skipped := tokensFrom_skip (text.take n) (text.drop n) (p.advance c)
        rw [List.take_append_drop, front] at skipped
        rw [Nat.add_sub_cancel, skipped] at others
        obtain ⟨pieces, split, scanned, rfl⟩ := ih _ (by
          rw [← length, List.length_cons, List.length_drop]
          omega) others rfl
        refine ⟨⟨c :: text.take n, lexeme?⟩ :: pieces, ?_, .cons (List.cons_ne_nil _ _) ?_ scanned,
          rfl⟩
        · rw [textOf_cons, ← split, List.cons_append, List.take_append_drop]
        · rw [← split, List.append_nil, List.cons_append, List.take_append_drop, found,
            List.length_cons, front]
      split at h
      · cases h
      · next found => exact behindFirst found h
      · next lexeme n found =>
        cases others : tokensFrom (n - 1) (p.advance c) text with
        | error e => simp [others, Except.map] at h
        | ok more =>
          obtain rfl : ⟨lexeme, p⟩ :: more = tokens := by simpa [others, Except.map] using h
          exact behindFirst found others

theorem tokens_of_scanned {pieces : List Piece} (h : Scanned [] pieces) (p : Position) :
    tokensFrom 0 p (textOf pieces) = .ok (placed p pieces) := by
  have whole := tokensFrom_scanned h p
  rw [List.append_nil, tokensFrom] at whole
  simpa [Except.map] using whole

theorem placed_lexemes (p : Position) (pieces : List Piece) :
    (placed p pieces).map Token.lexeme = pieces.filterMap Piece.lexeme? := by
  induction pieces generalizing p with
  | nil => rfl
  | cons piece rest ih =>
    rw [placed, List.map_append, ih, List.filterMap_cons]
    cases piece.lexeme? <;> rfl

/-- A text has the same lexemes wherever it stands. -/
theorem tokensFrom_elsewhere {text : List Char} {p : Position} {tokens : List Token}
    (h : tokensFrom 0 p text = .ok tokens) (q : Position) :
    ∃ tokens', tokensFrom 0 q text = .ok tokens' ∧
      tokens'.map Token.lexeme = tokens.map Token.lexeme := by
  obtain ⟨pieces, rfl, scanned, rfl⟩ := scanned_of_tokens h
  exact ⟨_, tokens_of_scanned scanned q, by rw [placed_lexemes, placed_lexemes]⟩

/-- Blanks at the start of a text give no tokens. -/
theorem tokensFrom_blanks (p : Position) (text : List Char) :
    tokensFrom 0 p text = tokensFrom (text.takeWhile isSpace).length p text := by
  cases text with
  | nil => rfl
  | cons c rest =>
    by_cases isBlank : isSpace c = true
    · rw [List.takeWhile_cons_of_pos isBlank, tokensFrom, scan_space isBlank, List.length_cons,
        tokensFrom]
      rfl
    · rw [List.takeWhile_cons_of_neg isBlank]
      rfl

/-- A blank gives no token, whatever stands behind it. -/
theorem tokensFrom_space {c : Char} (isBlank : isSpace c = true) (p : Position)
    (rest : List Char) : tokensFrom 0 p (c :: rest) = tokensFrom 0 (p.advance c) rest := by
  rw [tokensFrom_blanks, List.takeWhile_cons_of_pos isBlank, List.length_cons, tokensFrom,
    ← tokensFrom_blanks]

/-- The piece that a place of a text lies in. -/
theorem exists_piece {pieces : List Piece} {front back : List Char} (some : back ≠ [])
    (same : textOf pieces = front ++ back) :
    ∃ before piece after inner, pieces = before ++ piece :: after ∧
      front = textOf before ++ inner ∧ inner.length < piece.text.length := by
  induction pieces generalizing front with
  | nil =>
    obtain ⟨-, rfl⟩ := List.append_eq_nil_iff.mp same.symm
    exact absurd rfl some
  | cons piece rest ih =>
    by_cases within : front.length < piece.text.length
    · exact ⟨[], piece, rest, front, rfl, rfl, within⟩
    · rw [textOf_cons] at same
      obtain ⟨front', rfl⟩ : piece.text <+: front :=
        List.prefix_of_prefix_length_le ⟨textOf rest, same⟩ ⟨back, rfl⟩ (Nat.not_lt.mp within)
      rw [List.append_assoc] at same
      obtain ⟨before, other, after, inner, rfl, rfl, within'⟩ :=
        ih (List.append_cancel_left same)
      refine ⟨piece :: before, other, after, inner, rfl, ?_, within'⟩
      rw [textOf_cons, List.append_assoc]

/-! ### The order of tokens -/

theorem before_behind {text : List Char} (some : text ≠ []) (p : Position) :
    p.Before (behind p text) := by
  induction text generalizing p with
  | nil => exact absurd rfl some
  | cons c rest ih =>
    cases rest with
    | nil => exact p.before_advance c
    | cons d rest =>
      exact (p.before_advance c).trans (ih (List.cons_ne_nil d rest) (p.advance c))

/-- Tokens that stand one behind the other. -/
def InOrder (tokens : List Token) : Prop :=
  tokens.Pairwise fun a b => a.position.Before b.position

theorem Scanned.inOrder {back : List Char} {pieces : List Piece} (h : Scanned back pieces)
    (p : Position) : InOrder (placed p pieces) ∧
      ∀ token ∈ placed p pieces, token.position = p ∨ p.Before token.position := by
  induction h generalizing p with
  | nil => exact ⟨List.Pairwise.nil, List.forall_mem_nil _⟩
  | @cons piece rest some _ _ ih =>
    obtain ⟨ordered, later⟩ := ih (behind p piece.text)
    have first := before_behind some p
    have others : ∀ token ∈ placed (behind p piece.text) rest, p.Before token.position := by
      intro token isIn
      rcases later token isIn with here | further
      · rwa [here]
      · exact first.trans further
    cases isLexeme : piece.lexeme? with
    | none =>
      rw [placed, isLexeme]
      exact ⟨ordered, fun token isIn => .inr (others token isIn)⟩
    | some lexeme =>
      rw [placed, isLexeme]
      refine ⟨List.pairwise_cons.mpr ⟨others, ordered⟩, ?_⟩
      exact List.forall_mem_cons.mpr ⟨.inl rfl, fun token isIn => .inr (others token isIn)⟩

/-- The tokens of a text stand one behind the other. -/
theorem tokensFrom_inOrder {text : List Char} {p : Position} {tokens : List Token}
    (h : tokensFrom 0 p text = .ok tokens) : InOrder tokens := by
  obtain ⟨pieces, -, scanned, rfl⟩ := scanned_of_tokens h
  exact (scanned.inOrder p).1

end Formulary.Lexer
