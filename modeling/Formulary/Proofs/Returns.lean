/-
Which bodies return by themselves.

Whether a body is a block of statements is told by a `return` that stands free among its
characters. The keyword of the lexer and such a word are not the same: the keyword need not have a
boundary character on either side, and a word may stand free in a literal or in a comment.

* `floating_inNumeral`, `integer_inNumeral` — the characters that numerals are made of.
* `Finds.open_or_covers` — what has a boundary character and a letter behind it is a literal or a
  comment.
* `scanned_return` — where a `return` that stands free is found.
* `Source.explicitReturn_iff` — which bodies are kept as they are.
-/

import Formulary.Proofs.FreeWords
import Formulary.Proofs.Scanning

namespace Formulary.Lexer

/-! ### What numerals are made of -/

/-- A character that a numeral may have: of its digits, its sign, its point and its letters. -/
def inNumeral (c : Char) : Bool :=
  isDigit c || isHexDigit c || ['.', '+', '-', 'x', 'X', 'l', 'L'].contains c

theorem take_takeWhile (p : Char → Bool) (text : List Char) :
    text.take (text.takeWhile p).length = text.takeWhile p :=
  (List.prefix_iff_eq_take.mp (List.takeWhile_prefix p)).symm

theorem drop_takeWhile (p : Char → Bool) (text : List Char) :
    text.drop (text.takeWhile p).length = text.dropWhile p := by
  have whole : (text.takeWhile p ++ text.dropWhile p).drop (text.takeWhile p).length =
      text.dropWhile p := List.drop_left
  rwa [List.takeWhile_append_dropWhile] at whole

theorem digits_inNumeral (text : List Char) :
    (text.take (digitsLength text)).all inNumeral = true := by
  rw [digitsLength, take_takeWhile, List.all_eq_true]
  intro c isIn
  have isDigit := List.all_eq_true.mp List.all_takeWhile c isIn
  simp [inNumeral, isDigit]

theorem oneOf_inNumeral {letters : List Char} (h : letters.all inNumeral = true)
    (text : List Char) : (text.take (oneOf letters text)).all inNumeral = true := by
  cases text with
  | nil => rfl
  | cons c rest =>
    rw [oneOf]
    split
    · next isIn =>
      have part := List.all_eq_true.mp h c (List.contains_iff_mem.mp isIn)
      simpa using part
    · rfl

theorem take_add_inNumeral {text : List Char} {front back : Nat}
    (h : (text.take front).all inNumeral = true)
    (h' : ((text.drop front).take back).all inNumeral = true) :
    (text.take (front + back)).all inNumeral = true := by
  rw [List.take_add, List.all_append, h, h']
  rfl

theorem sign_inNumeral (text : List Char) :
    (text.take (signLength text)).all inNumeral = true := by
  cases text with
  | nil => rfl
  | cons c rest =>
    rw [signLength]
    split
    · next isSign =>
      simp only [Bool.or_eq_true, decide_eq_true_eq] at isSign
      rcases isSign with rfl | rfl <;> rfl
    · rfl

theorem exponent_inNumeral (text : List Char) :
    (text.take (exponentLength text)).all inNumeral = true := by
  cases text with
  | nil => rfl
  | cons letter rest =>
    rw [exponentLength_cons]
    split
    · next isLetter =>
      split
      · rfl
      · rw [Nat.add_assoc]
        refine @take_add_inNumeral _ 1 _ ?_
          (take_add_inNumeral (sign_inNumeral rest) (digits_inNumeral _))
        simp only [Bool.or_eq_true, decide_eq_true_eq] at isLetter
        rcases isLetter with rfl | rfl <;> rfl
    · rfl

theorem fraction_inNumeral (whole : Nat) (text : List Char) :
    (text.take (fractionLength whole text)).all inNumeral = true := by
  unfold fractionLength
  split
  · next rest =>
    split
    · rfl
    · exact @take_add_inNumeral _ 1 _ rfl (digits_inNumeral rest)
  · rfl

theorem floating_inNumeral {text : List Char} {length : Nat}
    (h : floatingLength? text = some length) : (text.take length).all inNumeral = true := by
  rw [floatingLength_eq] at h
  simp only [floatingFrom?, Option.ite_none_left_eq_some, Option.some.injEq] at h
  obtain ⟨-, -, rfl⟩ := h
  refine take_add_inNumeral (take_add_inNumeral (take_add_inNumeral (digits_inNumeral text)
    (fraction_inNumeral _ _)) (exponent_inNumeral _)) (oneOf_inNumeral (by decide) _)

theorem hex_inNumeral (text : List Char) (some : hexLength text ≠ 0) :
    (text.take (2 + hexLength text)).all inNumeral = true := by
  unfold hexLength at some ⊢
  split at some
  · next x rest =>
    split at some
    · next isHex =>
      rw [if_pos isHex]
      refine @take_add_inNumeral _ 2 _ ?_ ?_
      · simp only [Bool.or_eq_true, decide_eq_true_eq] at isHex
        rcases isHex with rfl | rfl <;> rfl
      · rw [List.drop_succ_cons, List.drop_one, List.tail_cons, take_takeWhile, List.all_eq_true]
        intro c isIn
        have isDigit := List.all_eq_true.mp List.all_takeWhile c isIn
        simp [inNumeral, isDigit]
    · exact absurd rfl some
  · exact absurd rfl some

theorem integer_inNumeral {text : List Char} {length : Nat}
    (h : integerLength? text = some length) : (text.take length).all inNumeral = true := by
  rw [integerLength_eq] at h
  simp only [Option.ite_none_left_eq_some, Option.some.injEq] at h
  obtain ⟨-, rfl⟩ := h
  refine take_add_inNumeral ?_ (oneOf_inNumeral (by decide) _)
  split
  · exact digits_inNumeral text
  · next some => exact hex_inNumeral text some


/-! ### Literals and comments -/

open Text (bounds isBoundary Plain)
open Source (returnWord)

/-- A literal or a comment at the start of a text. -/
inductive Covers (text : List Char) : Option Lexeme → Nat → Prop
  | string {length : Nat} (h : stringLength? text = some length) :
      Covers text (some (.string (text.take length))) length
  | character {length : Nat} (h : characterLength? text = some length) :
      Covers text (some (.character (text.take length))) length
  | comment {length : Nat} (h : commentLength? text = some length) : Covers text none length

/-- The characters that literals and comments begin with, and that all of them but a comment up
to the end of its line end with. -/
def coverMarks : List Char := ['"', '\'', '/']

theorem quoted_marks {text : List Char} (h : Text.Quoted text) :
    (∃ c rest, text = c :: rest ∧ c ∈ coverMarks) ∧
      ∃ front c, text = front ++ [c] ∧ c ∈ coverMarks := by
  obtain ⟨q, inner, isQuote, rfl⟩ := h
  have isMark : q ∈ coverMarks := by
    rcases isQuote with rfl | rfl <;> decide
  exact ⟨⟨q, _, rfl, isMark⟩, q :: inner, q, rfl, isMark⟩

theorem blockRest_ends {text : List Char} {length : Nat} (h : blockRest? text = some length) :
    ∃ front, text.take length = front ++ ['*', '/'] := by
  induction text using blockRest?.induct generalizing length with
  | case1 rest =>
    cases h
    exact ⟨[], rfl⟩
  | case2 c rest noEnd ih =>
    rw [blockRest?.eq_2 _ _ noEnd] at h
    obtain ⟨length, isLength, rfl⟩ := Option.map_eq_some_iff.mp h
    obtain ⟨front, ends⟩ := ih isLength
    exact ⟨c :: front, by rw [List.take_succ_cons, ends, List.cons_append]⟩
  | case3 => cases h

theorem comment_starts {text : List Char} {length : Nat} (h : commentLength? text = some length) :
    ∃ rest, text.take length = '/' :: rest := by
  unfold commentLength? at h
  split at h
  · cases h
    exact ⟨_, rfl⟩
  · obtain ⟨length, -, rfl⟩ := Option.map_eq_some_iff.mp h
    exact ⟨_, rfl⟩
  · cases h

/-- A comment ends with a slash, or the end of its line or of the text is behind it. -/
theorem comment_ends {text : List Char} {length : Nat} (h : commentLength? text = some length) :
    (∃ front, text.take length = front ++ ['/']) ∨
      (text.drop length).head? = none ∨ (text.drop length).head? = some '\n' := by
  unfold commentLength? at h
  split at h
  · next rest =>
    cases h
    right
    have stops := List.head?_dropWhile_not (· != '\n') rest
    rw [List.drop_succ_cons, List.drop_succ_cons, drop_takeWhile]
    cases behind : (rest.dropWhile (· != '\n')).head? with
    | none => exact .inl rfl
    | some c =>
      rw [behind] at stops
      exact .inr (congrArg some (by simpa using stops))
  · next rest =>
    obtain ⟨length, isLength, rfl⟩ := Option.map_eq_some_iff.mp h
    obtain ⟨front, ends⟩ := blockRest_ends isLength
    exact .inl ⟨'/' :: '*' :: (front ++ ['*']), by
      rw [List.take_succ_cons, List.take_succ_cons, ends]
      simp⟩
  · cases h

theorem Covers.starts {text : List Char} {lexeme? : Option Lexeme} {length : Nat}
    (h : Covers text lexeme? length) : ∃ c rest, text.take length = c :: rest ∧ c ∈ coverMarks := by
  cases h with
  | string h => exact (quoted_marks (stringLength_quoted h)).1
  | character h => exact (quoted_marks (characterLength_quoted h)).1
  | comment h =>
    obtain ⟨rest, starts⟩ := comment_starts h
    exact ⟨'/', rest, starts, by decide⟩

theorem Covers.ends {text : List Char} {lexeme? : Option Lexeme} {length : Nat}
    (h : Covers text lexeme? length) :
    (∃ front c, text.take length = front ++ [c] ∧ c ∈ coverMarks) ∨
      (text.drop length).head? = none ∨ (text.drop length).head? = some '\n' := by
  cases h with
  | string h => exact .inl (quoted_marks (stringLength_quoted h)).2
  | character h => exact .inl (quoted_marks (characterLength_quoted h)).2
  | comment h =>
    refine (comment_ends h).imp_left ?_
    rintro ⟨front, ends⟩
    exact ⟨front, '/', ends, by decide⟩

theorem Wordlike.plain_take {text : List Char} {length : Nat} (h : nameLength? text = some length) :
    Plain (text.take length) := by
  cases text with
  | nil => cases h
  | cons c rest =>
    simp only [nameLength?, Option.ite_none_right_eq_some, Option.some.injEq] at h
    obtain ⟨begins, rfl⟩ := h
    refine Substitution.Wordlike.plain fun d isIn => ?_
    rw [List.take_succ_cons, take_takeWhile] at isIn
    rcases List.mem_cons.mp isIn with rfl | isIn
    · simp [isNamePart, begins]
    · exact List.all_eq_true.mp List.all_takeWhile d isIn

/-- A literal that is found covers its spelling. -/
theorem Finds.covers_literal {text spelling : List Char} {lexeme : Lexeme} {length : Nat}
    (h : Finds text (some lexeme) length) (isLiteral : literal? lexeme = some spelling) :
    Covers text (some lexeme) length ∧ spelling = text.take length := by
  cases h with
  | string h => exact ⟨.string h, (Option.some.inj isLiteral).symm⟩
  | character h => exact ⟨.character h, (Option.some.inj isLiteral).symm⟩
  | word h =>
    unfold wordLexeme at isLiteral
    dsimp only at isLiteral
    split at isLiteral <;> cases isLiteral
  | floating | integer | symbol => cases isLiteral

/-- What is found at the start of a text has no `r` or no boundary character, unless it is a literal
or a comment. -/
theorem Finds.open_or_covers {text : List Char} {lexeme? : Option Lexeme} {length : Nat}
    (h : Finds text lexeme? length) :
    'r' ∉ text.take length ∨ Plain (text.take length) ∨ Covers text lexeme? length := by
  have absent {p : Char → Bool} (none : p 'r' = false) (h : (text.take length).all p = true) :
      'r' ∉ text.take length := by
    intro isIn
    have part := List.all_eq_true.mp h 'r' isIn
    rw [none] at part
    cases part
  cases h with
  | floating h => exact .inl (absent (by decide) (floating_inNumeral h))
  | integer h => exact .inl (absent (by decide) (integer_inNumeral h))
  | space h =>
    simp only [spaceLength?, Option.ite_none_left_eq_some, Option.some.injEq] at h
    obtain ⟨-, rfl⟩ := h
    refine .inl (absent (p := isSpace) (by decide) ?_)
    rw [take_takeWhile]
    exact List.all_takeWhile
  | comment h => exact .inr (.inr (.comment h))
  | string h => exact .inr (.inr (.string h))
  | character h => exact .inr (.inr (.character h))
  | word h => exact .inr (.inl (Wordlike.plain_take h))
  | symbol h =>
    obtain ⟨isIn, begins⟩ := symbolAt_prefix h
    have noLetter : ∀ symbol ∈ Symbol.all, 'r' ∉ symbol.text.toList := by decide
    have same := List.prefix_iff_eq_take.mp begins
    rw [String.length_toList] at same
    exact .inl (same ▸ noLetter _ isIn)

/-! ### The word in literals and comments -/

open Text (containsFree runs mem_runs)

theorem returnWord_some : returnWord ≠ [] := by decide

theorem returnWord_plain : Plain returnWord := by decide

theorem returnWord_unmarked {c : Char} (h : c ∈ returnWord) : c ∉ coverMarks ∧ c ≠ '\n' := by
  have all : returnWord.all (fun c => !coverMarks.contains c && c != '\n') = true := by decide
  simpa using List.all_eq_true.mp all c h

/-- What stands free in a literal or a comment stands free in the text around it. -/
theorem Covers.run {text : List Char} {lexeme? : Option Lexeme} {length : Nat}
    (h : Covers text lexeme? length) (isRun : returnWord ∈ runs (text.take length))
    (front : List Char) : returnWord ∈ runs (front ++ text) := by
  obtain ⟨-, -, before, behind, split, starts, ends⟩ := mem_runs.mp isRun
  have whole : text = before ++ returnWord ++ behind ++ text.drop length := by
    rw [← split, List.take_append_drop]
  refine mem_runs.mpr ⟨returnWord_some, returnWord_plain, front ++ before,
    behind ++ text.drop length, ?_, ?_, ?_⟩
  · conv_lhs => rw [whole]
    simp
  · cases before with
    | cons c before => rwa [List.getLast?_append_cons]
    | nil =>
      obtain ⟨c, rest, first, isMark⟩ := h.starts
      rw [first] at split
      obtain rfl : c = 'r' := (List.cons.inj split).1
      exact absurd isMark (by decide)
  · cases behind with
    | cons c behind => exact ends
    | nil =>
      rw [List.nil_append]
      rcases h.ends with ⟨others, c, last, isMark⟩ | none | line
      · -- The last character would be one of the word.
        have isLast : (before ++ returnWord).getLast? = some c := by
          rw [← List.append_nil (before ++ returnWord), ← split, last, List.getLast?_concat]
        have isIn : c ∈ returnWord := by
          rw [List.getLast?_append_of_ne_nil _ returnWord_some] at isLast
          exact List.mem_of_getLast? isLast
        exact absurd isMark (returnWord_unmarked isIn).1
      · rw [none]
        rfl
      · rw [line]
        rfl

/-- A word that starts in a piece of a text ends in it or goes on behind it. -/
theorem split_word {piece rest front word back : List Char}
    (same : piece ++ rest = front ++ word ++ back) (within : front.length < piece.length) :
    (∃ outer, piece = front ++ word ++ outer ∧ back = outer ++ rest) ∨
      ∃ first second, first ≠ [] ∧ second ≠ [] ∧ word = first ++ second ∧
        piece = front ++ first ∧ rest = second ++ back := by
  rcases List.append_eq_append_iff.mp same with ⟨outer, longer, others⟩ | ⟨outer, shorter, others⟩
  · -- The piece ends within the word or right behind it.
    rcases List.append_eq_append_iff.mp longer with ⟨first, rfl, rfl⟩ | ⟨more, rfl, -⟩
    · cases outer with
      | nil => exact .inl ⟨[], by simp, others.symm⟩
      | cons c outer =>
        refine .inr ⟨first, c :: outer, ?_, List.cons_ne_nil _ _, rfl, rfl, others⟩
        rintro rfl
        simp at within
    · simp only [List.length_append] at within
      omega
  · exact .inl ⟨outer, shorter, others⟩

/-- In front of a boundary character, the word is the keyword. -/
theorem scan_return {back : List Char} (ends : bounds back.head? = true) :
    scan (returnWord ++ back) = some (some (.keyword .returnWord), returnWord.length) := by
  refine scan_word (by decide) (List.all_eq_true.mp (by decide)) fun c more first => ?_
  rw [first] at ends
  refine Bool.eq_false_iff.mpr fun isPart => ?_
  have wordlike : Substitution.Wordlike [c] := by
    intro d isIn
    rwa [List.mem_singleton.mp isIn]
  have inner := wordlike.plain c List.mem_cons_self
  rw [List.head?_cons, bounds, inner] at ends
  cases ends

/-- A `return` that stands free and does not begin the piece that it begins in stands free within
it, and the piece is a literal or a comment. -/
theorem Finds.covers_return {piece rest inner back : List Char} {lexeme? : Option Lexeme}
    (found : Finds (piece ++ rest) lexeme? piece.length)
    (same : piece ++ rest = inner ++ returnWord ++ back) (within : inner.length < piece.length)
    (some : inner ≠ []) (starts : bounds inner.getLast? = true)
    (ends : bounds back.head? = true) :
    Covers (piece ++ rest) lexeme? piece.length ∧ returnWord ∈ runs piece := by
  have whole : (piece ++ rest).take piece.length = piece := List.take_left
  have atEnd : (piece ++ rest).drop piece.length = rest := List.drop_left
  have parts := split_word same within
  -- The piece has the boundary character in front of the word and the first letter of the word.
  obtain ⟨more, isPiece⟩ : ∃ more, piece = inner ++ 'r' :: more := by
    rcases parts with ⟨outer, isPiece, -⟩ | ⟨first, second, some', -, isWord, isPiece, -⟩
    · exact ⟨"eturn".toList ++ outer, by rw [isPiece, List.append_assoc]; rfl⟩
    · obtain ⟨c, first, rfl⟩ := List.exists_cons_of_ne_nil some'
      obtain rfl : 'r' = c := (List.cons.inj isWord).1
      exact ⟨first, isPiece⟩
  have covers : Covers (piece ++ rest) lexeme? piece.length := by
    have kinds := found.open_or_covers
    rw [whole] at kinds
    rcases kinds with noLetter | plain | covers
    · rw [isPiece] at noLetter
      simp at noLetter
    · have last : inner.getLast some ∈ piece := by
        rw [isPiece]
        exact List.mem_append_left _ (List.getLast_mem some)
      rw [List.getLast?_eq_some_getLast some, bounds, plain _ last] at starts
      cases starts
    · exact covers
  refine ⟨covers, ?_⟩
  rcases parts with
    ⟨outer, isPiece, isBack⟩ | ⟨first, second, some', some'', isWord, isPiece, isRest⟩
  · refine mem_runs.mpr ⟨returnWord_some, returnWord_plain, inner, outer, isPiece, starts, ?_⟩
    cases outer with
    | nil => rfl
    | cons c outer =>
      rw [isBack] at ends
      exact ends
  · -- A literal or a comment does not end within the word.
    exfalso
    rcases covers.ends with ⟨others, c, last, isMark⟩ | none | line
    · rw [whole, isPiece] at last
      have isLast : first.getLast? = .some c := by
        rw [← List.getLast?_append_of_ne_nil inner some', last, List.getLast?_concat]
      have isIn : c ∈ returnWord := by
        rw [isWord]
        exact List.mem_append_left _ (List.mem_of_getLast? isLast)
      exact (returnWord_unmarked isIn).1 isMark
    · rw [atEnd, isRest, List.head?_eq_none_iff] at none
      exact some'' (List.append_eq_nil_iff.mp none).1
    · obtain ⟨c, second, rfl⟩ := List.exists_cons_of_ne_nil some''
      rw [atEnd, isRest] at line
      obtain rfl : c = '\n' := Option.some.inj line
      have isIn : '\n' ∈ returnWord := by
        rw [isWord]
        simp
      exact (returnWord_unmarked isIn).2 rfl

/-- **A `return` that stands free** in a text is the keyword, or it stands free in a literal or a
comment. -/
theorem scanned_return {pieces : List Piece} (scanned : Scanned [] pieces)
    {front back : List Char} (same : textOf pieces = front ++ returnWord ++ back)
    (starts : bounds front.getLast? = true) (ends : bounds back.head? = true) :
    ∃ before piece after, pieces = before ++ piece :: after ∧
      (front = textOf before ∧ piece.lexeme? = some (.keyword .returnWord) ∨
        Covers (piece.text ++ textOf after) piece.lexeme? piece.text.length ∧
          returnWord ∈ runs piece.text) := by
  rw [List.append_assoc] at same
  have some : returnWord ++ back ≠ [] := by simp [returnWord_some]
  obtain ⟨before, piece, after, inner, rfl, rfl, within⟩ := exists_piece some same
  refine ⟨before, piece, after, rfl, ?_⟩
  rw [textOf_append, textOf_cons, List.append_assoc] at same
  have word := List.append_cancel_left same
  cases scanned.split.2 with
  | cons _ found =>
    rw [List.append_nil] at found
    cases inner with
    | nil =>
      left
      rw [word, List.nil_append, scan_return ends] at found
      exact ⟨List.append_nil _, (Prod.mk.inj (Option.some.inj found)).1.symm⟩
    | cons d inner =>
      right
      rw [List.getLast?_append_cons] at starts
      rw [← List.append_assoc] at word
      exact (scan_finds found).covers_return word within (List.cons_ne_nil d inner) starts ends

/-! ### Tokens and comments of a text -/

theorem mem_placed {token : Token} {p : Position} {pieces : List Piece} :
    token ∈ placed p pieces ↔ ∃ before piece after, pieces = before ++ piece :: after ∧
      piece.lexeme? = some token.lexeme ∧ token.position = behind p (textOf before) := by
  induction pieces generalizing p with
  | nil => simp [placed]
  | cons piece rest ih =>
    rw [placed, List.mem_append, ih]
    constructor
    · rintro (isFirst | ⟨before, other, after, rfl, isLexeme, isPlace⟩)
      · rw [Option.mem_toList] at isFirst
        obtain ⟨lexeme, isLexeme, rfl⟩ := Option.map_eq_some_iff.mp isFirst
        exact ⟨[], piece, rest, rfl, isLexeme, rfl⟩
      · refine ⟨piece :: before, other, after, rfl, isLexeme, ?_⟩
        rw [isPlace, textOf_cons, behind_append]
    · rintro ⟨before, other, after, same, isLexeme, isPlace⟩
      cases before with
      | nil =>
        obtain ⟨rfl, rfl⟩ := List.cons.inj same
        left
        rw [isLexeme, Option.map_some, Option.mem_toList]
        rw [textOf_nil] at isPlace
        obtain ⟨lexeme, position⟩ := token
        exact congrArg (fun q => some (Token.mk lexeme q)) isPlace.symm
      | cons first before =>
        obtain ⟨rfl, rfl⟩ := List.cons.inj same
        right
        refine ⟨before, other, after, rfl, isLexeme, ?_⟩
        rw [isPlace, textOf_cons, behind_append]

/-- A token of a text whose neighbours are boundary characters or the ends of the text. -/
def StandsFree (text : List Char) (token : Token) : Prop :=
  ∃ front back, text = front ++ token.lexeme.chars ++ back ∧
    token.position = behind Position.start front ∧
      bounds front.getLast? = true ∧ bounds back.head? = true

/-- A comment of a text: it is found where the pieces in front of it end. -/
def HasComment (text comment : List Char) : Prop :=
  ∃ front back, Scanned (comment ++ back) front ∧ text = textOf front ++ (comment ++ back) ∧
    commentLength? (comment ++ back) = some comment.length

end Formulary.Lexer

namespace Formulary.Source

open Lexer (HasComment StandsFree literal?)
open Text (containsFree)

/-- **Which bodies return by themselves.** A body that can be cut into tokens is kept as a block of
statements exactly if one of its tokens is the keyword `return` with boundary characters or the
ends of the body beside it, or if `return` stands free in one of its literals or comments. -/
theorem explicitReturn_iff {body : List Char} {tokens : List Token}
    (lexes : Lexer.tokens body = .ok tokens) (returnType : List Char) :
    (ofBody body returnType).explicitReturn = true ↔
      (∃ token ∈ tokens, token.lexeme = .keyword .returnWord ∧ StandsFree body token) ∨
      (∃ token ∈ tokens, ∃ spelling, literal? token.lexeme = some spelling ∧
        containsFree returnWord spelling = true) ∨
      ∃ comment, HasComment body comment ∧ containsFree returnWord comment = true := by
  have isRun (text : List Char) := Text.containsFree_iff Lexer.returnWord_some
    Lexer.returnWord_plain text
  have explicit : (ofBody body returnType).explicitReturn = containsFree returnWord body := by
    rw [ofBody]
    split
    · next free => exact free.symm
    · next bound => exact (Bool.eq_false_iff.mpr bound).symm
  obtain ⟨pieces, rfl, scanned, rfl⟩ := Lexer.scanned_of_tokens lexes
  rw [explicit, isRun]
  constructor
  · intro free
    obtain ⟨-, -, front, back, split, starts, ends⟩ := Text.mem_runs.mp free
    obtain ⟨before, piece, after, rfl, ⟨rfl, isKeyword⟩ | ⟨covers, inside⟩⟩ :=
      Lexer.scanned_return scanned split starts ends
    · refine .inl ⟨⟨.keyword .returnWord, Lexer.behind Position.start (Lexer.textOf before)⟩,
        Lexer.mem_placed.mpr ⟨before, piece, after, rfl, isKeyword, rfl⟩, rfl, ?_⟩
      exact ⟨Lexer.textOf before, back, split, rfl, starts, ends⟩
    · right
      have whole : (piece.text ++ Lexer.textOf after).take piece.text.length = piece.text :=
        List.take_left
      have literal {lexeme : Lexeme} (isLexeme : piece.lexeme? = some lexeme)
          (isLiteral : literal? lexeme = some piece.text) :
          ∃ token ∈ Lexer.placed Position.start (before ++ piece :: after), ∃ spelling,
            literal? token.lexeme = some spelling ∧ containsFree returnWord spelling = true :=
        ⟨⟨lexeme, _⟩, Lexer.mem_placed.mpr ⟨before, piece, after, rfl, isLexeme, rfl⟩,
          piece.text, isLiteral, (isRun _).mpr inside⟩
      generalize isLexeme : piece.lexeme? = lexeme? at covers
      generalize isLength : piece.text.length = length at covers
      cases covers with
      | string =>
        refine .inl (literal isLexeme ?_)
        rw [← isLength, whole]
        rfl
      | character =>
        refine .inl (literal isLexeme ?_)
        rw [← isLength, whole]
        rfl
      | comment isComment =>
        have parts := scanned.split
        refine .inr ⟨piece.text, ⟨before, Lexer.textOf after, ?_, ?_, ?_⟩, (isRun _).mpr inside⟩
        · simpa using parts.1
        · rw [Lexer.textOf_append, Lexer.textOf_cons]
        · rw [isComment, isLength]
  · rintro (⟨token, -, isKeyword, front, back, split, -, starts, ends⟩ |
      ⟨token, isIn, spelling, isLiteral, free⟩ |
      ⟨comment, ⟨front, back, -, split, isComment⟩, free⟩)
    · rw [isKeyword] at split
      exact Text.mem_runs.mpr ⟨Lexer.returnWord_some, Lexer.returnWord_plain, front, back, split,
        starts, ends⟩
    · obtain ⟨before, piece, after, rfl, isLexeme, -⟩ := Lexer.mem_placed.mp isIn
      cases scanned.split.2 with
      | cons _ found =>
        rw [List.append_nil, isLexeme] at found
        obtain ⟨covers, isPiece⟩ := (Lexer.scan_finds found).covers_literal isLiteral
        rw [Lexer.textOf_append, Lexer.textOf_cons]
        refine covers.run ?_ _
        rw [← isPiece]
        exact (isRun _).mp free
    · rw [split]
      refine (Lexer.Covers.comment isComment).run ?_ _
      rw [List.take_left]
      exact (isRun _).mp free


/-- A literal with the word in it. -/
def spokenReturn : List Char := "\"a return b\"".toList

/-- It is kept for the word alone, as it has no other token. -/
theorem spokenReturn_explicit :
    Lexer.tokens spokenReturn = .ok [⟨.string spokenReturn, Position.start⟩] ∧
      (ofBody spokenReturn "String".toList).explicitReturn = true := by
  have lexes : Lexer.tokens spokenReturn = .ok [⟨.string spokenReturn, Position.start⟩] := by rfl
  refine ⟨lexes, (explicitReturn_iff lexes _).mpr (.inr (.inl ?_))⟩
  exact ⟨_, List.mem_cons_self, spokenReturn, rfl, by decide⟩

/-- The keyword in front of an operator. -/
def negatedReturn : List Char := "return!x;".toList

/-- **The keyword is not what is looked for:** a body without it may be kept, and a body with it may
be taken for an expression. -/
theorem keyword_disagrees :
    (Lexer.tokens spokenReturn = .ok [⟨.string spokenReturn, Position.start⟩] ∧
      (ofBody spokenReturn "String".toList).explicitReturn = true) ∧
    (∃ tokens, Lexer.tokens negatedReturn = .ok tokens ∧
      (∃ token ∈ tokens, token.lexeme = .keyword .returnWord) ∧
      (ofBody negatedReturn "boolean".toList).explicitReturn = false) := by
  constructor
  · exact ⟨by rfl, by decide⟩
  · refine ⟨[⟨.keyword .returnWord, ⟨1, 1⟩⟩, ⟨.symbol .bang, ⟨1, 7⟩⟩, ⟨.name "x", ⟨1, 8⟩⟩,
      ⟨.symbol .semicolon, ⟨1, 9⟩⟩], by decide +kernel, ?_, by decide⟩
    exact ⟨_, List.mem_cons_self, rfl⟩

end Formulary.Source
