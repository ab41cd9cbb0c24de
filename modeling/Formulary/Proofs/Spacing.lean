/-
Spacing between tokens.

Spacing is white space, or a space with a comment behind it. It may be put into a source wherever a
token begins or ends: no token in front goes on into a blank, nor does a comment, and what stands
behind is cut as before. A body is read off the lexemes, so that it stays the same but for its
positions.

* `Spacing`, `AtToken` — spacing, and the places beside tokens.
* `lexemes_scanned_blank` — pieces in front of a blank.
* `AtToken.split` — beside a token the pieces fall into two rows.
* `readBody_elsewhere` — texts with the same lexemes are read as the same body.
* `readBody_spacing` — and so is a source with more spacing.
-/

import Formulary.Proofs.DivisionSigns
import Formulary.Proofs.FilledTrees
import Formulary.Proofs.MaximalMunch

namespace Formulary

namespace Lexer

open Fold (IsStar Parted)
open Slots (lexemesFrom lexemesFrom_piece scan_comment symbolAt_head)

/-! ### Spacing -/

/-- Texts without a token: white space, and a space with a block comment behind it, or with a
comment up to the end of its line. -/
inductive Spacing : List Char → Prop
  | blanks {text : List Char} : (∀ c ∈ text, isSpace c = true) → Spacing text
  | block {inner : List Char} : ¬['*', '/'] <:+: inner ++ ['*'] →
      Spacing (' ' :: '/' :: '*' :: (inner ++ ['*', '/']))
  | line {inner : List Char} : '\n' ∉ inner → Spacing (' ' :: '/' :: '/' :: (inner ++ ['\n']))

theorem lexemesFrom_blanks {blanks : List Char} (h : ∀ c ∈ blanks, isSpace c = true)
    (p : Position) (back : List Char) :
    lexemesFrom p (blanks ++ back) = lexemesFrom (behind p blanks) back := by
  induction blanks generalizing p with
  | nil => rfl
  | cons c blanks ih =>
    obtain ⟨isBlank, others⟩ := List.forall_mem_cons.mp h
    rw [List.cons_append, lexemesFrom, tokensFrom_space isBlank]
    exact ih others (p.advance c)

/-- A block comment ends at the first end of one. -/
theorem blockRest_closed {inner : List Char} (h : ¬['*', '/'] <:+: inner ++ ['*'])
    (rest : List Char) :
    blockRest? (inner ++ '*' :: '/' :: rest) = some (inner.length + 2) := by
  induction inner with
  | nil => rfl
  | cons c inner ih =>
    have goesOn : c = '*' → (inner ++ '*' :: '/' :: rest).head? ≠ some '/' := by
      rintro rfl isSlash
      cases inner with
      | nil => cases isSlash
      | cons d inner =>
        obtain rfl : d = '/' := Option.some.inj isSlash
        exact h ⟨[], inner ++ ['*'], rfl⟩
    rw [List.cons_append, blockRest_cons goesOn,
      ih fun isIn => h (isIn.trans (List.suffix_cons c _).isInfix)]
    rfl

theorem lexemesFrom_comment {comment back : List Char}
    (h : commentLength? (comment ++ back) = some comment.length) (p : Position) :
    lexemesFrom p (comment ++ back) = lexemesFrom (behind p comment) back := by
  obtain ⟨inner, starts⟩ := comment_starts h
  rw [List.take_left] at starts
  subst starts
  rw [lexemesFrom_piece (List.cons_ne_nil _ _) (scan_comment h)]
  cases lexemesFrom (behind p ('/' :: inner)) back <;> rfl

/-- **Spacing gives no token**, whatever stands behind it. -/
theorem Spacing.lexemes {spacing : List Char} (h : Spacing spacing) (p : Position)
    (back : List Char) :
    lexemesFrom p (spacing ++ back) = lexemesFrom (behind p spacing) back := by
  -- In front of a comment stands a blank.
  have spaced (text : List Char) :
      lexemesFrom p (' ' :: text) = lexemesFrom (p.advance ' ') text :=
    @lexemesFrom_blanks [' '] (List.forall_mem_singleton.mpr rfl) p text
  cases h with
  | blanks h => exact lexemesFrom_blanks h p back
  | @block inner h =>
    have length : commentLength? ('/' :: '*' :: (inner ++ ['*', '/']) ++ back) =
        some ('/' :: '*' :: (inner ++ ['*', '/'])).length := by
      simp [commentLength?, blockRest_closed h]
    exact (spaced _).trans (lexemesFrom_comment length (p.advance ' '))
  | @line inner h =>
    have others : ∀ c ∈ inner, (c != '\n') = true := by
      intro c isIn
      simpa using fun same : c = '\n' => h (same ▸ isIn)
    have stops : Ends (· != '\n') ('\n' :: back) := ends_cons rfl
    have length : commentLength? ('/' :: '/' :: inner ++ '\n' :: back) =
        some ('/' :: '/' :: inner).length := by
      rw [List.cons_append, List.cons_append, commentLength?, takeWhile_ends others stops]
      rfl
    have comment := lexemesFrom_comment length (p.advance ' ')
    have ending := @lexemesFrom_blanks ['\n'] (List.forall_mem_singleton.mpr rfl)
      (behind (p.advance ' ') ('/' :: '/' :: inner)) back
    rw [← behind_append] at ending
    have whole : (' ' :: '/' :: '/' :: (inner ++ ['\n'])) ++ back =
        ' ' :: ('/' :: '/' :: inner ++ '\n' :: back) := by simp
    rw [whole, spaced, comment]
    exact ending

/-! ### Pieces in front of a blank -/

/-- What gives no token is blank, or it is a comment. -/
theorem blank_or_comment {text : List Char} {length : Nat} (h : scan text = some (none, length)) :
    (∀ c ∈ text.take length, isSpace c = true) ∨ commentLength? text = some length := by
  have finds := scan_finds h
  generalize isNone : (none : Option Lexeme) = lexeme? at finds
  cases finds with
  | space found =>
    simp only [spaceLength?, Option.ite_none_left_eq_some, Option.some.injEq] at found
    obtain ⟨-, rfl⟩ := found
    rw [take_takeWhile]
    exact .inl fun c isIn => List.mem_takeWhile_imp isIn
  | comment found => exact .inr found
  | _ => cases isNone

/-- What begins like nothing else is a symbol. -/
theorem symbol_of_scan {c : Char} {rest : List Char} {lexeme : Lexeme} {length : Nat}
    (h : scan (c :: rest) = some (some lexeme, length)) (noDigit : isDigit c = false)
    (noPoint : c ≠ '.') (noName : isNameStart c = false) (noQuote : c ≠ '"') (noMark : c ≠ '\'') :
    ∃ symbol, symbolAt? (c :: rest) = some symbol ∧ lexeme = .symbol symbol ∧
      length = symbol.text.length := by
  obtain ⟨noSpace, noComment⟩ := begins_of_scan h
  have noWord : nameLength? (c :: rest) = none := by simp [nameLength?, noName]
  rw [scan_other noDigit (fun isPoint => absurd isPoint noPoint) noSpace noComment,
    stringLength_none noQuote, characterLength_none noMark, noWord] at h
  obtain ⟨symbol, found, same⟩ := Option.map_eq_some_iff.mp h
  obtain ⟨isLexeme, rfl⟩ := Prod.mk.inj same
  exact ⟨symbol, found, (Option.some.inj isLexeme).symm, rfl⟩

/-- A slash with a star behind it that begin no comment are two signs. -/
theorem scan_slash {rest : List Char} {lexeme : Lexeme} {length : Nat}
    (h : scan ('/' :: '*' :: rest) = some (some lexeme, length)) :
    lexeme = .symbol (.binary .div) ∧ length = 1 := by
  obtain ⟨symbol, found, rfl, rfl⟩ :=
    symbol_of_scan h (by decide) (by decide) (by decide) (by decide) (by decide)
  have isDiv : symbolAt? ('/' :: '*' :: rest) = some (.binary .div) := rfl
  obtain rfl := Option.some.inj (found.symm.trans isDiv)
  exact ⟨rfl, rfl⟩

theorem scan_star {rest : List Char} {lexeme : Lexeme} {length : Nat}
    (h : scan ('*' :: rest) = some (some lexeme, length)) : IsStar lexeme := by
  obtain ⟨symbol, found, rfl, rfl⟩ :=
    symbol_of_scan h (by decide) (by decide) (by decide) (by decide) (by decide)
  have stars : ∀ symbol ∈ Symbol.all, symbol.text.toList.head? = some '*' →
      symbol = .binary .mul ∨ symbol = .compound .mul := by
    decide +kernel
  obtain ⟨isIn, isHead⟩ := symbolAt_head found
  exact (stars symbol isIn isHead).imp (congrArg Lexeme.symbol) (congrArg Lexeme.symbol)

/-- A piece that is no comment up to the end of its line. -/
def Piece.Closed (piece : Piece) : Prop :=
  ∀ inner, piece.text ≠ '/' :: '/' :: inner

/-- In pieces whose lexemes stand as they may, no slash with a star behind it begins a lexeme. -/
theorem no_star {c : Char} {text back : List Char} {lexeme : Lexeme} {rest : List Piece}
    (found : scan (c :: (text ++ (textOf rest ++ back))) = some (some lexeme, (c :: text).length))
    (later : Scanned back rest) (parted : (lexeme :: rest.filterMap Piece.lexeme?).IsChain Parted)
    (isSlash : c = '/') : (text ++ textOf rest).head? ≠ some '*' := by
  subst isSlash
  intro isStar
  obtain ⟨more, same⟩ := List.head?_eq_some_iff.mp isStar
  rw [← List.append_assoc, same] at found
  obtain ⟨isDiv, short⟩ := scan_slash found
  obtain rfl : text = [] := List.length_eq_zero_iff.mp (Nat.succ.inj short)
  -- The piece behind the sign begins with a star.
  cases later with
  | nil => cases same
  | @cons next others some next_found _ =>
    obtain ⟨d, text, isText⟩ := List.exists_cons_of_ne_nil some
    rw [List.nil_append, textOf_cons, isText] at same
    obtain rfl : d = '*' := (List.cons.inj same).1
    rw [isText, List.cons_append] at next_found
    obtain ⟨symbol, isSymbol⟩ : ∃ symbol, next.lexeme? = .some symbol := by
      cases isNext : next.lexeme? with
      | some symbol => exact ⟨symbol, rfl⟩
      | none =>
        rw [isNext] at next_found
        rcases blank_or_comment next_found with isBlank | isComment
        · cases isBlank '*' List.mem_cons_self
        · cases isComment
    rw [isSymbol] at next_found
    rw [List.filterMap_cons_some isSymbol, List.isChain_cons_cons] at parted
    exact parted.1 isDiv (scan_star next_found)

/-- **Pieces in front of a blank** keep their lexemes, unless the last one is a comment that goes on
up to the end of its line. -/
theorem lexemes_scanned_blank {pieces : List Piece} {back : List Char} (h : Scanned back pieces)
    (parted : (pieces.filterMap Piece.lexeme?).IsChain Parted)
    (closed : ∀ piece, pieces.getLast? = some piece → piece.Closed) {b : Char}
    (isBlank : isSpace b = true) (rest : List Char) (p : Position) :
    lexemesFrom p (textOf pieces ++ b :: rest) =
      (lexemesFrom (behind p (textOf pieces)) (b :: rest)).map
        (pieces.filterMap Piece.lexeme? ++ ·) := by
  induction h generalizing p with
  | nil =>
    rw [textOf_nil]
    exact (congrFun Except.map_id _).symm
  | @cons piece later some found scanned ih =>
    have closed' : ∀ last, later.getLast? = .some last → last.Closed := by
      intro last isLast
      exact closed last (by rw [List.getLast?_cons, isLast]; rfl)
    cases isLexeme : piece.lexeme? with
    | none =>
      rw [isLexeme] at found
      rw [List.filterMap_cons_none isLexeme] at parted ⊢
      have first : lexemesFrom p (piece.text ++ (textOf later ++ b :: rest)) =
          lexemesFrom (behind p piece.text) (textOf later ++ b :: rest) := by
        rcases blank_or_comment found with blanks | isComment
        · rw [List.take_left] at blanks
          exact lexemesFrom_blanks blanks p _
        · refine lexemesFrom_comment (commentLength_elsewhere isComment (fun none => ?_) _) p
          cases scanned with
          | nil => exact closed piece rfl
          | cons some' _ _ => exact absurd (List.append_eq_nil_iff.mp none).1 some'
      rw [textOf_cons, List.append_assoc, first, ih parted closed', behind_append]
    | some lexeme =>
      rw [isLexeme] at found
      rw [List.filterMap_cons_some isLexeme] at parted ⊢
      obtain ⟨c, text, isText⟩ := List.exists_cons_of_ne_nil some
      rw [isText] at found
      have blank := scan_blank found (no_star found scanned parted) isBlank rest
      have first := lexemesFrom_piece (List.cons_ne_nil c text) blank p
      rw [textOf_cons, List.append_assoc, isText, first, ih parted.tail closed', behind_append]
      cases lexemesFrom (behind (behind p (c :: text)) (textOf later)) (b :: rest) <;> rfl

/-! ### Beside tokens -/

/-- A place of a text directly in front of one of its tokens or directly behind one. -/
def AtToken (front back : List Char) : Prop :=
  ∃ tokens, Lexer.tokens (front ++ back) = .ok tokens ∧ ∃ token ∈ tokens,
    token.position = behind Position.start front ∨
      ∃ earlier, front = earlier ++ token.lexeme.chars ∧
        token.position = behind Position.start earlier

theorem ofText_text {text : String} {keyword : Keyword} (h : Keyword.ofText? text = some keyword) :
    keyword.text = text := by
  simpa using List.find?_some h

/-- A token is spelled as it is written. -/
theorem Finds.chars {text : List Char} {lexeme : Lexeme} {length : Nat}
    (h : Finds text (some lexeme) length) : lexeme.chars = text.take length := by
  cases h with
  | word _ =>
    unfold wordLexeme
    dsimp only
    split
    · next found =>
      rw [Lexeme.chars, ofText_text found, String.toList_ofList]
    · exact String.toList_ofList
  | symbol h =>
    obtain ⟨-, begins⟩ := symbolAt_prefix h
    rw [Lexeme.chars, List.prefix_iff_eq_take.mp begins, String.length_toList]
  | _ => rfl

/-- Of a text, the part in front of a position is one only. -/
theorem behind_inj {p : Position} {text front front' : List Char} (starts : front <+: text)
    (starts' : front' <+: text) (same : behind p front = behind p front') : front = front' := by
  -- Behind the longer part the position is a later one.
  have shorter {front front' : List Char} (begins : front <+: front')
      (same : behind p front = behind p front') : front = front' := by
    obtain ⟨more, rfl⟩ := begins
    by_contra differs
    have some : more ≠ [] := by
      rintro rfl
      exact differs (List.append_nil front).symm
    rw [behind_append] at same
    exact (before_behind some (behind p front)).ne same
  rcases List.prefix_or_prefix_of_prefix starts starts' with begins | begins
  · exact shorter begins same
  · exact (shorter begins same.symm).symm

/-- In front of what is no end of a line no comment goes up to it. -/
theorem Scanned.closed {pieces : List Piece} {c : Char} {rest : List Char}
    (h : Scanned (c :: rest) pieces) (noEnd : c ≠ '\n') {piece : Piece}
    (isLast : pieces.getLast? = some piece) : piece.Closed := by
  obtain ⟨front, rfl⟩ := List.getLast?_eq_some_iff.mp isLast
  intro inner isText
  cases h.split.2 with
  | cons _ found _ =>
    rw [textOf_nil, List.nil_append, isText, List.cons_append, scan_comment rfl] at found
    have whole : ((inner ++ c :: rest).takeWhile (· != '\n')).length = inner.length := by
      simpa using (Prod.mk.inj (Option.some.inj found)).2
    rw [List.takeWhile_append] at whole
    split at whole
    · simp [noEnd] at whole
    · next stops => exact stops whole

/-- **Beside a token** the pieces of a text fall into two rows, and no comment goes up to the end of
its line where they meet. -/
theorem AtToken.split {front back : List Char} (h : AtToken front back) :
    ∃ before after, front = textOf before ∧ back = textOf after ∧ Scanned [] (before ++ after) ∧
      ∀ piece, before.getLast? = some piece → piece.Closed := by
  obtain ⟨tokens, isTokens, token, isIn, place⟩ := h
  obtain ⟨pieces, whole, scanned, rfl⟩ := scanned_of_tokens isTokens
  obtain ⟨before, piece, after, rfl, isLexeme, isPlace⟩ := mem_placed.mp isIn
  obtain ⟨first, later⟩ := scanned.split
  have starts : textOf before <+: front ++ back := ⟨textOf (piece :: after), by
    rw [whole, textOf_append]⟩
  cases later with
  | cons some found _ =>
    rw [isLexeme, List.append_nil] at found
    rcases place with isBehind | ⟨earlier, rfl, isBehind⟩
    · obtain rfl : front = textOf before :=
        behind_inj (List.prefix_append front back) starts (isBehind.symm.trans isPlace)
      rw [textOf_append] at whole
      refine ⟨before, piece :: after, rfl, List.append_cancel_left whole, scanned,
        fun last isLast => ?_⟩
      obtain ⟨c, text, isText⟩ := List.exists_cons_of_ne_nil some
      rw [isText, List.cons_append] at found
      rw [textOf_cons, isText, List.cons_append, List.cons_append] at first
      refine first.closed ?_ isLast
      rintro rfl
      cases (begins_of_scan found).1
    · have spelled : token.lexeme.chars = piece.text := by
        rw [(scan_finds found).chars, List.take_left]
      rw [List.append_assoc] at starts
      obtain rfl : earlier = textOf before :=
        behind_inj (List.prefix_append earlier _) starts (isBehind.symm.trans isPlace)
      have parts : before ++ piece :: after = (before ++ [piece]) ++ after := by simp
      have isFront : textOf before ++ token.lexeme.chars = textOf (before ++ [piece]) := by
        rw [spelled, textOf_append, textOf_cons, textOf_nil, List.append_nil]
      rw [parts] at whole scanned
      rw [isFront, textOf_append (before ++ [piece])] at whole
      refine ⟨before ++ [piece], after, isFront, List.append_cancel_left whole, scanned,
        fun last isLast inner isText => ?_⟩
      rw [List.getLast?_concat] at isLast
      obtain rfl := Option.some.inj isLast
      rw [isText] at found
      cases (begins_of_scan found).2

/-- **Spacing beside a token leaves the lexemes as they are.** -/
theorem lexemes_spacing {front spacing back : List Char} {tokens : List Token}
    (isTokens : Lexer.tokens (front ++ back) = .ok tokens)
    (parted : (tokens.map Token.lexeme).IsChain Parted) (beside : AtToken front back)
    (isSpacing : Spacing spacing) (p : Position) :
    lexemesFrom p (front ++ spacing ++ back) = .ok (tokens.map Token.lexeme) := by
  obtain ⟨before, after, rfl, rfl, scanned, closed⟩ := beside.split
  rw [← textOf_append, Lexer.tokens, tokens_of_scanned scanned] at isTokens
  obtain rfl := Except.ok.inj isTokens
  rw [placed_lexemes] at parted ⊢
  have lexemes {pieces : List Piece} (scanned : Scanned [] pieces) (p : Position) :
      lexemesFrom p (textOf pieces) = .ok (pieces.filterMap Piece.lexeme?) := by
    rw [lexemesFrom, tokens_of_scanned scanned, ← placed_lexemes p]
    rfl
  cases spacing with
  | nil =>
    rw [List.append_nil, ← textOf_append]
    exact lexemes scanned p
  | cons b spacing =>
    have isBlank : isSpace b = true := by
      cases isSpacing with
      | blanks h => exact h b List.mem_cons_self
      | block | line => rfl
    obtain ⟨first, last⟩ := scanned.split
    rw [List.filterMap_append] at parted
    have front := lexemes_scanned_blank first parted.left_of_append closed isBlank
      (spacing ++ textOf after) p
    rw [List.append_assoc, List.cons_append, front, ← List.cons_append, isSpacing.lexemes,
      lexemes last, List.filterMap_append]
    rfl

end Lexer

/-! ### Bodies -/

open Lexer (AtToken Spacing)

/-- What a change of positions alone does to a tree. -/
def Relabeling.moving (α : Type) (place : Position → Position) : Relabeling α α Unit Unit :=
  ⟨place, id, id, id⟩

/-- Texts with the same lexemes are parsed as the same body, but for its positions. -/
theorem parseSource_elsewhere {text text' : List Char} {tokens tokens' : List Token}
    (scanned : Lexer.tokens text = .ok tokens) (scanned' : Lexer.tokens text' = .ok tokens')
    (same : tokens'.map Token.lexeme = tokens.map Token.lexeme) {body : List SourceStmt}
    (parsed : parseSource text = .ok body) :
    ∃ place, parseSource text' = .ok (Stmt.relabelAll (.moving Lexeme place) body) := by
  obtain ⟨place, rfl⟩ :=
    exists_elsewhere ((Lexer.tokensFrom_inOrder scanned).imp Position.Before.ne) same
  exact ⟨place, Slots.parseSource_moved scanned scanned' (Grammar.allSeated_id tokens) parsed⟩

/-- **Texts with the same lexemes are read as the same body**, but for its positions. -/
theorem readBody_elsewhere {text text' : List Char} {tokens tokens' : List Token}
    (scanned : Lexer.tokens text = .ok tokens) (scanned' : Lexer.tokens text' = .ok tokens')
    (same : tokens'.map Token.lexeme = tokens.map Token.lexeme) {body : List ParsedStmt}
    (read : readBody text = .ok body) :
    ∃ place, readBody text' = .ok (Stmt.relabelAll (.moving Value place) body) := by
  unfold readBody at read ⊢
  cases parsed : parseSource text with
  | error e =>
    rw [parsed] at read
    cases read
  | ok source =>
    obtain ⟨place, parsed'⟩ := parseSource_elsewhere scanned scanned' same parsed
    have literals : Stmt.mapAllLiterals Literal.value
        (Stmt.relabelAll (.moving Lexeme place) source) =
          Stmt.relabelAll (.moving Value place) <$> Stmt.mapAllLiterals Literal.value source :=
      Stmt.mapAllLiterals_relabel (fun lexeme => (id_map (Literal.value lexeme)).symm) source
    refine ⟨place, ?_⟩
    rw [parsed] at read
    rw [parsed']
    simp only [Stmt.depth_relabelAll, literals] at read ⊢
    split at read
    · cases read
    · next shallow =>
      rw [if_neg shallow]
      cases values : Stmt.mapAllLiterals Literal.value source with
      | error e =>
        rw [values] at read
        cases read
      | ok values =>
        rw [values] at read
        obtain rfl := Except.ok.inj read
        rfl

/-- **White space and comments do not change what is read:** with spacing put beside one of its
tokens, a source that is read as a body is read as the same one, but for its positions. -/
theorem readBody_spacing {front spacing back : List Char} {body : List ParsedStmt}
    (read : readBody (front ++ back) = .ok body) (beside : AtToken front back)
    (isSpacing : Spacing spacing) :
    ∃ place, readBody (front ++ spacing ++ back) =
      .ok (Stmt.relabelAll (.moving Value place) body) := by
  have ⟨tokens, scanned, _⟩ := beside
  have divided : Grammar.Divided (Fold.fold tokens) := by
    unfold readBody at read
    cases parsed : parseSource (front ++ back) with
    | error e =>
      rw [parsed] at read
      cases read
    | ok source =>
      exact (((Parser.parseSource_grammar scanned).1 source).mp parsed).1.divided
  have lexes := Lexer.lexemes_spacing scanned (Fold.parted_of_fold divided) beside isSpacing
    Position.start
  obtain ⟨tokens', scanned', same⟩ := Slots.exists_tokens lexes
  exact readBody_elsewhere scanned scanned' same read

/-- Behind a sign of division a comment needs a space in front of it, which spacing has. -/
theorem quotient_spacing : ∃ body,
    (readBody ("return a/".toList ++ "b;".toList) = .ok body ∧
      AtToken "return a/".toList "b;".toList ∧ Spacing " /* by */".toList) ∧
    Stmt.mentionsOfAll body = [.variable "a", .variable "b"] ∧
    ∃ place, readBody ("return a/".toList ++ " /* by */".toList ++ "b;".toList) =
      .ok (Stmt.relabelAll (.moving Value place) body) := by
  have names : (readBody ("return a/".toList ++ "b;".toList)).map Stmt.mentionsOfAll =
      .ok [.variable "a", .variable "b"] := by decide +kernel
  have beside : AtToken "return a/".toList "b;".toList := by
    refine ⟨[⟨.keyword .returnWord, ⟨1, 1⟩⟩, ⟨.name "a", ⟨1, 8⟩⟩, ⟨.symbol (.binary .div), ⟨1, 9⟩⟩,
      ⟨.name "b", ⟨1, 10⟩⟩, ⟨.symbol .semicolon, ⟨1, 11⟩⟩], by decide +kernel,
      ⟨.name "b", ⟨1, 10⟩⟩, ?_, .inl (by decide +kernel)⟩
    simp
  have isSpacing : Spacing " /* by */".toList := @Spacing.block " by ".toList (by decide)
  cases read : readBody ("return a/".toList ++ "b;".toList) with
  | error e =>
    rw [read] at names
    cases names
  | ok body =>
    rw [read] at names
    exact ⟨body, ⟨rfl, beside, isSpacing⟩, Except.ok.inj names,
      readBody_spacing read beside isSpacing⟩

end Formulary
