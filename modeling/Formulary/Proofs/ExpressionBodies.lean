/-
Expression bodies.

A body that does not return by itself is put in parentheses behind a cast to the return type and
returned. The parentheses are only text: what is read is the cast of the whole body if the body
closes no parenthesis that it has not opened, and if no comment at its end runs over what stands
behind it.

* `scanned_castFront` — the text in front of the body is found in front of any body.
* `fold_castFront` — it is folded into a cast, and the body by itself.
* `ofBody_expression` — what is accepted as an expression body is one expression.
* `ofBody_keeps` — a text that may be returned keeps its meaning as a body.
-/

import Formulary.Proofs.AccessReading
import Formulary.Proofs.Checking
import Formulary.Proofs.Closings
import Formulary.Proofs.Enclosing
import Formulary.Proofs.Returns

namespace Formulary

open Printing (IsIdentifier IsTypeName nameParts dotted)

/-- The lexemes that write the name of a type. -/
inductive Writes (type : String) : List Lexeme → Prop
  | reference : IsTypeName type → Writes type (dotted (nameParts type))
  | primitive {primitive : Primitive} :
      primitive.name = type → Writes type [.keyword (.primitive primitive)]

theorem Writes.chars {type : String} {written : List Lexeme} (h : Writes type written) :
    written.flatMap Lexeme.chars = type.toList := by
  cases h with
  | reference _ => exact Fold.dotted_chars type
  | primitive isName =>
    subst isName
    simp [Lexeme.chars, Keyword.text]

namespace Lexer

/-- A lexeme as a part of a text. -/
def Piece.of (lexeme : Lexeme) : Piece :=
  ⟨lexeme.chars, some lexeme⟩

@[simp]
theorem Piece.lexeme?_of (lexeme : Lexeme) : (Piece.of lexeme).lexeme? = some lexeme := rfl

@[simp]
theorem textOf_map_of (lexemes : List Lexeme) :
    textOf (lexemes.map Piece.of) = lexemes.flatMap Lexeme.chars := by
  rw [textOf, List.flatMap_map]
  rfl

/-- The pieces in front of an expression that is cast to a type and returned. -/
def castFront (written : List Lexeme) : List Piece :=
  .of (.keyword .returnWord) :: ⟨[' '], none⟩ :: .of (.symbol .leftParen) ::
    (written.map Piece.of ++ [.of (.symbol .rightParen), .of (.symbol .leftParen)])

theorem Scanned.bracket (c : Char) {mark : Symbol} (h : bracket? c = some mark) {back : List Char}
    {rest : List Piece} (behind : Scanned back rest) :
    Scanned back (.of (.symbol mark) :: rest) := by
  unfold bracket? at h
  split at h <;> cases h <;> exact .cons (List.cons_ne_nil _ _) (by rfl) behind

theorem Scanned.name {name : String} (h : IsIdentifier name) {back : List Char}
    {rest : List Piece} (ends : Ends isNamePart (textOf rest ++ back))
    (behind : Scanned back rest) : Scanned back (.of (.name name) :: rest) := by
  have found := @scan_name _ name.toList (by rwa [String.ofList_toList]) ends
  rw [String.ofList_toList] at found
  refine .cons ?_ found behind
  obtain ⟨first, word, split, -, -⟩ := h.isName
  rw [Piece.of, Lexeme.chars, split]
  exact List.cons_ne_nil first word

/-- Points and names in turn. -/
def pointed : List String → List Piece
  | [] => []
  | name :: more => .of (.symbol .dot) :: .of (.name name) :: pointed more

theorem pieces_dotted (name : String) (more : List String) :
    (dotted (name :: more)).map Piece.of = .of (.name name) :: pointed more := by
  have points : (more.flatMap fun other => [Lexeme.symbol .dot, .name other]).map Piece.of =
      pointed more := by
    induction more with
    | nil => rfl
    | cons other more ih =>
      rw [List.flatMap_cons, List.map_append, ih]
      rfl
  rw [dotted, List.map_cons, points]

/-- Points and names in front of a closing parenthesis. -/
theorem Scanned.points {names : List String} (each : ∀ name ∈ names, IsIdentifier name)
    {back : List Char} {rest : List Piece} (behind : Scanned back rest)
    (closes : Ends isNamePart (textOf rest ++ back)) :
    Scanned back (pointed names ++ rest) ∧
      Ends isNamePart (textOf (pointed names ++ rest) ++ back) := by
  induction names with
  | nil => exact ⟨behind, closes⟩
  | cons name names ih =>
    obtain ⟨isName, others⟩ := List.forall_mem_cons.mp each
    obtain ⟨scanned, ends⟩ := ih others
    have named := Scanned.name isName ends scanned
    obtain ⟨first, word, split, begins, -⟩ := isName.isName
    have noDigit : Ends isDigit (textOf (.of (.name name) :: (pointed names ++ rest)) ++ back) := by
      rw [textOf_cons, Piece.of, Lexeme.chars, split]
      exact ends_cons (isNameStart_not_digit begins)
    exact ⟨.cons (List.cons_ne_nil _ _) (scan_point noDigit) named, ends_cons (by decide)⟩

/-- The pieces in front of an expression are found in front of any text. -/
theorem scanned_castFront {type : String} {written : List Lexeme} (h : Writes type written)
    (back : List Char) : Scanned back (castFront written) := by
  have closing : Scanned back [.of (.symbol .rightParen), .of (.symbol .leftParen)] :=
    .bracket ')' rfl (.bracket '(' rfl .nil)
  have named : Scanned back (written.map Piece.of ++
      [.of (.symbol .rightParen), .of (.symbol .leftParen)]) := by
    cases h with
    | reference isType =>
      rw [IsTypeName] at isType
      cases shape : nameParts type with
      | nil => exact closing
      | cons name names =>
        rw [shape] at isType
        obtain ⟨isName, others⟩ := List.forall_mem_cons.mp isType
        obtain ⟨scanned, ends⟩ := Scanned.points others closing (ends_cons (by decide))
        rw [pieces_dotted]
        exact Scanned.name isName ends scanned
    | @primitive primitive isName =>
      have ends : Ends isNamePart (')' :: '(' :: back) := ends_cons (by decide)
      refine .cons ?_ ?_ closing
      · cases primitive <;> exact List.cons_ne_nil _ _
      · cases primitive <;> exact scan_word (by decide) (List.all_eq_true.mp (by decide)) ends
  have blank : Scanned back (⟨[' '], none⟩ :: .of (.symbol .leftParen) :: (written.map Piece.of ++
      [.of (.symbol .rightParen), .of (.symbol .leftParen)])) :=
    .cons (List.cons_ne_nil _ _) (by rfl) (.bracket '(' rfl named)
  exact .cons (by decide) (scan_return rfl) blank

end Lexer
/-! ### Folding the finished source -/

namespace Fold

open Grammar

/-- Nested tokens in parentheses are folded as they are alone. -/
theorem foldFrom_parenthesis {own tail : List Token} (nested : Nested own)
    (stops : ∀ token ∈ tail, Stops token) (previous : Option Token) (p : Position) :
    foldFrom 0 previous (⟨.symbol .leftParen, p⟩ :: (own ++ tail)) =
      ⟨.symbol .leftParen, p⟩ :: (fold own ++ tail) := by
  have noCast : castAt? previous (⟨.symbol .leftParen, p⟩ :: (own ++ tail)) = none := by
    rw [← List.cons_append, castAt_tail stops, castAt_nested nested]
  have alike : castMayFollow (some ⟨.symbol .leftParen, p⟩) = castMayFollow none := rfl
  rw [foldFrom_kept noCast rfl, foldFrom_tail stops _ _ _ (Nat.zero_le _),
    foldFrom_previous alike own, fold]

/-- **The tokens of a returned cast**, folded. -/
theorem fold_castFront {type : String} {written : List Lexeme} (h : Writes type written)
    {front own tail : List Token} (nested : Nested own) (stops : ∀ token ∈ tail, Stops token)
    (same : front.map Token.lexeme = .keyword .returnWord :: .symbol .leftParen ::
      (written ++ [.symbol .rightParen, .symbol .leftParen])) :
    ∃ cast p q r s, CastTo type cast p q ∧
      fold (front ++ (own ++ tail)) = ⟨.keyword .returnWord, r⟩ ::
        (cast ++ ⟨.symbol .leftParen, s⟩ :: (fold own ++ tail)) := by
  obtain ⟨⟨_, r⟩, behind, rfl, rfl, isBehind⟩ := List.map_eq_cons_iff.mp same
  obtain ⟨⟨_, p⟩, named, rfl, rfl, isNamed⟩ := List.map_eq_cons_iff.mp isBehind
  obtain ⟨parts, closed, rfl, isParts, isClosed⟩ := List.map_eq_append_iff.mp isNamed
  obtain ⟨⟨_, q⟩, last, rfl, rfl, isLast⟩ := List.map_eq_cons_iff.mp isClosed
  obtain ⟨⟨_, s⟩, rest, rfl, rfl, none⟩ := List.map_eq_cons_iff.mp isLast
  obtain rfl := List.map_eq_nil_iff.mp none
  have inner (previous : Option Token) := foldFrom_parenthesis nested stops previous s
  simp only [List.cons_append, List.append_assoc, List.nil_append]
  rw [fold, foldFrom_kept (castAt_symbol (by simp) _) rfl]
  cases h with
  | reference _ =>
    obtain ⟨t, found⟩ := @castAt_type _ (some ⟨.keyword .returnWord, r⟩)
      ⟨.symbol .leftParen, p⟩ ⟨.symbol .rightParen, q⟩ ⟨.symbol .leftParen, s⟩ _ rfl rfl isParts
      rfl rfl (own ++ tail)
    refine ⟨_, t, t, r, s, .reference t, ?_⟩
    rw [foldFrom, found]
    simp only [Option.orElse_eq_orElse, Option.orElse_eq_or, Option.some_or, Nat.add_sub_cancel,
      foldFrom_skip, inner]
    rfl
  | @primitive primitive isName =>
    obtain ⟨⟨_, t⟩, rest, rfl, rfl, isRest⟩ := List.map_eq_cons_iff.mp isParts
    obtain rfl := List.map_eq_nil_iff.mp isRest
    refine ⟨_, p, t, r, s, .primitive isName p t q, ?_⟩
    have noCast (previous : Option Token) (rest : List Token) : castAt? previous
        (⟨.symbol .leftParen, p⟩ :: ⟨.keyword (.primitive primitive), t⟩ :: rest) = .none := by
      simp [castAt?, dottedName?]
    simp only [List.cons_append, List.nil_append]
    rw [foldFrom_kept (noCast _ _) rfl, foldFrom_kept (castAt_symbol (by simp) _) rfl,
      foldFrom_kept (castAt_symbol (by simp) _) rfl, inner]

end Fold

open Grammar Lexer

/-! ### Depths -/

namespace Expr

variable {α β τ ε : Type} {g : α → Except ε β}

mutual

/-- Reading its literals leaves the depth of an expression. -/
theorem depth_mapLiterals : ∀ (e : Expr α τ) (v : Expr β τ), e.mapLiterals g = .ok v →
    v.depth = e.depth
  | .literal .., v, h => by
    obtain ⟨value, -, h⟩ := Check.bind_ok.mp h
    cases h
    rfl
  | .name .., v, h | .typeName .., v, h => by
    cases h
    rfl
  | .field _ receiver _, v, h => by
    obtain ⟨w, read, h⟩ := Check.bind_ok.mp h
    cases h
    simp only [depth, depth_mapLiterals receiver w read]
  | .methodCall _ receiver _ args, v, h => by
    obtain ⟨w, read, h⟩ := Check.bind_ok.mp h
    obtain ⟨ws, readAll, h⟩ := Check.bind_ok.mp h
    cases h
    simp only [depth, depth_mapLiterals receiver w read, depth_mapAllLiterals args ws readAll]
  | .call _ _ args, v, h => by
    obtain ⟨ws, readAll, h⟩ := Check.bind_ok.mp h
    cases h
    simp only [depth, depth_mapAllLiterals args ws readAll]
  | .index _ container place, v, h => by
    obtain ⟨w, read, h⟩ := Check.bind_ok.mp h
    obtain ⟨w', read', h⟩ := Check.bind_ok.mp h
    cases h
    simp only [depth, depth_mapLiterals container w read, depth_mapLiterals place w' read']
  | .unary _ _ operand, v, h => by
    obtain ⟨w, read, h⟩ := Check.bind_ok.mp h
    cases h
    simp only [depth, depth_mapLiterals operand w read]
  | .step _ _ target _, v, h => by
    obtain ⟨w, read, h⟩ := Check.bind_ok.mp h
    cases h
    simp only [depth, depth_mapLiterals target w read]
  | .binary _ _ left right, v, h | .logical _ _ left right, v, h => by
    obtain ⟨w, read, h⟩ := Check.bind_ok.mp h
    obtain ⟨w', read', h⟩ := Check.bind_ok.mp h
    cases h
    simp only [depth, depth_mapLiterals left w read, depth_mapLiterals right w' read']
  | .conditional _ test thenValue elseValue, v, h => by
    obtain ⟨w, read, h⟩ := Check.bind_ok.mp h
    obtain ⟨w', read', h⟩ := Check.bind_ok.mp h
    obtain ⟨w'', read'', h⟩ := Check.bind_ok.mp h
    cases h
    simp only [depth, depth_mapLiterals test w read, depth_mapLiterals thenValue w' read',
      depth_mapLiterals elseValue w'' read'']
  | .assign _ _ target value, v, h => by
    obtain ⟨w, read, h⟩ := Check.bind_ok.mp h
    obtain ⟨w', read', h⟩ := Check.bind_ok.mp h
    cases h
    simp only [depth, depth_mapLiterals target w read, depth_mapLiterals value w' read']
  | .cast _ _ operand, v, h => by
    obtain ⟨w, read, h⟩ := Check.bind_ok.mp h
    cases h
    simp only [depth, depth_mapLiterals operand w read]
  | .instanceOf _ value _, v, h => by
    obtain ⟨w, read, h⟩ := Check.bind_ok.mp h
    cases h
    simp only [depth, depth_mapLiterals value w read]
  | .new _ _ args, v, h => by
    obtain ⟨ws, readAll, h⟩ := Check.bind_ok.mp h
    cases h
    simp only [depth, depth_mapAllLiterals args ws readAll]

theorem depth_mapAllLiterals : ∀ (es : List (Expr α τ)) (vs : List (Expr β τ)),
    mapAllLiterals g es = .ok vs → depthOfAll vs = depthOfAll es
  | [], vs, h => by
    cases h
    rfl
  | e :: rest, vs, h => by
    obtain ⟨w, read, h⟩ := Check.bind_ok.mp h
    obtain ⟨ws, readAll, h⟩ := Check.bind_ok.mp h
    cases h
    simp only [depthOfAll, depth_mapLiterals e w read, depth_mapAllLiterals rest ws readAll]

end

end Expr

namespace Source

variable {type : String} {written : List Lexeme} {b : List Char}

/-- Where the body begins in the finished source. -/
def bodyStart (written : List Lexeme) : Position :=
  behind Position.start (textOf (castFront written))

theorem text_ofBody (h : Writes type written)
    (noReturn : Text.containsFree returnWord b = false) :
    (ofBody b type.toList).text = textOf (castFront written) ++ (b ++ ");".toList) := by
  have front : textOf (castFront written) = "return (".toList ++ type.toList ++ ")(".toList := by
    rw [← h.chars]
    simp [castFront, Piece.of, Lexeme.chars, Keyword.text, Symbol.text]
  rw [ofBody, noReturn, front]
  simp

theorem tokens_ofBody (h : Writes type written)
    (noReturn : Text.containsFree returnWord b = false) :
    Lexer.tokens (ofBody b type.toList).text =
      (tokensFrom 0 (bodyStart written) (b ++ ");".toList)).map
        (placed Position.start (castFront written) ++ ·) := by
  rw [text_ofBody h noReturn]
  exact tokensFrom_scanned (scanned_castFront h _) Position.start

theorem castFront_lexemes (p : Position) (written : List Lexeme) :
    (placed p (castFront written)).map Token.lexeme = .keyword .returnWord :: .symbol .leftParen ::
      (written ++ [.symbol .rightParen, .symbol .leftParen]) := by
  have each : (written.map Piece.of).filterMap Piece.lexeme? = written := by
    rw [List.filterMap_map]
    exact List.filterMap_some
  rw [placed_lexemes, castFront]
  simp [each]

theorem tokens_tail (p : Position) : tokensFrom 0 p ");".toList =
    .ok [⟨.symbol .rightParen, p⟩, ⟨.symbol .semicolon, p.advance ')'⟩] := rfl

theorem closes_tail (s t : Position) :
    Closes [⟨.symbol .rightParen, s⟩, ⟨.symbol .semicolon, t⟩] := by
  intro token isIn
  simp only [List.mem_cons, List.not_mem_nil, or_false] at isIn
  rcases isIn with rfl | rfl
  · exact .inl rfl
  · exact .inr rfl

/-- What an expression in parentheses behind a cast is for the grammar. -/
theorem returns_cast {cast own : List Token} {p q r s t u : Position} {v : Parsed}
    (isCast : CastTo type cast p q) (derived : Derives .expression own v) :
    Statement
      (⟨.keyword .returnWord, r⟩ :: (cast ++ ⟨.symbol .leftParen, s⟩ ::
        (own ++ [⟨.symbol .rightParen, t⟩, ⟨.symbol .semicolon, u⟩])))
      (.returns r (some (.cast p ⟨q, type, ()⟩ v.expr))) := by
  have enclosed :
      Derives .unary (⟨.symbol .leftParen, s⟩ :: (own ++ [⟨.symbol .rightParen, t⟩])) v :=
    .unadorned (.unsuffixed (.parentheses derived))
  have value := Derives.unassigned (.unconditional
    ((Derives.operand (isCast.derives enclosed)).lower (by decide)))
  have written := Statement.returns (p := r) (q := u) (.some value)
  simpa using written

/-- **How an expression body is read**: its tokens are folded and derived by themselves, and the
expression is returned as the operand of a cast. -/
theorem parseSource_ofBody (h : Writes type written)
    (noReturn : Text.containsFree returnWord b = false) {own : List Token} {v : Parsed}
    {s t : Position} (scanned : tokensFrom 0 (bodyStart written) (b ++ ");".toList) =
      .ok (own ++ [⟨.symbol .rightParen, s⟩, ⟨.symbol .semicolon, t⟩]))
    (derived : Derives .expression (Fold.fold own) v) :
    ∃ p q r, parseSource (ofBody b type.toList).text =
      .ok [.returns r (some (.cast p ⟨q, type, ()⟩ v.expr))] := by
  have nested : Nested own := Fold.nested_fold.mp derived.balanced.nested
  obtain ⟨cast, p, q, r, s', isCast, folded⟩ := Fold.fold_castFront h nested
    (Fold.stops_of_closes (closes_tail s t)) (castFront_lexemes Position.start written)
  have tokens := tokens_ofBody h noReturn
  rw [scanned] at tokens
  refine ⟨p, q, r, Parser.parseSource_statement tokens ?_ trivial⟩
  rw [folded]
  exact returns_cast isCast derived

/-! ### Texts at other places -/

/-- Tokens with the same lexemes derive the same expression, but for its positions. -/
theorem derives_elsewhere {own tokens : List Token} {v : Parsed} (ordered : InOrder own)
    (same : tokens.map Token.lexeme = own.map Token.lexeme)
    (derived : Derives .expression (Fold.fold own) v) :
    ∃ place, Derives .expression (Fold.fold tokens) (v.relabel (treeLabels place id)) := by
  obtain ⟨place, rfl⟩ := exists_elsewhere (ordered.imp Position.Before.ne) same
  have seated (tokens : List Token) : AllSeated id tokens := allSeated_id tokens
  refine ⟨place, ?_⟩
  have moved := derived.moved place (seated _)
  rwa [Fold.fold, ← Fold.foldFrom_moved place (seated own) 0 none] at moved

/-- The literals of an expression that stands elsewhere are read as the same values. -/
theorem mapLiterals_elsewhere (place : Position → Position) {e : SourceExpr}
    {value : Expr Value Unit} (read : e.mapLiterals Literal.value = .ok value) :
    ∃ moved : Expr Value Unit,
      (e.relabel (treeLabels place id)).mapLiterals Literal.value = .ok moved ∧
      moved.unplaced id = value.unplaced id := by
  have whole := Expr.mapLiterals_unplaced Literal.value (e.relabel (treeLabels place id))
  have same : (e.relabel (treeLabels place id)).unplaced id = e.unplaced id :=
    Expr.unplaced_relabel id place e
  rw [same, Expr.mapLiterals_unplaced, read] at whole
  cases moved : (e.relabel (treeLabels place id)).mapLiterals Literal.value with
  | error error =>
    rw [moved] at whole
    cases whole
  | ok value' =>
    rw [moved] at whole
    exact ⟨value', rfl, (Except.ok.inj whole).symm⟩

/-- A text that is one expression of the grammar, with the value it is read as, but for
positions. -/
def IsExpression (text : List Char) (value : Expr Value Unit) : Prop :=
  ∃ tokens v literals, Lexer.tokens text = .ok tokens ∧
    Derives .expression (Fold.fold tokens) v ∧
    v.expr.mapLiterals Literal.value = .ok literals ∧ literals.unplaced id = value.unplaced id

theorem scanned_of_read {text : List Char} {statements : List ParsedStmt}
    (read : readBody text = .ok statements) : ∃ raw, Lexer.tokens text = .ok raw := by
  cases scanned : Lexer.tokens text with
  | ok raw => exact ⟨raw, rfl⟩
  | error error =>
    rw [readBody, parseSource, scanned] at read
    cases read

/-- The literals of a single statement that returns an expression. -/
theorem mapAllLiterals_returns {p : Position} {e : SourceExpr} {statements : List ParsedStmt}
    (h : Stmt.mapAllLiterals Literal.value [.returns p (some e)] = .ok statements) :
    ∃ value, e.mapLiterals Literal.value = .ok value ∧
      statements = [.returns p (some value)] := by
  cases read : e.mapLiterals Literal.value with
  | error error =>
    simp only [Stmt.mapAllLiterals, Stmt.mapLiterals, Expr.mapLiterals?, read] at h
    cases h
  | ok value =>
    simp only [Stmt.mapAllLiterals, Stmt.mapLiterals, Expr.mapLiterals?, read] at h
    cases h
    exact ⟨value, rfl, rfl⟩

/-- **An expression body is one expression.** A body whose tokens close no parenthesis that they
have not opened is, if its finished source is read at all, one expression, and the source is read
as a single statement that returns the cast of all of it. -/
theorem ofBody_expression (h : Writes type written)
    (noReturn : Text.containsFree returnWord b = false)
    (nested : ∀ tokens, Lexer.tokens b = .ok tokens → Nested tokens)
    {statements : List ParsedStmt} (read : readBody (ofBody b type.toList).text = .ok statements) :
    ∃ p q r value, statements = [.returns r (some (.cast p ⟨q, type, ()⟩ value))] ∧
      IsExpression b value := by
  obtain ⟨raw, scanned⟩ := scanned_of_read read
  have tokens := tokens_ofBody h noReturn
  rw [scanned] at tokens
  cases found : tokensFrom 0 (bodyStart written) (b ++ ");".toList) with
  | error error =>
    rw [found] at tokens
    cases tokens
  | ok later =>
    rw [found] at tokens
    obtain rfl := Except.ok.inj tokens
    have closing : Closing ");".toList := by
      intro c isIn
      simpa using isIn
    obtain ⟨own, isOwn, ends⟩ := tokensFrom_closing closing found
    obtain ⟨raw, isRaw, same⟩ := tokensFrom_elsewhere isOwn Position.start
    have nestedOwn : Nested own := by
      rw [Nested, ← openBehind_lexemes same]
      exact nested raw isRaw
    -- Behind the tokens of the body stand those that close it, or none.
    obtain ⟨tail, s, t, rfl, isTail⟩ : ∃ tail s t, later = own ++ tail ∧
        (tail = [] ∨ tail = [⟨.symbol .rightParen, s⟩, ⟨.symbol .semicolon, t⟩]) := by
      rcases ends with rfl | ends
      · exact ⟨[], .start, .start, (List.append_nil _).symm, .inl rfl⟩
      · have whole := ends ");".toList closing
        rw [found] at whole
        exact ⟨_, _, _, Except.ok.inj whole, .inr rfl⟩
    have stops : ∀ token ∈ tail, Fold.Stops token := by
      rcases isTail with rfl | rfl
      · exact List.forall_mem_nil _
      · exact Fold.stops_of_closes (closes_tail s t)
    obtain ⟨cast, p, q, r, u, isCast, folded⟩ := Fold.fold_castFront h nestedOwn stops
      (castFront_lexemes Position.start written)
    obtain ⟨sources, body, nearest, -, literals⟩ :=
      ((Parser.readBody_grammar scanned).1 statements).mp read
    have parsed := ((Parser.parseSource_grammar scanned).1 sources).mpr ⟨body, nearest⟩
    rw [folded] at body
    obtain ⟨some, v, derived⟩ := body.of_cast isCast (Fold.nested_fold.mpr nestedOwn) isTail
    obtain rfl := isTail.resolve_left some
    obtain ⟨p', q', r', isParsed⟩ := parseSource_ofBody h noReturn found derived
    rw [isParsed] at parsed
    obtain rfl := Except.ok.inj parsed
    obtain ⟨value, isValue, rfl⟩ := mapAllLiterals_returns literals
    obtain ⟨operand, isOperand, h⟩ := Check.bind_ok.mp isValue
    cases h
    refine ⟨p', q', r', operand, rfl, ?_⟩
    obtain ⟨place, moved⟩ := derives_elsewhere (tokensFrom_inOrder isOwn) same derived
    obtain ⟨value', isValue', alike⟩ := mapLiterals_elsewhere place isOperand
    exact ⟨raw, _, value', isRaw, moved, isValue', alike⟩

/-- A text that is read as so many statements. -/
theorem readBody_length (text : List Char) {n : Nat}
    (h : (readBody text).map List.length = .ok n) :
    ∃ statements, readBody text = .ok statements ∧ statements.length = n := by
  cases read : readBody text with
  | error error =>
    rw [read] at h
    cases h
  | ok statements =>
    rw [read] at h
    exact ⟨statements, rfl, Except.ok.inj h⟩

theorem writes_int : Writes "int" [.keyword (.primitive .int)] :=
  @Writes.primitive "int" .int rfl

theorem signed_expression :
    let body := "-x".toList
    ∃ statements, readBody (ofBody body "int".toList).text = .ok statements ∧
      ∃ p q r value, statements = [.returns r (some (.cast p ⟨q, "int", ()⟩ value))] ∧
        IsExpression body value := by
  intro body
  obtain ⟨statements, read, -⟩ := readBody_length (n := 1)
    (ofBody body "int".toList).text (by decide +kernel)
  have lexes : Lexer.tokens body = .ok [⟨.symbol (.binary .sub), ⟨1, 1⟩⟩, ⟨.name "x", ⟨1, 2⟩⟩] := by
    decide +kernel
  have nested : ∀ tokens, Lexer.tokens body = .ok tokens → Nested tokens := by
    intro tokens isTokens
    rw [lexes] at isTokens
    cases isTokens
    decide
  exact ⟨statements, read, ofBody_expression writes_int (by decide +kernel)
    nested read⟩

/-- A body that closes the parentheses around it and opens others may be read as two statements. -/
theorem reopened_accepted :
    Text.containsFree returnWord "1); int y = (2".toList = false ∧
    ∃ first second,
      readBody (ofBody "1); int y = (2".toList "int".toList).text = .ok [first, second] := by
  refine ⟨by decide +kernel, ?_⟩
  obtain ⟨statements, read, isTwo⟩ := readBody_length (n := 2)
    (ofBody "1); int y = (2".toList "int".toList).text (by decide +kernel)
  obtain ⟨first, second, rfl⟩ := List.length_eq_two.mp isTwo
  exact ⟨first, second, read⟩

/-! ### Returned texts -/

theorem tokens_return (text : List Char) :
    Lexer.tokens ("return ".toList ++ text) =
      (tokensFrom 0 (behind Position.start "return ".toList) text).map
        (⟨.keyword .returnWord, Position.start⟩ :: ·) := by
  have found := @scan_return (' ' :: text) rfl
  have word := @tokensFrom_piece (some (.keyword .returnWord)) _ _ returnWord_some found
    Position.start
  rw [tokensFrom_space rfl] at word
  exact word

theorem fold_return (p q : Position) (own : List Token) :
    Fold.fold (⟨.keyword .returnWord, p⟩ :: (own ++ [⟨.symbol .semicolon, q⟩])) =
      ⟨.keyword .returnWord, p⟩ :: (Fold.fold own ++ [⟨.symbol .semicolon, q⟩]) := by
  have stops : ∀ token ∈ [(⟨.symbol .semicolon, q⟩ : Token)], Fold.Stops token :=
    Fold.stops_of_closes (List.forall_mem_singleton.mpr (.inr rfl))
  have alike : Fold.castMayFollow (some ⟨.keyword .returnWord, p⟩) = Fold.castMayFollow none := rfl
  rw [Fold.fold, Fold.foldFrom_kept (Fold.castAt_symbol (by simp) _) rfl,
    Fold.foldFrom_tail stops _ _ _ (Nat.zero_le _), Fold.foldFrom_previous alike, ← Fold.fold]

/-- A body of one statement that begins with `return` is that statement. -/
theorem body_return {rest : List Token} {s : SourceStmt} {p : Position}
    (h : Body (⟨.keyword .returnWord, p⟩ :: rest) [s]) :
    ∃ tokens value q, rest = tokens ++ [⟨.symbol .semicolon, q⟩] ∧ Optional tokens value ∧
      s = .returns p value := by
  obtain ⟨parts, each, same, isBody⟩ := h
  obtain ⟨⟨first, s⟩, others, rfl, rfl, none⟩ := List.map_eq_cons_iff.mp isBody.symm
  obtain rfl := List.map_eq_nil_iff.mp none
  have written := each _ List.mem_cons_self
  rw [List.flatMap_cons, List.flatMap_nil, List.append_nil] at same
  rw [← same] at written
  exact written.of_return

/-- The one statement that is read as a returned value. -/
theorem sources_of_returns {sources : List SourceStmt} {p : Position} {value : Expr Value Unit}
    (h : Stmt.mapAllLiterals Literal.value sources = .ok [.returns p (some value)]) :
    ∃ s, sources = [s] ∧ s.mapLiterals Literal.value = .ok (.returns p (some value)) := by
  cases sources with
  | nil => cases h
  | cons s rest =>
    obtain ⟨first, read, h⟩ := Check.bind_ok.mp h
    obtain ⟨others, readAll, h⟩ := Check.bind_ok.mp h
    cases h
    cases rest with
    | nil => exact ⟨s, rfl, read⟩
    | cons s' rest =>
      obtain ⟨second, -, h⟩ := Check.bind_ok.mp readAll
      obtain ⟨others, -, h⟩ := Check.bind_ok.mp h
      cases h

/-- A text that returns an expression is read as it. -/
theorem readBody_returns {text : List Char} (own : List Token) {p q : Position} {v : Parsed}
    {value : Expr Value Unit}
    (scanned : Lexer.tokens text =
      .ok (⟨.keyword .returnWord, p⟩ :: (own ++ [⟨.symbol .semicolon, q⟩])))
    (derived : Derives .expression (Fold.fold own) v) (shallow : v.expr.depth < maxDepth)
    (read : v.expr.mapLiterals Literal.value = .ok value) :
    readBody text = .ok [.returns p (some value)] := by
  have written : Statement
      (Fold.fold (⟨.keyword .returnWord, p⟩ :: (own ++ [⟨.symbol .semicolon, q⟩])))
      (.returns p (some v.expr)) := by
    rw [fold_return]
    exact .returns (.some derived)
  have depth : Stmt.depthOfAll [(Stmt.returns p (some v.expr) : SourceStmt)] =
      v.expr.depth + 1 := by
    simp [Stmt.depthOfAll, Stmt.depth]
  rw [readBody, Parser.parseSource_statement scanned written trivial]
  simp only [depth]
  rw [if_neg (Nat.not_lt.mpr shallow)]
  simp only [Stmt.mapAllLiterals, Stmt.mapLiterals, Expr.mapLiterals?, read]
  rfl

/-- **Wrapping an expression body keeps its meaning.** Where a returned text is read as an
expression and the semicolon behind the text is a token of its own, the finished source of the text
as a body is read as the cast of that expression, unless the cast is nested too deeply. -/
theorem ofBody_keeps (h : Writes type written)
    (noReturn : Text.containsFree returnWord b = false)
    (ownSemicolon : Lexer.tokens ("return ".toList ++ b ++ ";".toList) =
      (Lexer.tokens ("return ".toList ++ b)).map
        (· ++ [⟨.symbol .semicolon, behind Position.start ("return ".toList ++ b)⟩]))
    {p : Position} {value : Expr Value Unit}
    (read : readBody ("return ".toList ++ b ++ ";".toList) = .ok [.returns p (some value)]) :
    (value.depth + 2 ≤ maxDepth → ∃ p q r operand, readBody (ofBody b type.toList).text =
      .ok [.returns r (some (.cast p ⟨q, type, ()⟩ operand))] ∧
        operand.unplaced id = value.unplaced id) ∧
    (maxDepth < value.depth + 2 → readBody (ofBody b type.toList).text = .error .tooDeep) := by
  obtain ⟨raw, scanned⟩ := scanned_of_read read
  have whole := scanned
  rw [List.append_assoc, tokens_return] at whole
  cases found : tokensFrom 0 (behind Position.start "return ".toList) (b ++ ";".toList) with
  | error error =>
    rw [found] at whole
    cases whole
  | ok later =>
    rw [found] at whole
    obtain rfl := Except.ok.inj whole
    have closing : Closing ";".toList := by
      intro c isIn
      exact .inr (by simpa using isIn)
    have closing' : Closing ");".toList := by
      intro c isIn
      simpa using isIn
    obtain ⟨own, isOwn, ends⟩ := tokensFrom_closing closing found
    obtain ⟨q, rfl⟩ : ∃ q, later = own ++ [⟨.symbol .semicolon, q⟩] := by
      rw [scanned, tokens_return, isOwn] at ownSemicolon
      exact ⟨_, (List.cons.inj (Except.ok.inj ownSemicolon)).2⟩
    have wrapped := (ends.resolve_left (by simp)) ");".toList closing'
    rw [tokens_tail] at wrapped
    obtain ⟨tokens, isTokens, same⟩ := tokensFrom_elsewhere wrapped (bodyStart written)
    rw [List.map_append] at same
    obtain ⟨own', tail, rfl, sameOwn, isTail⟩ := List.map_eq_append_iff.mp same
    obtain ⟨⟨_, s'⟩, last, rfl, rfl, isLast⟩ := List.map_eq_cons_iff.mp isTail
    obtain ⟨⟨_, t'⟩, rest, rfl, rfl, none⟩ := List.map_eq_cons_iff.mp isLast
    obtain rfl := List.map_eq_nil_iff.mp none
    -- The returned text is one expression, whose tokens are those of the body.
    obtain ⟨sources, body, -, -, literals⟩ :=
      ((Parser.readBody_grammar scanned).1 _).mp read
    obtain ⟨source, rfl, isSource⟩ := sources_of_returns literals
    rw [fold_return] at body
    obtain ⟨folded, value?, u, isFolded, isValue, rfl⟩ := body_return body
    obtain ⟨sameFold, -⟩ := List.append_inj' isFolded rfl
    cases isValue with
    | none => cases isSource
    | @some _ v derived =>
      rw [← sameFold] at derived
      obtain ⟨literals, isLiterals, same⟩ := mapAllLiterals_returns (p := Position.start)
        literals
      cases same
      obtain ⟨place, moved⟩ := derives_elsewhere (tokensFrom_inOrder isOwn) sameOwn derived
      obtain ⟨operand, isOperand, alike⟩ := mapLiterals_elsewhere place isLiterals
      obtain ⟨p', q', r', parsed⟩ := parseSource_ofBody h noReturn isTokens moved
      have depth : Stmt.depthOfAll [(Stmt.returns r' (some (.cast p' ⟨q', type, ()⟩
          (v.relabel (treeLabels place id)).expr)) : SourceStmt)] = value.depth + 2 := by
        have operandDepth := Expr.depth_relabel (treeLabels place id) v.expr
        simp only [Stmt.depthOfAll, Stmt.depth, Option.elim_some, Expr.depth, Parsed.relabel,
          operandDepth, ← Expr.depth_mapLiterals v.expr value isLiterals]
        omega
      constructor
      · intro shallow
        refine ⟨p', q', r', operand, ?_, alike⟩
        rw [readBody, parsed]
        simp only [depth]
        rw [if_neg (Nat.not_lt.mpr shallow)]
        have isOperand' : (v.relabel (treeLabels place id)).expr.mapLiterals Literal.value =
          .ok operand := isOperand
        simp only [Stmt.mapAllLiterals, Stmt.mapLiterals, Expr.mapLiterals?, Expr.mapLiterals,
          isOperand']
        rfl
      · intro deep
        rw [readBody, parsed]
        simp only [depth]
        rw [if_pos deep]

/-- A name behind a sign, as an expression. -/
theorem derives_signed (p q : Position) (text : String) :
    Derives .expression [⟨.symbol (.binary .sub), p⟩, ⟨.name text, q⟩]
      ⟨.unary p .minus (.name q text), p⟩ :=
  .unassigned (.unconditional ((Derives.operand
    (.unary (by decide) (.unadorned (.unsuffixed .name)))).lower (by decide)))

/-- The lexemes of a dotted name. -/
theorem writes_point : Writes "java.awt.Point" (dotted ["java", "awt", "Point"]) :=
  @Writes.reference "java.awt.Point" (by decide +kernel)

theorem signed_keeps :
    let body := "-x".toList
    ∃ p q r operand, readBody (ofBody body "java.awt.Point".toList).text =
      .ok [.returns r (some (.cast p ⟨q, "java.awt.Point", ()⟩ operand))] ∧
        operand.unplaced id = .unary Position.start .minus (.name Position.start "x") := by
  intro body
  have read : readBody ("return ".toList ++ body ++ ";".toList) =
      .ok [.returns Position.start (some (.unary ⟨1, 8⟩ .minus (.name ⟨1, 9⟩ "x")))] :=
    readBody_returns [⟨.symbol (.binary .sub), ⟨1, 8⟩⟩, ⟨.name "x", ⟨1, 9⟩⟩]
      (q := ⟨1, 10⟩) (by decide +kernel) (derives_signed ⟨1, 8⟩ ⟨1, 9⟩ "x") (by decide) rfl
  exact (ofBody_keeps writes_point (b := body) (by decide +kernel) (by decide +kernel) read).1
    (by decide)

/-- A body that ends in a comment may be returned as it is, and not in parentheses. -/
theorem lineComment_unclosed :
    Text.containsFree returnWord "x; //".toList = false ∧
    readBody "return x; //;".toList =
      .ok [.returns Position.start (some (.name ⟨1, 8⟩ "x"))] ∧
    readBody (ofBody "x; //".toList "int".toList).text =
      .error (.syntaxError (.unexpected ⟨.symbol .semicolon, ⟨1, 15⟩⟩)) := by
  have derived : Derives .expression [⟨.name "x", ⟨1, 8⟩⟩] ⟨.name ⟨1, 8⟩ "x", ⟨1, 8⟩⟩ :=
    .unassigned (.unconditional
      ((Derives.operand (.unadorned (.unsuffixed .name))).lower (by decide)))
  refine ⟨by decide +kernel, ?_, Parser.error_of_map (f := fun _ => ()) (by decide +kernel)⟩
  exact readBody_returns [⟨.name "x", ⟨1, 8⟩⟩] (q := ⟨1, 9⟩) (by decide +kernel) derived
    (by decide) rfl

end Source

end Formulary
