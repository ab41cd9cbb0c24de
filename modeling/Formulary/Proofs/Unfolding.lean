/-
Folded tokens, unfolded.

A token list falls into pieces, each of which folding turns into one token: tokens that are kept,
dotted names in parentheses that become casts, and dotted names that become the types of
declarations. So nothing is lost when type names are folded, and unfolding the pieces gives the
token list back.

* `Piece` — a piece, with the tokens that it has and the one that it becomes.
* `Piece.Fits` — between which tokens a piece may stand. A token is kept only where nothing can be
  folded.
* `found_merges`, `merges_found` — what is folded at the front of a list.
* `exists_standing` — a list is cut into pieces from the front, by induction on its length.
* `Standing.folded` — pieces in a row become the folded tokens.
* `fold_unfolds` — folding a whole token list.
-/

import Formulary.Proofs.Enclosing

namespace Formulary

namespace Grammar

variable {tokens : List Token} {tail : String} {type : TypeName Unit}

theorem DottedRest.chars (h : DottedRest tokens tail) :
    tokens.flatMap (fun part => part.lexeme.chars) = tail.toList := by
  induction h with
  | nil => rfl
  | cons _ ih =>
    rw [List.flatMap_cons, List.flatMap_cons, ih]
    simp [Lexeme.chars, Symbol.text]

theorem DottedRest.lexemes (h : DottedRest tokens tail) : ∃ names : List String,
    tokens.map Token.lexeme = names.flatMap fun name => [.symbol .dot, .name name] := by
  induction h with
  | nil => exact ⟨[], rfl⟩
  | @cons p q part tail rest _ ih =>
    obtain ⟨names, same⟩ := ih
    exact ⟨part :: names, by rw [List.map_cons, List.map_cons, same]; rfl⟩

theorem Dotted.lexemes (h : Dotted tokens type) : ∃ names : List String, names ≠ [] ∧
    tokens.map Token.lexeme = Printing.dotted names := by
  obtain ⟨behind⟩ := h
  obtain ⟨names, same⟩ := behind.lexemes
  exact ⟨_ :: names, List.cons_ne_nil _ _, congrArg _ same⟩

/-- The text of a dotted name is that of its tokens. -/
theorem Dotted.joined (h : Dotted tokens type) : Fold.joined tokens = type.name := by
  obtain ⟨behind⟩ := h
  rw [Fold.joined, List.flatMap_cons, behind.chars]
  simp [Lexeme.chars]

end Grammar

namespace Fold

open Grammar (Dotted DottedRest)

/-! ### Dotted names -/

/-- A dotted name and its text. -/
structure DottedName where
  first : Token
  rest : List Token
  text : String
  isDotted : Dotted (first :: rest) ⟨first.position, text, ()⟩

/-- The tokens of a dotted name. -/
def DottedName.tokens (name : DottedName) : List Token :=
  name.first :: name.rest

theorem DottedName.first_name (name : DottedName) : ∃ text, name.first.lexeme = .name text := by
  obtain ⟨names, some, same⟩ := name.isDotted.lexemes
  obtain ⟨first, more, rfl⟩ := List.exists_cons_of_ne_nil some
  exact ⟨first, (List.cons.inj same).1⟩

theorem dottedRest_derived (tokens : List Token) :
    ∃ tail, DottedRest (dottedRest tokens).1 tail := by
  induction tokens using dottedRest.induct with
  | case1 dot part rest text isPart isDot parts after same ih =>
    obtain ⟨tail, derived⟩ := ih
    obtain ⟨_, p⟩ := dot
    obtain ⟨_, q⟩ := part
    obtain rfl : _ = Lexeme.symbol .dot := isDot
    obtain rfl : _ = Lexeme.name text := isPart
    exact ⟨_, .cons derived⟩
  | case2 dot part rest other =>
    rw [dottedRest]
    split
    · next isDot isPart => exact (other _ isDot isPart).elim
    · exact ⟨"", .nil⟩
  | case3 rest other =>
    rw [dottedRest.eq_2 rest other]
    exact ⟨"", .nil⟩

/-- A dotted name is found at the front of a list. -/
theorem dottedName_found {tokens parts after : List Token}
    (h : dottedName? tokens = some (parts, after)) :
    ∃ name : DottedName, name.tokens = parts ∧ tokens = name.tokens ++ after := by
  obtain ⟨⟨lexeme, p⟩, text, rest, rfl, isFirst, rfl, isRest⟩ := dottedName_split h
  obtain rfl : lexeme = .name text := isFirst
  obtain ⟨tail, derived⟩ := dottedRest_derived (rest ++ after)
  rw [isRest] at derived
  exact ⟨⟨⟨.name text, p⟩, rest, text ++ tail, .mk derived⟩, rfl, rfl⟩

theorem DottedName.joined (name : DottedName) : joined name.tokens = name.text :=
  name.isDotted.joined

/-- A dotted name with no point behind it is found as a whole. -/
theorem DottedName.found (name : DottedName) {after : List Token}
    (stops : ∀ next more, after = next :: more → next.lexeme ≠ .symbol .dot) :
    dottedName? (name.tokens ++ after) = some (name.tokens, after) := by
  obtain ⟨names, some, same⟩ := name.isDotted.lexemes
  exact dottedName_points some same stops

/-! ### Pieces -/

/-- Tokens that become one. -/
inductive Piece where
  /-- A token that is kept. -/
  | kept (token : Token)
  /-- A dotted name in parentheses, which becomes a cast. -/
  | cast (opening closing : Position) (name : DottedName)
  /-- A dotted name that becomes the type of a declaration. -/
  | declared (name : DottedName)

namespace Piece

/-- The tokens of a piece. -/
def tokens : Piece → List Token
  | kept token => [token]
  | cast opening closing name =>
    ⟨.symbol .leftParen, opening⟩ :: (name.tokens ++ [⟨.symbol .rightParen, closing⟩])
  | declared name => name.tokens

/-- The token that a piece becomes. One that stands for a dotted name has the position of its first
part. -/
def folded : Piece → Token
  | kept token => token
  | cast _ _ name => ⟨.castType name.text, name.first.position⟩
  | declared name => ⟨.declaredType name.text, name.first.position⟩

/-- Where tokens become another one: a cast opens behind no name and no keyword of a condition and
stands in front of an operand, and the type of a declaration stands in front of a name. -/
def Merges (before : Option Token) (after : List Token) : Piece → Prop
  | kept _ => False
  | cast .. => (before.map Token.lexeme).any barsCast = false ∧
    ∃ operand more, after = operand :: more ∧ startsOperand operand = true
  | declared _ => ∃ next more text, after = next :: more ∧ next.lexeme = .name text

/-- Where a piece stands. A token is kept where nothing that begins with it is folded. -/
def Fits (before : Option Token) (after : List Token) : Piece → Prop
  | kept token => ∀ (piece : Piece) rest, token :: after = piece.tokens ++ rest →
    ¬piece.Merges before rest
  | piece => piece.Merges before after

theorem Merges.fits {before : Option Token} {after : List Token} {piece : Piece}
    (merges : piece.Merges before after) : piece.Fits before after := by
  cases piece with
  | kept token => exact merges.elim
  | _ => exact merges

theorem tokens_cons (piece : Piece) : ∃ first more, piece.tokens = first :: more := by
  cases piece <;> exact ⟨_, _, rfl⟩

end Piece

/-- The tokens of pieces in a row. -/
def tokensOf (pieces : List Piece) : List Token :=
  pieces.flatMap Piece.tokens

/-! ### What is folded next -/

theorem castAt_merges {previous : Option Token} {tokens : List Token} {found : Token × Nat}
    (h : castAt? previous tokens = some found) :
    ∃ (piece : Piece) (after : List Token), tokens = piece.tokens ++ after ∧
      piece.Merges previous after := by
  unfold castAt? at h
  split at h
  · cases h
  · next paren rest =>
    split at h
    · next opens =>
      split at h
      · next parts closing operand more named =>
        split at h
        · next closes =>
          simp only [Bool.and_eq_true, decide_eq_true_eq] at opens closes
          obtain ⟨name, rfl, rfl⟩ := dottedName_found named
          obtain ⟨_, p⟩ := paren
          obtain ⟨rfl, mayFollow⟩ := opens
          obtain ⟨_, q⟩ := closing
          obtain ⟨rfl, starts⟩ := closes
          rw [castMayFollow_eq, Bool.not_eq_true'] at mayFollow
          exact ⟨.cast p q name, operand :: more, by simp [Piece.tokens], mayFollow, operand, more,
            rfl, starts⟩
        · cases h
      · cases h
    · cases h

theorem declaredAt_merges {previous : Option Token} {tokens : List Token} {found : Token × Nat}
    (h : declaredAt? tokens = some found) :
    ∃ (piece : Piece) (after : List Token), tokens = piece.tokens ++ after ∧
      piece.Merges previous after := by
  unfold declaredAt? at h
  split at h
  · next parts next more named =>
    split at h
    · next text isNext =>
      obtain ⟨name, rfl, rfl⟩ := dottedName_found named
      exact ⟨.declared name, next :: more, rfl, next, more, text, rfl, isNext⟩
    · cases h
  · cases h

/-- Where something is folded there is a piece that merges. -/
theorem found_merges {previous : Option Token} {tokens : List Token} {found : Token × Nat}
    (h : (castAt? previous tokens <|> declaredAt? tokens) = some found) :
    ∃ (piece : Piece) (after : List Token), tokens = piece.tokens ++ after ∧
      piece.Merges previous after := by
  rw [Option.orElse_eq_orElse, Option.orElse_eq_or, Option.or_eq_some_iff] at h
  rcases h with cast | ⟨-, declared⟩
  · exact castAt_merges cast
  · exact declaredAt_merges declared

/-- A piece that merges is folded. -/
theorem merges_found {previous : Option Token} {piece : Piece} {after : List Token}
    (merges : piece.Merges previous after) :
    (castAt? previous (piece.tokens ++ after) <|> declaredAt? (piece.tokens ++ after)) =
      some (piece.folded, piece.tokens.length) := by
  rw [Option.orElse_eq_orElse, Option.orElse_eq_or]
  cases piece with
  | kept token => exact merges.elim
  | cast opening closing name =>
    obtain ⟨mayFollow, operand, more, rfl, starts⟩ := merges
    have named : dottedName? (name.tokens ++ ⟨.symbol .rightParen, closing⟩ :: operand :: more) =
        some (name.tokens, ⟨.symbol .rightParen, closing⟩ :: operand :: more) :=
      name.found (by rintro _ _ ⟨⟩ ⟨⟩)
    have isCast : castAt? previous ((Piece.cast opening closing name).tokens ++ operand :: more) =
        some (⟨.castType (joined name.tokens), name.first.position⟩, name.tokens.length + 2) := by
      rw [Piece.tokens, List.cons_append, List.append_assoc, List.singleton_append, castAt?,
        castMayFollow_eq, mayFollow, named]
      simp [starts, DottedName.tokens]
    rw [isCast, Option.some_or, name.joined]
    simp [Piece.folded, Piece.tokens]
  | declared name =>
    obtain ⟨next, more, text, rfl, isNext⟩ := merges
    have named : dottedName? (name.tokens ++ next :: more) = some (name.tokens, next :: more) :=
      name.found fun _ _ same isDot => by
        obtain rfl := (List.cons.inj same).1
        rw [isNext] at isDot
        cases isDot
    -- A cast is looked for first, and a dotted name does not begin with a parenthesis.
    have noCast : castAt? previous (name.tokens ++ next :: more) = none := by
      obtain ⟨first, isName⟩ := name.first_name
      exact castAt_symbol (by simp [isName]) _
    have isDeclared : declaredAt? (name.tokens ++ next :: more) =
        some (⟨.declaredType (joined name.tokens), name.first.position⟩, name.tokens.length) := by
      rw [declaredAt?, named]
      simp [isNext, DottedName.tokens]
    rw [Piece.tokens, noCast, Option.none_or, isDeclared, name.joined, Piece.folded]

/-- At the front of a list stands a piece: one that is folded, or the first token alone. -/
theorem exists_fits (before : Option Token) (token : Token) (more : List Token) :
    ∃ (piece : Piece) (after : List Token), token :: more = piece.tokens ++ after ∧
      piece.Fits before after := by
  cases found : castAt? before (token :: more) <|> declaredAt? (token :: more) with
  | some folded =>
    obtain ⟨piece, after, same, merges⟩ := found_merges found
    exact ⟨piece, after, same, merges.fits⟩
  | none =>
    refine ⟨.kept token, more, rfl, fun piece rest same merges => ?_⟩
    have isFound := merges_found merges
    rw [← same, found] at isFound
    cases isFound

/-- The piece at the front of a list is folded, and its tokens are passed. -/
theorem Piece.Fits.next {piece : Piece} {before : Option Token} {token : Token}
    {more after : List Token} (fits : piece.Fits before after)
    (same : token :: more = piece.tokens ++ after) :
    foldFrom 0 before (token :: more) =
      piece.folded :: foldFrom (piece.tokens.length - 1) (some token) more := by
  rw [foldFrom]
  cases piece with
  | kept first =>
    obtain ⟨rfl, rfl⟩ := List.cons.inj same
    cases found : castAt? before (token :: more) <|> declaredAt? (token :: more) with
    | some folded =>
      obtain ⟨piece, after, same, merges⟩ := found_merges found
      exact absurd merges (fits piece after same)
    | none => rfl
  | cast opening closing name =>
    have merges : (Piece.cast opening closing name).Merges before after := fits
    rw [same, merges_found merges]
  | declared name =>
    have merges : (Piece.declared name).Merges before after := fits
    rw [same, merges_found merges]

/-! ### Pieces in a row -/

/-- Pieces that stand in a row behind a token. -/
inductive Standing : Option Token → List Piece → Prop
  | nil {before : Option Token} : Standing before []
  | cons {before : Option Token} {piece : Piece} {rest : List Piece}
      (fits : piece.Fits before (tokensOf rest)) (others : Standing piece.tokens.getLast? rest) :
      Standing before (piece :: rest)

/-- **A list is cut into pieces** that stand in a row. -/
theorem exists_standing (before : Option Token) (tokens : List Token) :
    ∃ pieces, tokensOf pieces = tokens ∧ Standing before pieces := by
  match tokens with
  | [] => exact ⟨[], rfl, .nil⟩
  | token :: more =>
    obtain ⟨piece, after, same, fits⟩ := exists_fits before token more
    obtain ⟨pieces, rfl, standing⟩ := exists_standing piece.tokens.getLast? after
    exact ⟨piece :: pieces, same.symm, .cons fits standing⟩
termination_by tokens.length
decreasing_by
  -- Every piece has a token, so fewer tokens are left behind it.
  have length := congrArg List.length same
  obtain ⟨first, others, isPiece⟩ := piece.tokens_cons
  rw [isPiece] at length
  simp only [List.length_cons, List.length_append] at length ⊢
  omega

/-- Behind the tokens of a piece folding goes on as behind the last of them. -/
theorem foldFrom_behind {piece : Piece} {token : Token} {more after : List Token}
    (same : token :: more = piece.tokens ++ after) :
    foldFrom (piece.tokens.length - 1) (some token) more =
      foldFrom 0 piece.tokens.getLast? after := by
  obtain ⟨first, tokens, isPiece⟩ := piece.tokens_cons
  rw [isPiece] at same ⊢
  obtain ⟨rfl, rfl⟩ := List.cons.inj same
  -- All tokens of the piece but the first are skipped, and the last of them is the previous one.
  rcases List.eq_nil_or_concat tokens with rfl | ⟨front, last, rfl⟩
  · rfl
  · rw [List.concat_eq_append, List.append_eq, List.append_assoc, ← List.cons_append,
      List.getLast?_concat]
    exact foldFrom_skip front after last (some token)

/-- **Pieces that stand in a row are folded** one by one. -/
theorem Standing.folded {before : Option Token} {pieces : List Piece}
    (standing : Standing before pieces) :
    foldFrom 0 before (tokensOf pieces) = pieces.map Piece.folded := by
  induction standing with
  | nil => rfl
  | @cons before piece rest fits others ih =>
    obtain ⟨token, more, isPiece⟩ := piece.tokens_cons
    have same : token :: (more ++ tokensOf rest) = piece.tokens ++ tokensOf rest := by
      rw [isPiece, List.cons_append]
    calc foldFrom 0 before (tokensOf (piece :: rest))
        = foldFrom 0 before (token :: (more ++ tokensOf rest)) := by
          rw [same, tokensOf, List.flatMap_cons, ← tokensOf]
      _ = piece.folded ::
          foldFrom (piece.tokens.length - 1) (some token) (more ++ tokensOf rest) := fits.next same
      _ = piece.folded :: foldFrom 0 piece.tokens.getLast? (tokensOf rest) := by
          rw [foldFrom_behind same]
      _ = (piece :: rest).map Piece.folded := by rw [ih, List.map_cons]

theorem Standing.fits {pieces : List Piece} {before : Option Token}
    (standing : Standing before pieces) {front back : List Piece} {piece : Piece}
    (same : pieces = front ++ piece :: back) :
    piece.Fits ((tokensOf front).getLast?.or before) (tokensOf back) := by
  induction front generalizing before pieces with
  | nil =>
    subst same
    cases standing with
    | cons fits others => exact fits
  | cons first front ih =>
    subst same
    cases standing with
    | cons fits others =>
      obtain ⟨token, more, isFirst⟩ := first.tokens_cons
      have last : first.tokens.getLast?.or before = first.tokens.getLast? := by
        rw [isFirst, List.getLast?_eq_some_getLast (List.cons_ne_nil token more), Option.some_or]
      have here := ih others rfl
      rwa [tokensOf, List.flatMap_cons, List.getLast?_append, Option.or_assoc, last]

/-- In front of a name stands a token that is kept or the type of a declaration. -/
theorem tokensOf_name {pieces : List Piece} {next : Token} {more : List Token} {text : String}
    (same : tokensOf pieces = next :: more) (isName : next.lexeme = .name text) :
    ∃ piece rest, pieces = piece :: rest ∧
      (piece = .kept next ∨ ∃ name : DottedName, name.first = next ∧ piece = .declared name) := by
  cases pieces with
  | nil => cases same
  | cons piece rest =>
    refine ⟨piece, rest, rfl, ?_⟩
    rw [tokensOf, List.flatMap_cons] at same
    cases piece with
    | kept token => exact .inl (congrArg Piece.kept (List.cons.inj same).1)
    | cast opening closing name =>
      rw [← (List.cons.inj same).1] at isName
      cases isName
    | declared name => exact .inr ⟨name, (List.cons.inj same).1, rfl⟩

/-- **Folding loses no token.** The tokens of a list fall into pieces, in order, that become the
folded ones. Each piece fits between the tokens in front of it and those behind it: a cast opens
behind no name and no keyword of a condition and stands in front of an operand, and the type of a
declaration stands in front of a name. Among the folded tokens the type of a declaration is
followed by this name, unless the name begins the type of another declaration itself. -/
theorem fold_unfolds (tokens : List Token) : ∃ pieces : List Piece,
    tokensOf pieces = tokens ∧ pieces.map Piece.folded = fold tokens ∧
    (∀ front piece back, pieces = front ++ piece :: back →
      piece.Fits (tokensOf front).getLast? (tokensOf back)) ∧
    ∀ front name back, pieces = front ++ .declared name :: back →
      ∃ next more, back = next :: more ∧
        ((∃ token text, next = .kept token ∧ token.lexeme = .name text) ∨
          ∃ other, next = .declared other) := by
  obtain ⟨pieces, unfolded, standing⟩ := exists_standing none tokens
  have folded : pieces.map Piece.folded = fold tokens := by
    rw [fold, ← unfolded, standing.folded]
  have fits (front : List Piece) (piece : Piece) (back : List Piece)
      (same : pieces = front ++ piece :: back) :
      piece.Fits (tokensOf front).getLast? (tokensOf back) := by
    simpa using standing.fits same
  refine ⟨pieces, unfolded, folded, fits, fun front name back same => ?_⟩
  obtain ⟨token, rest, text, follows, isName⟩ := fits front (.declared name) back same
  obtain ⟨next, more, rfl, kept | ⟨other, -, declared⟩⟩ := tokensOf_name follows isName
  · exact ⟨next, more, rfl, .inl ⟨token, text, kept, isName⟩⟩
  · exact ⟨next, more, rfl, .inr ⟨other, declared⟩⟩

/-- Of three names in a row the second one is folded as well, though it is what the first one
declares, and it is the one that is blamed. -/
theorem declaredName_folded :
    (Lexer.tokens "String s t;".toList).map (fun tokens => (fold tokens).map Token.lexeme) =
        .ok [.declaredType "String", .declaredType "s", .name "t", .symbol .semicolon] ∧
      (parseSource "String s t;".toList).map (fun _ => ()) =
        .error (.unexpected ⟨.declaredType "s", ⟨1, 8⟩⟩) := by
  decide +kernel

end Fold

end Formulary
