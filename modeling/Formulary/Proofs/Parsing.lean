/-
The parser accepts what the grammar derives, and blames the token that goes against it.

* `parse_derived` — what is read is what is derived, each `else` belonging to the nearest `if`.
* `parse_blames` — a failure names the first token behind which nothing can make a body, or the
  end of tokens that only more of them could make one.
* `readBody_grammar` — both for a whole text, with its literals read.
-/

import Formulary.Proofs.StatementCompleteness
import Formulary.Proofs.StatementReading
import Formulary.Syntax.Literal

namespace Formulary.Lexer

open Formulary.Parser (Lexical)

/-! ### Tokens of a text -/

theorem symbolAt_mem {text : List Char} {symbol : Symbol} (h : symbolAt? text = some symbol) :
    symbol ∈ Symbol.all := by
  have step : ∀ symbol, symbolAt? text = some symbol → symbol ∈ Symbol.all := by
    unfold symbolAt?
    refine List.foldlRecOn
      (motive := fun best => ∀ symbol, best = some symbol → symbol ∈ Symbol.all)
      Symbol.all _ (by rintro _ ⟨⟩) ?_
    intro best isBest first isFirst symbol same
    split at same
    · split at same
      · split at same
        · cases same
          exact isFirst
        · exact isBest symbol same
      · cases same
        exact isFirst
    · exact isBest symbol same
  exact step symbol h

theorem scan_lexical {text : List Char} {lexeme : Lexeme} {length : Nat}
    (h : scan text = some (some lexeme, length)) (p : Position) : Lexical ⟨lexeme, p⟩ := by
  rintro op rfl
  have word (letters : List Char) : wordLexeme letters ≠ .symbol (.compound op) := by
    unfold wordLexeme
    dsimp only
    split <;> simp
  unfold scan at h
  dsimp only at h
  split at h
  · cases h
  · split at h
    · cases h
    · split at h
      · cases h
      · split at h
        · cases h
        · split at h
          · cases h
          · split at h
            · simp [word] at h
            · obtain ⟨symbol, isSymbol, same⟩ := Option.map_eq_some_iff.mp h
              cases same
              have isIn := symbolAt_mem isSymbol
              revert isIn
              cases op <;> decide

theorem tokensFrom_lexical {text : List Char} {skip : Nat} {p : Position} {tokens : List Token}
    (h : tokensFrom skip p text = .ok tokens) : ∀ token ∈ tokens, Lexical token := by
  induction text generalizing skip p tokens with
  | nil =>
    cases skip <;> cases h <;> simp
  | cons c rest ih =>
    cases skip with
    | succ skip => exact ih h
    | zero =>
      rw [tokensFrom] at h
      split at h
      · cases h
      · exact ih h
      · next lexeme length isScan =>
        cases others : tokensFrom (length - 1) (p.advance c) rest with
        | error e => simp [others, Except.map] at h
        | ok more =>
          obtain rfl : ⟨lexeme, p⟩ :: more = tokens := by simpa [others, Except.map] using h
          intro token isIn
          rcases List.mem_cons.mp isIn with rfl | isIn
          · exact scan_lexical isScan p
          · exact ih others token isIn

end Formulary.Lexer

namespace Formulary.Fold

open Formulary.Parser (Lexical)

theorem castAt_lexeme {previous : Option Token} {tokens : List Token} {folded : Token} {count : Nat}
    (h : castAt? previous tokens = some (folded, count)) :
    ∃ name, folded.lexeme = .castType name := by
  cases tokens with
  | nil => cases h
  | cons first rest =>
    rw [castAt?] at h
    split at h
    · split at h
      · split at h
        · obtain ⟨_, _, same⟩ := Option.map_eq_some_iff.mp h
          cases same
          exact ⟨_, rfl⟩
        · cases h
      · cases h
    · cases h

theorem declaredAt_lexeme {tokens : List Token} {folded : Token} {count : Nat}
    (h : declaredAt? tokens = some (folded, count)) :
    ∃ name, folded.lexeme = .declaredType name := by
  unfold declaredAt? at h
  split at h
  · split at h
    · obtain ⟨_, _, same⟩ := Option.map_eq_some_iff.mp h
      cases same
      exact ⟨_, rfl⟩
    · cases h
  · cases h

theorem foldFrom_lexical {tokens : List Token} (h : ∀ token ∈ tokens, Lexical token) (skip : Nat)
    (previous : Option Token) : ∀ token ∈ foldFrom skip previous tokens, Lexical token := by
  induction tokens generalizing skip previous with
  | nil => cases skip <;> simp [foldFrom]
  | cons first rest ih =>
    have others := ih fun token isIn => h token (List.mem_cons_of_mem _ isIn)
    cases skip with
    | succ skip => exact others skip _
    | zero =>
      rw [foldFrom]
      split
      · next folded count same =>
        intro token isIn
        rcases List.mem_cons.mp isIn with rfl | isIn
        · rintro op isCompound
          cases isCast : castAt? previous (first :: rest) with
          | some found =>
            obtain rfl : found = (token, count) := by simpa [isCast] using same
            obtain ⟨name, isCast⟩ := castAt_lexeme isCast
            cases isCast.symm.trans isCompound
          | none =>
            obtain ⟨name, isDeclared⟩ := declaredAt_lexeme (by simpa [isCast] using same)
            cases isDeclared.symm.trans isCompound
        · exact others _ _ token isIn
      · intro token isIn
        rcases List.mem_cons.mp isIn with rfl | isIn
        · exact h _ List.mem_cons_self
        · exact others _ _ token isIn

end Formulary.Fold

namespace Formulary.Parser

open Grammar

/-! ### Trees -/

/-- Tokens that end where only more of them could make a body. -/
def Incomplete (tokens : List Token) : Prop :=
  Begins tokens ∧ ¬∃ body, Body tokens body

/-- The first token behind which nothing can make a body. -/
def Blamed (tokens : List Token) (token : Token) : Prop :=
  ∃ before after, tokens = before ++ token :: after ∧ Begins before ∧ ¬Begins (before ++ [token])

/-- What is read is what is derived, each `else` belonging to the nearest `if`. -/
theorem parse_derived {tokens : List Token} (lexical : ∀ token ∈ tokens, Lexical token)
    (statements : List SourceStmt) :
    body tokens = .ok statements ↔ Body tokens statements ∧ NearestElseAll statements := by
  refine ⟨fun h => ⟨?_, statements_nearest h⟩, fun h => body_yields h.1 h.2⟩
  have reads := statements_reads (fuelFor tokens) lexical
  rw [body] at h
  rwa [h] at reads

theorem begins_shorter {front : List Token} (back : List Token) (h : Begins (front ++ back)) :
    Begins front := by
  obtain ⟨more, body, h⟩ := h
  exact ⟨back ++ more, body, by rwa [← List.append_assoc]⟩

/-- A failure leaves the tokens from the blamed one on, or none if there is none to blame. -/
theorem parse_fails {tokens rest : List Token} (lexical : ∀ token ∈ tokens, Lexical token)
    (h : body tokens = .error rest) :
    (¬∃ statements, Body tokens statements) ∧ ∃ before, tokens = before ++ rest ∧ Begins before ∧
      ∀ token after, rest = token :: after → ¬Begins (before ++ [token]) := by
  have none : ¬∃ statements, Body tokens statements := by
    rintro ⟨statements, derived⟩
    obtain ⟨nearest, derived, isNearest⟩ := body_nearest derived
    rw [body_yields derived isNearest] at h
    cases h
  refine ⟨none, ?_⟩
  have reads := statements_reads (fuelFor tokens) lexical
  rw [body] at h
  rw [h] at reads
  obtain ⟨before, rfl, begins⟩ := reads
  refine ⟨before, rfl, begins, ?_⟩
  rintro token after rfl ⟨more, statements, derived⟩
  -- A body that goes on behind the token would be read, whatever stands behind it here.
  rw [List.append_assoc, List.singleton_append] at derived
  obtain ⟨nearest, derived, isNearest⟩ := body_nearest derived
  have read := body_yields derived isNearest
  have left := Nat.le_max_left (fuelFor (before ++ token :: after))
    (fuelFor (before ++ token :: more))
  have right := Nat.le_max_right (fuelFor (before ++ token :: after))
    (fuelFor (before ++ token :: more))
  rw [statements_fuel (Nat.le_refl _) left] at h
  rw [body, statements_fuel (Nat.le_refl _) right, statements_alike left right h] at read
  cases read

/-- No body begins with tokens up to and with a blamed one. -/
theorem begins_before {before before' after after' : List Token} {token token' : Token}
    (same : before ++ token :: after = before' ++ token' :: after')
    (h : ¬Begins (before ++ [token])) (h' : Begins before') : before'.length ≤ before.length := by
  refine Nat.le_of_not_lt fun longer => ?_
  rcases List.append_eq_append_iff.mp same with ⟨more, rfl, split⟩ | ⟨more, rfl, -⟩
  · cases more with
    | nil => simp at longer
    | cons first more =>
      obtain rfl : token = first := (List.cons.inj split).1
      rw [← List.singleton_append, ← List.append_assoc] at h'
      exact h (begins_shorter _ h')
  · simp only [List.length_append] at longer
    omega

theorem blamed_unique {tokens : List Token} {token token' : Token} (h : Blamed tokens token)
    (h' : Blamed tokens token') : token = token' := by
  obtain ⟨before, after, rfl, begins, blamed⟩ := h
  obtain ⟨before', after', same, begins', blamed'⟩ := h'
  have length := Nat.le_antisymm (begins_before same.symm blamed' begins)
    (begins_before same blamed begins')
  exact (List.cons.inj (List.append_inj same length).2).1

theorem blamed_not_incomplete {tokens : List Token} {token : Token} (h : Blamed tokens token) :
    ¬Begins tokens := by
  obtain ⟨before, after, rfl, -, blamed⟩ := h
  intro begins
  refine blamed (begins_shorter after ?_)
  rwa [List.append_assoc, List.singleton_append]

/-- **Syntax.** The tokens of a text are read as the body that they derive in which each `else`
belongs to the nearest `if`. Where they derive none, the report is of the first token behind
which nothing can make a body, or, where more tokens could, of the end of the text. -/
theorem parseSource_grammar {text : List Char} {raw : List Token}
    (scanned : Lexer.tokens text = .ok raw) :
    (∀ statements, parseSource text = .ok statements ↔
      Body (Fold.fold raw) statements ∧ NearestElseAll statements) ∧
    (∀ token, parseSource text = .error (.unexpected token) ↔ Blamed (Fold.fold raw) token) ∧
    (∀ p, parseSource text = .error (.endOfText p) ↔ Incomplete (Fold.fold raw) ∧
      p = (Fold.fold raw).getLast?.elim Position.start Token.position) := by
  have lexical : ∀ token ∈ Fold.fold raw, Lexical token :=
    Fold.foldFrom_lexical (Lexer.tokensFrom_lexical scanned) 0 none
  unfold parseSource
  rw [scanned]
  dsimp only
  generalize Fold.fold raw = tokens at lexical
  cases result : body tokens with
  | ok statements =>
    obtain ⟨derived, nearest⟩ := (parse_derived lexical statements).mp result
    have begins : Begins tokens := ⟨[], statements, by rwa [List.append_nil]⟩
    refine ⟨fun other => ?_, fun token => ?_, fun p => ?_⟩
    · rw [← parse_derived lexical other, result]
      simp
    · refine ⟨fun same => (nomatch same), fun blamed => ?_⟩
      exact (blamed_not_incomplete blamed begins).elim
    · exact ⟨fun same => (nomatch same), fun incomplete =>
        (incomplete.1.2 ⟨statements, derived⟩).elim⟩
  | error rest =>
    obtain ⟨none, before, rfl, begins, blames⟩ := parse_fails lexical result
    refine ⟨fun statements => ⟨fun same => (nomatch same), fun h => (none ⟨_, h.1⟩).elim⟩, ?_⟩
    cases rest with
    | nil =>
      rw [List.append_nil] at none ⊢
      refine ⟨fun token => ⟨fun same => (nomatch same), fun blamed => ?_⟩, fun p => ?_⟩
      · exact (blamed_not_incomplete blamed begins).elim
      · simp only [Except.error.injEq, SyntaxError.ofFailure, SyntaxError.endOfText.injEq]
        exact ⟨fun same => ⟨⟨begins, none⟩, same.symm⟩, fun h => h.2.symm⟩
    | cons token after =>
      have blamed : Blamed (before ++ token :: after) token :=
        ⟨before, after, rfl, begins, blames token after rfl⟩
      refine ⟨fun other => ⟨fun same => ?_, fun h => ?_⟩, fun p => ⟨fun same => ?_, fun h => ?_⟩⟩
      · cases same
        exact blamed
      · rw [blamed_unique h blamed]
        rfl
      · cases same
      · exact (blamed_not_incomplete blamed h.1.1).elim

/-- A text whose tokens derive a single statement is read as it. -/
theorem parseSource_statement {text : List Char} {raw : List Token} {s : SourceStmt}
    (scanned : Lexer.tokens text = .ok raw) (written : Statement (Fold.fold raw) s)
    (nearest : NearestElse s) : parseSource text = .ok [s] := by
  refine ((parseSource_grammar scanned).1 [s]).mpr ⟨⟨[(Fold.fold raw, s)], ?_, ?_, rfl⟩, ?_⟩
  · intro part isIn
    rw [List.mem_singleton] at isIn
    rwa [isIn]
  · exact (List.flatMap_singleton Prod.fst (Fold.fold raw, s)).symm
  · exact ⟨nearest, trivial⟩

/-- Results can be compared where values and errors can. -/
instance decidableEqResult {ε α : Type} [DecidableEq ε] [DecidableEq α] :
    DecidableEq (Except ε α)
  | .ok a, .ok b => decidable_of_iff (a = b) (by simp)
  | .error e, .error e' => decidable_of_iff (e = e') (by simp)
  | .ok _, .error _ => .isFalse (by simp)
  | .error _, .ok _ => .isFalse (by simp)

/-- A result that is an error with its value left out is that error. -/
theorem error_of_map {ε α β : Type} {result : Except ε α} {f : α → β} {error : ε}
    (h : result.map f = .error error) : result = .error error := by
  cases result with
  | error other => simpa [Except.map] using h
  | ok a => cases h

/-- **Reading.** A text that can be cut into tokens is read as a body exactly if its tokens
derive one, if the body is not nested too deeply and if all of its literals denote values; the
body is the derived one in which each `else` belongs to the nearest `if`. Where the tokens derive
none, the report is of the first token behind which nothing can make a body, or, where more
tokens could, of the end of the text. -/
theorem readBody_grammar {text : List Char} {raw : List Token}
    (scanned : Lexer.tokens text = .ok raw) :
    (∀ values, readBody text = .ok values ↔ ∃ statements,
      Body (Fold.fold raw) statements ∧ NearestElseAll statements ∧
      Stmt.depthOfAll statements ≤ maxDepth ∧
      Stmt.mapAllLiterals Literal.value statements = .ok values) ∧
    (∀ error, readBody text = .error (.literal error) ↔ ∃ statements,
      Body (Fold.fold raw) statements ∧ NearestElseAll statements ∧
      Stmt.depthOfAll statements ≤ maxDepth ∧
      Stmt.mapAllLiterals Literal.value statements = .error error) ∧
    (readBody text = .error .tooDeep ↔ ∃ statements,
      Body (Fold.fold raw) statements ∧ NearestElseAll statements ∧
      maxDepth < Stmt.depthOfAll statements) ∧
    (∀ token, readBody text = .error (.syntaxError (.unexpected token)) ↔
      Blamed (Fold.fold raw) token) ∧
    (∀ p, readBody text = .error (.syntaxError (.endOfText p)) ↔ Incomplete (Fold.fold raw) ∧
      p = (Fold.fold raw).getLast?.elim Position.start Token.position) := by
  obtain ⟨derived, blamed, incomplete⟩ := parseSource_grammar scanned
  -- What is derived is what is read, so that there is one body at most.
  have one {P : List SourceStmt → Prop} : (∃ statements, Body (Fold.fold raw) statements ∧
      NearestElseAll statements ∧ P statements) ↔
        ∃ statements, parseSource text = .ok statements ∧ P statements := by
    simp only [derived, and_assoc]
  simp only [one, ← blamed, ← incomplete, readBody]
  cases parseSource text with
  | error error => simp
  | ok statements =>
    by_cases deep : maxDepth < Stmt.depthOfAll statements
    · simp [deep, Nat.not_le.mpr deep]
    · have shallow := Nat.not_lt.mp deep
      cases literals : Stmt.mapAllLiterals Literal.value statements with
      | error error => simp [deep, shallow, literals, Except.mapError]
      | ok values => simp [deep, shallow, literals, Except.mapError]

/-- A text that ends in the middle of a statement. -/
theorem unfinishedReturn_incomplete :
    Lexer.tokens "return 1".toList =
        .ok [⟨.keyword .returnWord, ⟨1, 1⟩⟩, ⟨.integer ['1'], ⟨1, 8⟩⟩] ∧
      readBody "return 1".toList = .error (.syntaxError (.endOfText ⟨1, 8⟩)) ∧
      Incomplete (Fold.fold [⟨.keyword .returnWord, ⟨1, 1⟩⟩, ⟨.integer ['1'], ⟨1, 8⟩⟩]) := by
  have scanned : Lexer.tokens "return 1".toList =
      .ok [⟨.keyword .returnWord, ⟨1, 1⟩⟩, ⟨.integer ['1'], ⟨1, 8⟩⟩] := by decide +kernel
  have unread : readBody "return 1".toList = .error (.syntaxError (.endOfText ⟨1, 8⟩)) :=
    error_of_map (f := fun _ => ()) (by decide +kernel)
  exact ⟨scanned, unread, (((readBody_grammar scanned).2.2.2.2 _).mp unread).1⟩

/-- The tokens of a text that returns a string with an unknown escape in it. -/
def unknownEscape : List Token :=
  [⟨.keyword .returnWord, ⟨1, 1⟩⟩, ⟨.string "\"\\q\"".toList, ⟨1, 8⟩⟩,
    ⟨.symbol .semicolon, ⟨1, 12⟩⟩]

/-- A body may be derived and still hold a literal that denotes nothing. -/
theorem unknownEscape_unread :
    Lexer.tokens "return \"\\q\";".toList = .ok unknownEscape ∧
      (∃ statements, Body (Fold.fold unknownEscape) statements) ∧
      readBody "return \"\\q\";".toList = .error (.literal (.unknownEscape 'q')) := by
  have literal : Derives .primary [⟨.string "\"\\q\"".toList, ⟨1, 8⟩⟩]
      ⟨.literal ⟨1, 8⟩ (.string "\"\\q\"".toList), ⟨1, 8⟩⟩ :=
    .literal (.string _)
  have value := Derives.unassigned (.unconditional
    ((Derives.operand (.unadorned (.unsuffixed literal))).lower (by decide)))
  have folded : Fold.fold unknownEscape = unknownEscape := by decide +kernel
  have written : Statement unknownEscape _ :=
    .returns (p := ⟨1, 1⟩) (q := ⟨1, 12⟩) (.some value)
  rw [folded]
  exact ⟨by decide +kernel, ⟨_, [(unknownEscape, _)], by simpa using written, by simp, rfl⟩,
    error_of_map (f := fun _ => ()) (by decide +kernel)⟩

end Formulary.Parser
