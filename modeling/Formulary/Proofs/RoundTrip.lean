/-
What is printed is read back.

* `parseSource_returned` — a text that falls into lexemes which are folded back and derived.
* `readBody_resembling` — the values of its literals.
* `readBody_printed` — an expression, printed and read, is the same but for its positions.
-/

import Formulary.Proofs.Denotation
import Formulary.Proofs.Parsing
import Formulary.Proofs.PrintedLexing

namespace Formulary.Printing

open Grammar

/-! ### Reading -/

/-- The text of lexemes that are found whole and returned falls into them. -/
theorem cut_returned {pieces : List Lexeme} (whole : AllWhole pieces) :
    Lexer.Cut (.keyword .returnWord :: (pieces.flatMap writtenOut ++ [.symbol .semicolon]))
      (spaced (.keyword .returnWord :: (pieces.flatMap writtenOut ++ [.symbol .semicolon]))) := by
  have allWhole : ∀ lexeme ∈ Lexeme.keyword .returnWord :: pieces.flatMap writtenOut,
      Lexer.Whole lexeme := by
    intro lexeme isIn
    rcases List.mem_cons.mp isIn with rfl | isIn
    · exact Lexer.whole_keyword _
    · exact whole lexeme isIn
  exact Lexer.cut_spaced allWhole (Lexer.whole_symbol (by decide)) (by rfl)

/-- A text that falls into lexemes which are folded back and derived as an expression is read as
one that is returned. -/
theorem parseSource_returned {pieces : List Lexeme} {P : SourceExpr → Prop} {text : List Char}
    (cut : Lexer.Cut
      (.keyword .returnWord :: (pieces.flatMap writtenOut ++ [.symbol .semicolon])) text)
    (free : Free pieces)
    (derives : ∀ tokens, tokens.map Token.lexeme = pieces →
      ∃ v, Derives .expression tokens v ∧ P v.expr) :
    ∃ p source, P source ∧ parseSource text = .ok [.returns p (some source)] := by
  obtain ⟨raw, scanned, same⟩ := Lexer.tokensFrom_cut cut Position.start
  have apart : Fold.Apart none (.keyword .returnWord :: (pieces ++ [.symbol .semicolon])) :=
    ⟨trivial, (free (some (.keyword .returnWord)) rfl).append (noName_cons rfl)
      fun _ => ⟨trivial, trivial⟩⟩
  have folded : (Fold.fold raw).map Token.lexeme =
      .keyword .returnWord :: (pieces ++ [.symbol .semicolon]) :=
    Fold.fold_apart rfl apart (by rw [same]; simp [writtenOut])
  obtain ⟨⟨_, p⟩, tokens, isFold, rfl, isRest⟩ := List.map_eq_cons_iff.mp folded
  obtain ⟨inner, last, rfl, isInner, isLast⟩ := List.map_eq_append_iff.mp isRest
  obtain ⟨⟨_, q⟩, rest, rfl, rfl, none⟩ := List.map_eq_cons_iff.mp isLast
  obtain rfl := List.map_eq_nil_iff.mp none
  obtain ⟨v, derived, holds⟩ := derives inner isInner
  refine ⟨p, v.expr, holds, ?_⟩
  refine Parser.parseSource_statement scanned ?_ trivial
  rw [isFold]
  exact .returns (.some derived)

/-- The value of a literal is what its lexeme spells. -/
theorem value_spelled (literal : Spelled) :
    Literal.value literal.lexeme = .ok literal.value := by
  obtain ⟨lexeme, value, spells⟩ := literal
  cases spells with
  | @int n short =>
    have read := Literal.integer_toDigits short [] (by simp)
    rwa [List.append_nil] at read
  | @long n suffix short isLong =>
    exact Literal.integer_toDigits short [suffix] (by rintro _ _ ⟨⟩; exact isLong)
  | string closed denotes =>
    simp only [Literal.value, denotes]
    rfl
  | trueWord | falseWord | nullWord => rfl

theorem depth_resembling {source : SourceExpr} {e : PrintedExpr} (resembles : Resembles source e)
    (p : Position) : Stmt.depthOfAll [(Stmt.returns p (some source) : SourceStmt)] =
      e.depth + 1 := by
  have same := congrArg Expr.depth resembles
  rw [Expr.depth_unplaced, Expr.depth_unplaced] at same
  simp [Stmt.depthOfAll, Stmt.depth, same]

/-- The literals of what resembles an expression are read as the values of that expression. -/
theorem readBody_resembling {text : List Char} {p : Position} {source : SourceExpr}
    {e : PrintedExpr} (parsed : parseSource text = .ok [.returns p (some source)])
    (resembles : Resembles source e) (shallow : e.depth < maxDepth) :
    ∃ value, readBody text = .ok [.returns p (some value)] ∧
      value.unplaced id = e.unplaced Spelled.value := by
  have literals : (source.mapLiterals Literal.value).map (Expr.unplaced id) =
      .ok (e.unplaced Spelled.value) := by
    rw [← Expr.mapLiterals_unplaced, resembles, Expr.mapLiterals_read value_spelled]
  cases read : source.mapLiterals Literal.value with
  | error error => simp [read, Except.map] at literals
  | ok value =>
    refine ⟨value, ?_, by simpa [read, Except.map] using literals⟩
    rw [readBody, parsed]
    simp only [depth_resembling resembles p]
    rw [if_neg (by omega)]
    simp [Stmt.mapAllLiterals, Stmt.mapLiterals, Expr.mapLiterals?, read, Except.map,
      Except.mapError]
    rfl

/-- **Printing and reading.** An expression that is not nested too deeply, printed and read, is
returned as it was, but for its positions. -/
theorem readBody_printed (e : PrintedExpr) (printable : Printable e) :
    (e.depth < maxDepth → ∃ p value, readBody (printed e) = .ok [.returns p (some value)] ∧
      value.unplaced id = e.unplaced Spelled.value) ∧
    (maxDepth ≤ e.depth → readBody (printed e) = .error .tooDeep) := by
  have derives := denotes_expression (bare_denotes e printable)
  obtain ⟨p, source, resembles, parsed⟩ := parseSource_returned (P := (Resembles · e))
    (cut_returned (bare_whole e printable)) (bare_free e printable) derives
  constructor
  · intro shallow
    exact ⟨p, readBody_resembling parsed resembles shallow⟩
  · intro deep
    rw [readBody, printed, spelledOut, parsed]
    simp only [depth_resembling resembles p]
    rw [if_pos (by omega)]

/-- An expression that needs parentheses around a loose operand and around a sign behind a
cast. -/
def choice : PrintedExpr :=
  let name (ident : String) : PrintedExpr := .name Position.start ident
  let type (text : String) : TypeName Unit := ⟨Position.start, text, ()⟩
  let one : Spelled := ⟨.integer ['1'], .int 1, .int (n := 1) (by decide)⟩
  let two : Spelled := ⟨.integer ['2', 'L'], .long 2, .long (n := 2) (by decide) (by decide)⟩
  let text : Spelled := ⟨.string "\"\"".toList, .str [], .string (by decide +kernel) (by rfl)⟩
  .conditional Position.start (.instanceOf Position.start (name "x") (type "T.U"))
    (.cast Position.start (type "a.B") (.unary Position.start .minus
      (.index Position.start (name "b") (.step Position.start .increment (name "i") false))))
    (.binary Position.start .mul
      (.binary Position.start .add (.literal Position.start one) (.literal Position.start two))
      (.methodCall Position.start (.literal Position.start text) "length" []))

/-- It is printed with the parentheses that it needs, and read back. -/
theorem choice_printed :
    Printable choice ∧ choice.depth < maxDepth ∧
      printed choice =
        ("return x instanceof T . U ? ( a . B ) ( - b [ i ++ ] ) : ( 1 + 2L ) * \"\" . length " ++
          "( ) ;").toList ∧
      ∃ p value, readBody (printed choice) = .ok [.returns p (some value)] ∧
        value.unplaced id = choice.unplaced Spelled.value := by
  have printable : Printable choice := by
    have names : IsIdentifier "x" ∧ IsIdentifier "b" ∧ IsIdentifier "i" ∧
        IsIdentifier "length" ∧ IsTypeName "T.U" ∧ IsTypeName "a.B" := by
      decide +kernel
    obtain ⟨x, b, i, length, inner, outer⟩ := names
    exact ⟨⟨x, inner⟩, ⟨.inr outer, b, i⟩, ⟨trivial, trivial⟩, trivial, length, trivial⟩
  have shallow : choice.depth < maxDepth := by decide +kernel
  exact ⟨printable, shallow, by decide +kernel, (readBody_printed choice printable).1 shallow⟩

/-! ### Numerals that are too long -/

/-- A number with more digits than are taken is not read. -/
theorem readBody_tooLong {n : Nat} (long : maxDigits < (Nat.toDigits 10 n).length) :
    readBody (spaced [.keyword .returnWord, .integer (Nat.toDigits 10 n), .symbol .semicolon]) =
      .error (.literal (.tooManyDigits (Nat.toDigits 10 n).length)) := by
  have whole : AllWhole [.integer (Nat.toDigits 10 n)] := by
    have numeral := Lexer.whole_numeral n [] (by decide)
    rw [List.append_nil] at numeral
    exact allWhole_one numeral rfl
  have derives (tokens : List Token) (same : tokens.map Token.lexeme =
      [.integer (Nat.toDigits 10 n)]) : ∃ v, Derives .expression tokens v ∧
        ∃ q, v.expr = .literal q (.integer (Nat.toDigits 10 n)) := by
    obtain ⟨⟨_, q⟩, rest, rfl, rfl, none⟩ := List.map_eq_cons_iff.mp same
    obtain rfl := List.map_eq_nil_iff.mp none
    have literal := Derives.literal (p := q) (.integer (Nat.toDigits 10 n))
    exact ⟨_, literal.loosen (Nat.zero_le _) (by rintro _ ⟨⟩) (by rintro _ ⟨⟩), q, rfl⟩
  obtain ⟨p, source, ⟨q, rfl⟩, parsed⟩ := parseSource_returned
    (P := fun source => ∃ q, source = .literal q (.integer (Nat.toDigits 10 n)))
    (cut_returned whole)
    (fun _ _ => ⟨trivial, trivial⟩) derives
  have value : Literal.value (.integer (Nat.toDigits 10 n)) =
      .error (.tooManyDigits (Nat.toDigits 10 n).length) := by
    have read := Literal.integer_digits n [] (by simp)
    rw [List.append_nil, Literal.decimal, if_pos long] at read
    exact read
  change readBody (spaced (.keyword .returnWord ::
    ([Lexeme.integer (Nat.toDigits 10 n)].flatMap writtenOut ++ [.symbol .semicolon]))) = _
  rw [readBody, parsed]
  have shallow : ¬maxDepth < Stmt.depthOfAll
      [Stmt.returns p (some (Expr.literal q (Lexeme.integer (Nat.toDigits 10 n)) : SourceExpr))] := by
    simp [Stmt.depthOfAll, Stmt.depth, Expr.depth, maxDepth]
  dsimp only
  rw [if_neg shallow]
  simp [Stmt.mapAllLiterals, Stmt.mapLiterals, Expr.mapLiterals?, Expr.mapLiterals, value,
    Except.map, Except.mapError, bind, Except.bind]

theorem length_toDigits_pow (k : Nat) : (Nat.toDigits 10 (Nat.pow 10 k)).length = k + 1 := by
  refine Nat.le_antisymm ?_ (Nat.lt_of_not_ge fun short => ?_)
  · exact (Nat.length_toDigits_le_iff (by decide) (Nat.succ_pos k)).mpr
      (Nat.pow_lt_pow_right (by decide) (Nat.lt_succ_self k))
  · cases k with
    | zero => exact absurd short (by decide)
    | succ k =>
      exact Nat.lt_irrefl _
        ((Nat.length_toDigits_le_iff (by decide) (Nat.succ_pos k)).mp short)

/-- The least number with one digit too many is written like any other, and not read. -/
theorem longNumeral_unread :
    (Nat.toDigits 10 (Nat.pow 10 maxDigits)).length = maxDigits + 1 ∧
      readBody (spaced [.keyword .returnWord, .integer (Nat.toDigits 10 (Nat.pow 10 maxDigits)),
        .symbol .semicolon]) = .error (.literal (.tooManyDigits (maxDigits + 1))) := by
  have length := length_toDigits_pow maxDigits
  have long : maxDigits < (Nat.toDigits 10 (Nat.pow 10 maxDigits)).length :=
    length ▸ Nat.lt_succ_self maxDigits
  have unread := readBody_tooLong long
  rw [length] at unread
  exact ⟨length, unread⟩

end Formulary.Printing
