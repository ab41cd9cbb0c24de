/-
Whatever the grammar derives as a statement, the parser reads.

A derivation may give an `else` to any of the `if`s that have none yet; the parser reads the tree
in which it belongs to the nearest one. Any derivation can be turned into one of that tree.

* `statement_yields`, `body_yields` — derived statements and bodies are read, each `else`
  belonging to the nearest `if`.
* `body_nearest` — tokens that are a body are one in which each `else` is so.
-/

import Formulary.Proofs.Completeness
import Formulary.Proofs.StatementLookahead

namespace Formulary.Parser

open Grammar

/-! ### Declarations -/

theorem declaredType_typeOf {token : Token} {type : TypeName Unit} (h : DeclaredType token type) :
    typeOf? token = some type := by
  cases h <;> rfl

theorem opens_typeOf {token : Token} (h : Opens token.lexeme) : typeOf? token = none := by
  obtain ⟨lexeme, p⟩ := token
  cases h with
  | literal isLiteral => cases isLiteral <;> rfl
  | name | leftParen | new | unary | step | castType => rfl

/-- A declared name is read in front of what may follow it. -/
theorem declares_yields {tokens after : List Token} {first : Declarator Lexeme Unit}
    {out : List (Declarator Lexeme Unit) × List Token} (h : Declares tokens first)
    (stops : Stops .expression after)
    (h' : Yields (fun fuel =>
      if comesNext .comma after then do
        let (others, rest) ← declarators fuel (after.drop 1)
        return (first :: others, rest)
      else return ([first], after)) out) :
    Yields (declarators · (tokens ++ after)) out := by
  refine Yields.step ?_
  cases h with
  | bare name p =>
    have noAssign : comesNext .assign after = false := stops.absent rfl
    simp only [List.cons_append, List.nil_append, declarators, expectName, bind, Except.bind,
      noAssign]
    exact h'
  | @initial name p q tokens value h =>
    obtain ⟨flag, read⟩ := derives_yields h after stops
    change Yields (fun fuel => expression fuel (tokens ++ after) >>= _) _
    exact Yields.bind read h'

theorem declarators_yields {tokens rest : List Token} {names : List (Declarator Lexeme Unit)}
    {p : Position} (h : Declarators tokens names) :
    Yields (declarators · (tokens ++ ⟨.symbol .semicolon, p⟩ :: rest))
      (names, ⟨.symbol .semicolon, p⟩ :: rest) := by
  obtain ⟨parts, some, declared, separated, rfl⟩ := h
  induction parts generalizing tokens with
  | nil => exact (some rfl).elim
  | cons part parts ih =>
    obtain ⟨first, declarator⟩ := part
    have isFirst := declared _ List.mem_cons_self
    cases parts with
    | nil =>
      cases separated
      exact declares_yields isFirst (.cons rfl) Yields.pure
    | cons second parts =>
      cases separated with
      | @cons q _ _ joined _ separated =>
        have others := ih (List.cons_ne_nil _ _)
          (fun part isIn => declared part (List.mem_cons_of_mem _ isIn)) separated
        rw [List.append_assoc]
        exact declares_yields isFirst (.cons rfl) (Yields.bind others Yields.pure)

/-! ### Parts of statements -/

theorem parenthesized_yields {test rest : List Token} {condition : Parsed} {p q : Position}
    (h : Derives .expression test condition) :
    Yields
      (parenthesized · (⟨.symbol .leftParen, p⟩ :: (test ++ ⟨.symbol .rightParen, q⟩ :: rest)))
      (condition.expr, rest) := by
  obtain ⟨flag, read⟩ := derives_yields h (⟨.symbol .rightParen, q⟩ :: rest) (.cons rfl)
  exact Yields.bind read Yields.pure

/-- An expression and the semicolon behind it. -/
theorem terminated_yields {α : Type} {tokens rest : List Token} {value : Parsed} {p : Position}
    (h : Derives .expression tokens value) (build : SourceExpr → α) :
    Yields
      (fun fuel => expression fuel (tokens ++ ⟨.symbol .semicolon, p⟩ :: rest) >>= fun x =>
        expectSymbol .semicolon x.2 >>= fun rest => .ok (build x.1.expr, rest))
      (build value.expr, rest) := by
  obtain ⟨flag, read⟩ := derives_yields h (⟨.symbol .semicolon, p⟩ :: rest) (.cons rfl)
  exact Yields.bind read Yields.pure

/-- An expression does not begin with what ends one. -/
theorem derives_absent {phrase : Phrase} {tokens : List Token} {v : Parsed}
    (h : Derives phrase tokens v) (symbol : Symbol) (closes : mayOpen (.symbol symbol) = false)
    (rest : List Token) :
    comesNext symbol (tokens ++ rest) = false := by
  obtain ⟨token, more, rfl, opens⟩ := h.opens
  exact opens_absent opens symbol closes _

/-- Expressions with commas between them begin as the first of them does. -/
theorem expressions_opens {parts : List (List Token × Parsed)} {joined : List Token}
    (some : parts ≠ []) (derived : ∀ part ∈ parts, Derives .expression part.1 part.2)
    (separated : Separated (parts.map Prod.fst) joined) :
    ∃ token rest, joined = token :: rest ∧ Opens token.lexeme := by
  obtain ⟨first, others, rfl⟩ := List.exists_cons_of_ne_nil some
  obtain ⟨token, rest, begins, opens⟩ := (derived first List.mem_cons_self).opens
  obtain ⟨more, rfl⟩ := separated_first separated
  exact ⟨token, rest ++ more, by rw [begins, List.cons_append], opens⟩

/-- No colon stands behind the first one of declared names. -/
theorem declarators_noColon {tokens rest : List Token} {names : List (Declarator Lexeme Unit)}
    {p q : Position} {name : String} {after : List Token} (h : Declarators tokens names)
    (same : tokens ++ ⟨.symbol .semicolon, p⟩ :: rest = ⟨.name name, q⟩ :: after) :
    comesNext .colon after = false := by
  obtain ⟨parts, some, declared, separated, rfl⟩ := h
  obtain ⟨first, others, rfl⟩ := List.exists_cons_of_ne_nil some
  obtain ⟨tokens', first⟩ := first
  have isFirst := declared _ List.mem_cons_self
  rw [List.map_cons] at separated
  generalize others.map Prod.fst = remaining at separated
  have behind : ∃ mark r more, after = ⟨.symbol mark, r⟩ :: more ∧ mark ≠ .colon := by
    cases isFirst with
    | initial _ =>
      obtain ⟨more, rfl⟩ := separated_first separated
      cases same
      exact ⟨.assign, _, _, rfl, by decide⟩
    | bare =>
      cases separated with
      | one =>
        cases same
        exact ⟨.semicolon, _, _, rfl, by decide⟩
      | cons =>
        cases same
        exact ⟨.comma, _, _, rfl, by decide⟩
  obtain ⟨mark, r, more, rfl, other⟩ := behind
  simpa [comesNext] using other

theorem forInit_yields {tokens rest : List Token} {init : ForInit Lexeme Unit} {p : Position}
    (h : Initial tokens init) :
    Yields (forInit · (tokens ++ ⟨.symbol .semicolon, p⟩ :: rest)) (init, rest) := by
  cases h with
  | none => exact Yields.pure
  | @declaration token type tokens names declared h =>
    simp only [List.cons_append, forInit_declared (declaredType_typeOf declared)]
    exact Yields.bind (declarators_yields h) Yields.pure
  | @expressions _ values some h =>
    obtain ⟨parts, derived, separated, rfl⟩ := h
    have some : parts ≠ [] := by simpa using some
    obtain ⟨values, same, read⟩ := expressions_yields some
      (fun part isIn => derives_yields (derived part isIn)) separated
      (⟨.symbol .semicolon, p⟩ :: rest) (.cons rfl) rfl
    obtain ⟨token, more, rfl, opens⟩ := expressions_opens some derived separated
    have noSemicolon := opens_absent opens .semicolon rfl
      (more ++ ⟨.symbol .semicolon, p⟩ :: rest)
    have pairs : (parts.map Prod.snd).map (fun value => (value.start, value.expr)) =
        values.map fun value => (value.start, value.expr) := by
      rw [← same, List.map_map]
      rfl
    rw [pairs]
    simp only [List.cons_append, forInit, noSemicolon, declaredType_cons, opens_typeOf opens]
    exact Yields.bind read Yields.pure

theorem forCondition_yields {tokens rest : List Token} {condition : Option SourceExpr}
    {p : Position} (h : Optional tokens condition) :
    Yields (forCondition · (tokens ++ ⟨.symbol .semicolon, p⟩ :: rest)) (condition, rest) := by
  cases h with
  | none => exact Yields.pure
  | @some tokens value h =>
    have noSemicolon := derives_absent h .semicolon rfl
      (⟨.symbol .semicolon, p⟩ :: rest)
    simp only [forCondition, noSemicolon]
    exact terminated_yields h some

theorem forEachHeader_initial {tokens rest : List Token} {init : ForInit Lexeme Unit}
    {p : Position} (h : Initial tokens init) (fuel : Nat) :
    forEachHeader? fuel (tokens ++ ⟨.symbol .semicolon, p⟩ :: rest) = none := by
  cases h with
  | none => rfl
  | @declaration token type tokens names declared h =>
    exact forEachHeader_none fun name q after same => declarators_noColon h same
  | @expressions _ values some h =>
    obtain ⟨parts, derived, separated, rfl⟩ := h
    obtain ⟨token, more, rfl, opens⟩ := expressions_opens (by simpa using some) derived separated
    rw [List.cons_append, forEachHeader?, declaredType_cons, opens_typeOf opens]
    rfl

/-! ### Statements -/

/-- A statement begins with no closing brace and with no `else`. -/
theorem statement_first {tokens : List Token} {s : SourceStmt} (h : Statement tokens s) :
    ∃ token rest, tokens = token :: rest ∧ token.lexeme ≠ .symbol .rightBrace ∧
      token.lexeme ≠ .keyword .elseWord := by
  cases h with
  | expression h =>
    obtain ⟨token, rest, rfl, opens⟩ := h.opens
    refine ⟨token, _, rfl, ?_, ?_⟩
    all_goals
      intro same
      have mayOpen := opens_mayOpen opens
      rw [same] at mayOpen
      cases mayOpen
  | declaration declared _ => cases declared <;> exact ⟨_, _, rfl, by simp, by simp⟩
  | _ => exact ⟨_, _, rfl, by simp, by simp⟩

section Step

variable {tokens rest after : List Token} {p q r : Position}

theorem statement_expression {token : Token} {value : Reading} (h : Opens token.lexeme)
    (h' : Yields (expression · (token :: tokens)) (value, ⟨.symbol .semicolon, q⟩ :: rest)) :
    Yields (statement · (token :: tokens)) (.expression token.position value.expr, rest) := by
  obtain ⟨lexeme, p⟩ := token
  have read : Yields (fun fuel => expression fuel (⟨lexeme, p⟩ :: tokens) >>= fun x =>
      expectSymbol .semicolon x.2 >>= fun rest => .ok (Stmt.expression p x.1.expr, rest))
      (.expression p value.expr, rest) :=
    Yields.bind h' Yields.pure
  refine Yields.step ?_
  cases h with
  | literal isLiteral => cases isLiteral <;> exact read
  | name | leftParen | new | step | castType => exact read
  | @unary mark op isIn =>
    simp only [unaryOperators, List.mem_cons, Prod.mk.injEq, List.not_mem_nil, or_false] at isIn
    rcases isIn with ⟨rfl, -⟩ | ⟨rfl, -⟩ | ⟨rfl, -⟩ | ⟨rfl, -⟩ <;> exact read

theorem statement_declaration {token : Token} {type : TypeName Unit}
    {names : List (Declarator Lexeme Unit)} (declared : DeclaredType token type)
    (h : Declarators tokens names) :
    Yields (statement · (token :: (tokens ++ ⟨.symbol .semicolon, p⟩ :: rest)))
      (.declaration token.position type names, rest) := by
  refine Yields.step ?_
  cases declared <;> exact Yields.bind (declarators_yields h) Yields.pure

theorem statement_block {inner : List SourceStmt}
    (h : Yields (statementsToBrace · after) (inner, rest)) :
    Yields (statement · (⟨.symbol .leftBrace, p⟩ :: after)) (.block p inner, rest) :=
  Yields.step (Yields.bind h Yields.pure)

theorem statement_ifThen {condition : SourceExpr} {branch : SourceStmt}
    (h : Yields (parenthesized · tokens) (condition, after))
    (h' : Yields (statement · after) (branch, rest))
    (noElse : ∀ q more, rest ≠ ⟨.keyword .elseWord, q⟩ :: more) :
    Yields (statement · (⟨.keyword .ifWord, p⟩ :: tokens)) (.ifThen p condition branch, rest) := by
  refine Yields.step (Yields.bind h (Yields.bind h' ?_))
  dsimp only
  split
  · next q more => exact (noElse q more rfl).elim
  · exact Yields.pure

theorem statement_ifThenElse {condition : SourceExpr} {branch other : SourceStmt}
    {more : List Token} (h : Yields (parenthesized · tokens) (condition, after))
    (h' : Yields (statement · after) (branch, ⟨.keyword .elseWord, q⟩ :: more))
    (h'' : Yields (statement · more) (other, rest)) :
    Yields (statement · (⟨.keyword .ifWord, p⟩ :: tokens))
      (.ifThenElse p condition branch other, rest) :=
  Yields.step (Yields.bind h (Yields.bind h' (Yields.bind h'' Yields.pure)))

theorem statement_whileLoop {condition : SourceExpr} {body : SourceStmt}
    (h : Yields (parenthesized · tokens) (condition, after))
    (h' : Yields (statement · after) (body, rest)) :
    Yields (statement · (⟨.keyword .whileWord, p⟩ :: tokens))
      (.whileLoop p condition body, rest) :=
  Yields.step (Yields.bind h (Yields.bind h' Yields.pure))

theorem statement_doLoop {condition : SourceExpr} {body : SourceStmt}
    (h : Yields (statement · tokens) (body, ⟨.keyword .whileWord, q⟩ :: after))
    (h' : Yields (parenthesized · after) (condition, ⟨.symbol .semicolon, r⟩ :: rest)) :
    Yields (statement · (⟨.keyword .doWord, p⟩ :: tokens)) (.doLoop p body condition, rest) :=
  Yields.step (Yields.bind h (Yields.bind h' Yields.pure))

theorem statement_loop {out : SourceStmt × List Token} (h : Yields (loop · p after) out) :
    Yields (statement · (⟨.keyword .forWord, p⟩ :: ⟨.symbol .leftParen, q⟩ :: after)) out :=
  Yields.step h

theorem statement_returns {value : Option SourceExpr} (h : Optional tokens value) :
    Yields (statement · (⟨.keyword .returnWord, p⟩ :: (tokens ++ ⟨.symbol .semicolon, q⟩ :: rest)))
      (.returns p value, rest) := by
  refine Yields.step ?_
  cases h with
  | none => exact Yields.pure
  | @some tokens value h =>
    have noSemicolon := derives_absent h .semicolon rfl
      (⟨.symbol .semicolon, q⟩ :: rest)
    simp only [statement, noSemicolon]
    exact terminated_yields h fun value => Stmt.returns p (some value)

theorem loop_counting {first second third : List Token} {init : ForInit Lexeme Unit}
    {condition : Option SourceExpr} {update : List Parsed} {body : SourceStmt}
    {s t : Position} (isFirst : Initial first init) (isSecond : Optional second condition)
    (isThird : Expressions third update) (h : Yields (statement · after) (body, rest)) :
    Yields
      (loop · p (first ++ ⟨.symbol .semicolon, r⟩ :: (second ++ ⟨.symbol .semicolon, s⟩ ::
        (third ++ ⟨.symbol .rightParen, t⟩ :: after))))
      (.forLoop p init condition (update.map Parsed.expr) body, rest) := by
  obtain ⟨parts, derived, separated, rfl⟩ := isThird
  have updates := arguments_yields derived (fun part isIn => derives_yields (derived part isIn))
    separated t after
  have exprs : (parts.map Prod.snd).map Parsed.expr = parts.map (·.2.expr) := by simp
  rw [exprs]
  simp only [loop, forEachHeader_initial isFirst]
  exact Yields.bind (forInit_yields isFirst) (Yields.bind (forCondition_yields isSecond)
    (Yields.bind updates (Yields.bind h Yields.pure)))

theorem loop_overValues {token : Token} {type : TypeName Unit} (name : String)
    {values : List Token} {iterable : Parsed} {body : SourceStmt} {s t : Position}
    (declared : DeclaredType token type) (h : Derives .expression values iterable)
    (h' : Yields (statement · after) (body, rest)) :
    Yields
      (loop · p (token :: ⟨.name name, r⟩ :: ⟨.symbol .colon, s⟩ ::
        (values ++ ⟨.symbol .rightParen, t⟩ :: after)))
      (.forEach p type name iterable.expr body, rest) := by
  obtain ⟨flag, read⟩ := derives_yields h (⟨.symbol .rightParen, t⟩ :: after) (.cons rfl)
  have header : Yields (fun fuel =>
      expression fuel (values ++ ⟨.symbol .rightParen, t⟩ :: after) >>=
      fun x => expectSymbol .rightParen x.2 >>= fun rest => .ok ((type, name, x.1.expr), rest))
      ((type, name, iterable.expr), after) :=
    Yields.bind read Yields.pure
  cases declared <;> exact Yields.bind header (Yields.bind h' Yields.pure)

end Step

/-- Statements in a row begin with no `else`. -/
theorem statements_noElse {parts : List (List Token × SourceStmt)}
    (written : ∀ part ∈ parts, Statement part.1 part.2) (tail : List Token)
    (none : ∀ q more, tail ≠ ⟨.keyword .elseWord, q⟩ :: more) (q : Position)
    (more : List Token) : parts.flatMap Prod.fst ++ tail ≠ ⟨.keyword .elseWord, q⟩ :: more := by
  intro same
  cases parts with
  | nil => exact none q more same
  | cons first parts =>
    obtain ⟨token, rest, begins, -, noElse⟩ := statement_first (written first List.mem_cons_self)
    rw [List.flatMap_cons, begins] at same
    cases same
    exact noElse rfl

/-- Statements up to a brace, each of which is read in front of any tokens that it leaves. -/
theorem statementsToBrace_yields {parts : List (List Token × SourceStmt)} {p : Position}
    (rest : List Token) (written : ∀ part ∈ parts, Statement part.1 part.2)
    (each : ∀ part ∈ parts, ∀ rest, (∀ q more, rest ≠ ⟨.keyword .elseWord, q⟩ :: more) →
      Yields (statement · (part.1 ++ rest)) (part.2, rest)) :
    Yields (statementsToBrace · (parts.flatMap Prod.fst ++ ⟨.symbol .rightBrace, p⟩ :: rest))
      (parts.map Prod.snd, rest) := by
  induction parts with
  | nil => exact Yields.step Yields.pure
  | cons part parts ih =>
    have others := ih (fun part isIn => written part (List.mem_cons_of_mem _ isIn))
      (fun part isIn => each part (List.mem_cons_of_mem _ isIn))
    obtain ⟨first, s⟩ := part
    obtain ⟨token, more, begins, noBrace, -⟩ := statement_first (written _ List.mem_cons_self)
    have noElse := statements_noElse (fun part isIn => written part (List.mem_cons_of_mem _ isIn))
      (⟨.symbol .rightBrace, p⟩ :: rest) (by simp)
    have read := each _ List.mem_cons_self _ noElse
    have inner : comesNext .rightBrace (first ++
        (parts.flatMap Prod.fst ++ ⟨.symbol .rightBrace, p⟩ :: rest)) = false := by
      obtain rfl : first = token :: more := begins
      simpa [comesNext] using noBrace
    refine Yields.step ?_
    simp only [List.flatMap_cons, List.append_assoc, statementsToBrace, inner]
    exact Yields.bind read (Yields.bind others Yields.pure)

theorem nearestElseAll_mem {s : SourceStmt} :
    ∀ {statements : List SourceStmt}, NearestElseAll statements → s ∈ statements → NearestElse s
  | _ :: _, nearest, isIn => by
    rcases List.mem_cons.mp isIn with rfl | isIn
    · exact nearest.1
    · exact nearestElseAll_mem nearest.2 isIn

theorem statement_yields {tokens : List Token} {s : SourceStmt} (h : Statement tokens s)
    (nearest : NearestElse s) (rest : List Token)
    (free : endsOpen s = true → ∀ p more, rest ≠ ⟨.keyword .elseWord, p⟩ :: more) :
    Yields (statement · (tokens ++ rest)) (s, rest) := by
  induction h generalizing rest with
  | @block parts p q written ih =>
    have read := statementsToBrace_yields (p := q) rest written
      fun part isIn rest noElse => ih part isIn
        (nearestElseAll_mem nearest (List.mem_map_of_mem isIn)) rest fun _ => noElse
    simpa only [List.cons_append, List.append_assoc, List.nil_append] using statement_block read
  | empty p => exact Yields.step Yields.pure
  | @declaration token type tokens names p declared h =>
    simpa only [List.cons_append, List.append_assoc, List.nil_append]
      using statement_declaration declared h
  | @expression tokens value p h =>
    obtain ⟨token, more, rfl, opens⟩ := h.opens
    obtain ⟨flag, read⟩ := derives_yields h (⟨.symbol .semicolon, p⟩ :: rest) (.cons rfl)
    rw [List.append_assoc]
    exact statement_expression opens read
  | @ifThen test branch condition thenBranch p q r h h' ih =>
    have noElse := free rfl
    have whole := statement_ifThen (p := p) (parenthesized_yields (p := q) (q := r) h)
      (ih nearest rest fun _ => noElse) noElse
    simpa only [List.cons_append, List.append_assoc] using whole
  | @ifThenElse test branch other condition thenBranch elseBranch p q r s h h' h'' ih ih' =>
    obtain ⟨closed, nearest, nearest'⟩ := nearest
    have branch := ih nearest (⟨.keyword .elseWord, s⟩ :: (other ++ rest))
      fun isOpen => by simp [closed] at isOpen
    have whole := statement_ifThenElse (p := p) (parenthesized_yields (p := q) (q := r) h) branch
      (ih' nearest' rest free)
    simpa only [List.cons_append, List.append_assoc] using whole
  | @whileLoop test inner condition body p q r h h' ih =>
    have whole := statement_whileLoop (p := p) (parenthesized_yields (p := q) (q := r) h)
      (ih nearest rest free)
    simpa only [List.cons_append, List.append_assoc] using whole
  | @doLoop test inner condition body p q r s t h h' ih =>
    have body := ih nearest (⟨.keyword .whileWord, q⟩ :: ⟨.symbol .leftParen, r⟩ ::
      (test ++ ⟨.symbol .rightParen, s⟩ :: ⟨.symbol .semicolon, t⟩ :: rest))
      fun _ _ _ same => by cases same
    have whole := statement_doLoop (p := p) body (parenthesized_yields h')
    simpa only [List.cons_append, List.append_assoc, List.nil_append] using whole
  | @forLoop first second third inner init condition update body p q r s t isFirst isSecond isThird
      h ih =>
    have whole := statement_loop (p := p) (q := q)
      (loop_counting (r := r) (s := s) (t := t) isFirst isSecond isThird (ih nearest rest free))
    simpa only [List.cons_append, List.append_assoc] using whole
  | @forEach token type name values inner iterable body p q r s t declared h h' ih =>
    have whole := statement_loop (p := p) (q := q)
      (loop_overValues (r := r) (s := s) (t := t) name declared h (ih nearest rest free))
    simpa only [List.cons_append, List.append_assoc] using whole
  | @returns tokens value p q h =>
    simpa only [List.cons_append, List.append_assoc, List.nil_append] using statement_returns h
  | breaks p q => exact Yields.step Yields.pure
  | continues p q => exact Yields.step Yields.pure

/-! ### Bodies -/

/-- **Completeness.** Tokens of a body in which each `else` belongs to the nearest `if` are read
as that body. -/
theorem body_yields {tokens : List Token} {statements : List SourceStmt}
    (h : Body tokens statements) (nearest : NearestElseAll statements) :
    body tokens = .ok statements := by
  obtain ⟨parts, written, rfl, rfl⟩ := h
  have read : ∃ enough, ∀ fuel, enough ≤ fuel →
      Parser.statements fuel (parts.flatMap Prod.fst) = .ok (parts.map Prod.snd) := by
    induction parts with
    | nil => exact ⟨0, fun fuel _ => by cases fuel <;> rfl⟩
    | cons part parts ih =>
      obtain ⟨first, s⟩ := part
      have written' : ∀ part ∈ parts, Statement part.1 part.2 :=
        fun part isIn => written part (List.mem_cons_of_mem _ isIn)
      obtain ⟨enough, others⟩ := ih written' nearest.2
      have noElse := statements_noElse written' [] (by simp)
      rw [List.append_nil] at noElse
      obtain ⟨enough', read⟩ := statement_yields (written _ List.mem_cons_self) nearest.1
        (parts.flatMap Prod.fst) fun _ => noElse
      obtain ⟨token, more, begins, -⟩ := statement_first (written _ List.mem_cons_self)
      obtain rfl : first = token :: more := begins
      refine ⟨max enough enough' + 1, fun fuel le => ?_⟩
      obtain ⟨fuel, rfl⟩ : ∃ less, fuel = less + 1 := ⟨fuel - 1, by omega⟩
      rw [List.flatMap_cons, List.cons_append, statements_cons]
      rw [List.cons_append] at read
      dsimp only at read
      rw [read fuel (by omega)]
      change (Parser.statements fuel (parts.flatMap Prod.fst) >>= _) = _
      rw [others fuel (by omega)]
      rfl
  obtain ⟨enough, read⟩ := read
  rw [body, ← read (max enough (fuelFor (parts.flatMap Prod.fst))) (Nat.le_max_left _ _)]
  exact statements_fuel (Nat.le_refl _) (Nat.le_max_right _ _)

/-! ### The nearest `if` -/

/-- An `else` behind a statement that ends in an open `if` can belong to the innermost one. -/
theorem statement_attach {branch other : List Token} {s elseBranch : SourceStmt} {p : Position}
    (h : Statement branch s) (nearest : NearestElse s) (isOpen : endsOpen s = true)
    (h' : Statement other elseBranch) (nearest' : NearestElse elseBranch) :
    ∃ s', Statement (branch ++ ⟨.keyword .elseWord, p⟩ :: other) s' ∧ NearestElse s' := by
  induction h with
  | block | empty | declaration | expression | doLoop | returns | breaks | continues =>
    cases isOpen
  | @ifThen test branch condition thenBranch q r t h written ih =>
    cases isOpen' : endsOpen thenBranch with
    | false =>
      have whole := Statement.ifThenElse (p := q) (q := r) (r := t) (s := p) h written h'
      exact ⟨.ifThenElse q condition.expr thenBranch elseBranch,
        by simpa only [List.cons_append, List.append_assoc] using whole,
        isOpen', nearest, nearest'⟩
    | true =>
      obtain ⟨s', written, nearest⟩ := ih nearest isOpen'
      have whole := Statement.ifThen (p := q) (q := r) (r := t) h written
      exact ⟨.ifThen q condition.expr s',
        by simpa only [List.cons_append, List.append_assoc] using whole, nearest⟩
  | @ifThenElse test branch other condition thenBranch _ q r t u h written written' ih ih' =>
    obtain ⟨closed, nearest, nearestElse⟩ := nearest
    obtain ⟨s', written', nearestElse⟩ := ih' nearestElse isOpen
    have whole := Statement.ifThenElse (p := q) (q := r) (r := t) (s := u) h written written'
    exact ⟨.ifThenElse q condition.expr thenBranch s',
        by simpa only [List.cons_append, List.append_assoc] using whole, closed, nearest,
      nearestElse⟩
  | @whileLoop test inner condition body q r t h written ih =>
    obtain ⟨s', written, nearest⟩ := ih nearest isOpen
    have whole := Statement.whileLoop (p := q) (q := r) (r := t) h written
    exact ⟨.whileLoop q condition.expr s',
        by simpa only [List.cons_append, List.append_assoc] using whole, nearest⟩
  | @forLoop one two three inner init condition update body q r t u v first second third written
      ih =>
    obtain ⟨s', written, nearest⟩ := ih nearest isOpen
    have whole := Statement.forLoop (p := q) (q := r) (r := t) (s := u) (t := v) first second third
      written
    exact ⟨.forLoop q init condition (update.map Parsed.expr) s',
        by simpa only [List.cons_append, List.append_assoc] using whole, nearest⟩
  | @forEach token type name values inner iterable body q r t u v declared h written ih =>
    obtain ⟨s', written, nearest⟩ := ih nearest isOpen
    refine ⟨.forEach q type name iterable.expr s', ?_, nearest⟩
    simpa only [List.cons_append, List.append_assoc] using Statement.forEach declared h written

/-- The same of statements in a row. -/
theorem parts_nearest {parts : List (List Token × SourceStmt)}
    (each : ∀ part ∈ parts, ∃ s, Statement part.1 s ∧ NearestElse s) :
    ∃ parts' : List (List Token × SourceStmt), parts'.flatMap Prod.fst = parts.flatMap Prod.fst ∧
      (∀ part ∈ parts', Statement part.1 part.2) ∧ NearestElseAll (parts'.map Prod.snd) := by
  induction parts with
  | nil => exact ⟨[], rfl, by simp, trivial⟩
  | cons part parts ih =>
    obtain ⟨parts', same, written, nearest⟩ :=
      ih fun part isIn => each part (List.mem_cons_of_mem _ isIn)
    obtain ⟨s, isFirst, nearestFirst⟩ := each part List.mem_cons_self
    refine ⟨(part.1, s) :: parts', by simp [same], ?_, nearestFirst, nearest⟩
    intro part isIn
    rcases List.mem_cons.mp isIn with rfl | isIn
    · exact isFirst
    · exact written part isIn

/-- Tokens of a statement are those of one in which each `else` belongs to the nearest `if`. -/
theorem statement_nearest {tokens : List Token} {s : SourceStmt} (h : Statement tokens s) :
    ∃ s', Statement tokens s' ∧ NearestElse s' := by
  induction h with
  | @block parts p q _ ih =>
    obtain ⟨parts', same, written, nearest⟩ := parts_nearest ih
    exact ⟨.block p (parts'.map Prod.snd), same ▸ .block written, nearest⟩
  | empty p => exact ⟨_, .empty p, trivial⟩
  | declaration declared h => exact ⟨_, .declaration declared h, trivial⟩
  | expression h => exact ⟨_, .expression h, trivial⟩
  | returns h => exact ⟨_, .returns h, trivial⟩
  | breaks p q => exact ⟨_, .breaks p q, trivial⟩
  | continues p q => exact ⟨_, .continues p q, trivial⟩
  | ifThen h _ ih =>
    obtain ⟨branch, written, nearest⟩ := ih
    exact ⟨.ifThen _ _ branch, .ifThen h written, nearest⟩
  | whileLoop h _ ih =>
    obtain ⟨body, written, nearest⟩ := ih
    exact ⟨.whileLoop _ _ body, .whileLoop h written, nearest⟩
  | doLoop _ h ih =>
    obtain ⟨body, written, nearest⟩ := ih
    exact ⟨.doLoop _ body _, .doLoop written h, nearest⟩
  | forLoop first second third _ ih =>
    obtain ⟨body, written, nearest⟩ := ih
    exact ⟨.forLoop _ _ _ _ body, .forLoop first second third written, nearest⟩
  | forEach declared h _ ih =>
    obtain ⟨body, written, nearest⟩ := ih
    exact ⟨.forEach _ _ _ _ body, .forEach declared h written, nearest⟩
  | @ifThenElse test branch other condition _ _ p q r s h _ _ ih ih' =>
    obtain ⟨thenBranch, written, nearest⟩ := ih
    obtain ⟨elseBranch, written', nearest'⟩ := ih'
    cases isOpen : endsOpen thenBranch with
    | false =>
      exact ⟨.ifThenElse _ _ thenBranch elseBranch, .ifThenElse h written written', isOpen,
        nearest, nearest'⟩
    | true =>
      obtain ⟨s', attached, nearest⟩ := statement_attach written nearest isOpen written' nearest'
      exact ⟨.ifThen _ _ s', .ifThen h attached, nearest⟩

/-- Tokens that are a body are one in which each `else` belongs to the nearest `if`. -/
theorem body_nearest {tokens : List Token} {statements : List SourceStmt}
    (h : Body tokens statements) : ∃ nearest, Body tokens nearest ∧ NearestElseAll nearest := by
  obtain ⟨parts, written, rfl, -⟩ := h
  obtain ⟨parts', same, written', nearest⟩ :=
    parts_nearest fun part isIn => statement_nearest (written part isIn)
  exact ⟨parts'.map Prod.snd, ⟨parts', written', same.symm, rfl⟩, nearest⟩

end Formulary.Parser
