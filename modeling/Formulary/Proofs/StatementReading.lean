/-
What the parser reads as a statement is what the grammar derives.

* `statement_reads` — a statement, or the beginning of one.
* `statements_reads` — a whole body, or the beginning of one.
* `statement_nearest` — an `else` that has been read belongs to the nearest `if`.
-/

import Formulary.Proofs.Reading

namespace Formulary.Parser

open Grammar

/-! ### Declarations -/

theorem comesNext_first {symbol : Symbol} {tokens : List Token}
    (h : comesNext symbol tokens = true) :
    ∃ p rest, tokens = ⟨.symbol symbol, p⟩ :: rest := by
  rcases tokens with - | ⟨⟨lexeme, p⟩, rest⟩
  · cases h
  · obtain rfl : lexeme = .symbol symbol := by simpa [comesNext] using h
    exact ⟨p, rest, rfl⟩

theorem declaredType_first {tokens rest : List Token} {type : TypeName Unit}
    (h : declaredType? tokens = some (type, rest)) :
    ∃ token, tokens = token :: rest ∧ DeclaredType token type ∧
      token.position = type.position := by
  rcases tokens with - | ⟨⟨lexeme, p⟩, after⟩
  · cases h
  · unfold declaredType? at h
    dsimp only at h
    split at h <;> cases h
    · exact ⟨_, rfl, .primitive _ p, rfl⟩
    · exact ⟨_, rfl, .reference _ p, rfl⟩

/-- The declarators that consist of a name alone. -/
theorem declarators_someName (name : String) (p : Position) :
    Declarators [⟨.name name, p⟩] [⟨p, name, none⟩] :=
  ⟨[([⟨.name name, p⟩], ⟨p, name, none⟩)], by simp, by simpa using .bare name p, .one _, rfl⟩

theorem declarators_reads (fuel : Nat) (tokens : List Token) :
    Reads Declarators tokens (declarators fuel tokens) := by
  induction fuel generalizing tokens with
  | zero => exact Reads.fail ⟨_, _, declarators_someName "x" Position.start⟩
  | succ fuel ih =>
    rw [declarators]
    have one {read : List Token} {first : Declarator Lexeme Unit} (h : Declares read first) :
        Declarators (read ++ []) [first] := by
      rw [List.append_nil]
      exact ⟨[(read, first)], by simp, by simpa using h, .one read, rfl⟩
    have more {read others : List Token} {first : Declarator Lexeme Unit}
        {names : List (Declarator Lexeme Unit)} {p : Position} (h : Declares read first)
        (w : Declarators others names) :
        Declarators (read ++ ⟨.symbol .comma, p⟩ :: (others ++ [])) (first :: names) := by
      rw [List.append_nil]
      obtain ⟨parts, some, declared, separated, rfl⟩ := w
      refine ⟨(read, first) :: parts, by simp, ?_, ?_, rfl⟩
      · simpa using ⟨h, fun tokens name isIn => declared _ isIn⟩
      · cases parts with
        | nil => exact (some rfl).elim
        | cons part parts => exact .cons separated
    -- The declarators behind one that has been read.
    have goesOn {read : List Token} {first : Declarator Lexeme Unit} (rest : List Token)
        (h : Declares read first) :
        Reads (fun more => Declarators (read ++ more)) rest
          (if comesNext .comma rest then do
            let others ← declarators fuel (rest.drop 1)
            return (first :: others.1, others.2)
          else return ([first], rest)) := by
      refine Reads.ifNext ?_ (Reads.pure (one h))
      rintro q rest rfl
      exact Reads.bind (ih rest) (fun others names w => ⟨[], _, more h w⟩)
        fun others names rest _ w => Reads.pure (more h w)
    refine Reads.name ⟨_, _, _, _, declarators_someName "x" Position.start⟩ fun name p rest => ?_
    refine Reads.ifNext ?_ (goesOn rest (.bare name p))
    rintro q rest rfl
    exact Reads.bind (readsAt fuel |>.expression rest)
      (fun read value h => ⟨[], _, one (.initial (q := q) h.1)⟩)
      fun read value rest _ h => goesOn rest (.initial (q := q) h.1)

/-! ### Parts of statements -/

/-- An expression in parentheses. -/
def WrittenParenthesized (tokens : List Token) (value : SourceExpr) : Prop :=
  ∃ inner v p q, Derives .expression inner v ∧
    tokens = ⟨.symbol .leftParen, p⟩ :: (inner ++ [⟨.symbol .rightParen, q⟩]) ∧ value = v.expr

/-- What a `for` loop starts with and the semicolon behind it. -/
def WrittenInit (tokens : List Token) (init : ForInit Lexeme Unit) : Prop :=
  ∃ inner p, Initial inner init ∧ tokens = inner ++ [⟨.symbol .semicolon, p⟩]

/-- An expression that may be left out, and the semicolon behind it. -/
def WrittenOptional (tokens : List Token) (value : Option SourceExpr) : Prop :=
  ∃ inner p, Optional inner value ∧ tokens = inner ++ [⟨.symbol .semicolon, p⟩]

/-- The type, the name and the values of a loop over values, up to the closing parenthesis. -/
def WrittenHeader (tokens : List Token) (header : TypeName Unit × String × SourceExpr) : Prop :=
  ∃ token values v p q r, DeclaredType token header.1 ∧ Derives .expression values v ∧
    tokens = token :: ⟨.name header.2.1, p⟩ :: ⟨.symbol .colon, q⟩ ::
      (values ++ [⟨.symbol .rightParen, r⟩]) ∧ header.2.2 = v.expr

theorem parenthesized_someName :
    WrittenParenthesized
      [⟨.symbol .leftParen, Position.start⟩, someName, ⟨.symbol .rightParen, Position.start⟩]
      someReading.expr :=
  ⟨[someName], someReading.parsed, _, _, (written_someName .expression (by simp)).1, rfl, rfl⟩

theorem parenthesized_reads (fuel : Nat) (tokens : List Token) :
    Reads WrittenParenthesized tokens (parenthesized fuel tokens) := by
  refine Reads.symbol ⟨_, _, _, parenthesized_someName⟩ fun p rest => ?_
  have whole {read : List Token} {value : Reading} (q : Position)
      (h : Written .expression read value) :
      WrittenParenthesized (⟨.symbol .leftParen, p⟩ :: (read ++ [⟨.symbol .rightParen, q⟩]))
        value.expr :=
    ⟨read, value.parsed, p, q, h.1, rfl, rfl⟩
  refine Reads.bind (readsAt fuel |>.expression rest)
    (fun read value h => ⟨_, _, whole Position.start h⟩) fun read value rest _ h => ?_
  exact Reads.symbol ⟨_, [], _, whole Position.start h⟩ fun q rest => Reads.pure (whole q h)

/-- An expression and a semicolon behind it. -/
theorem terminated_reads {α : Type} {phrase : List Token → α → Prop} (build : Reading → α)
    (fuel : Nat) (tokens : List Token)
    (whole : ∀ read value p, Written .expression read value →
      phrase (read ++ [⟨.symbol .semicolon, p⟩]) (build value)) :
    Reads phrase tokens (do
      let (value, rest) ← expression fuel tokens
      let rest ← expectSymbol .semicolon rest
      return (build value, rest)) :=
  Reads.bind (readsAt fuel |>.expression tokens)
    (fun read value h => ⟨_, _, whole read value Position.start h⟩) fun read value _ _ h =>
      Reads.symbol ⟨_, [], _, whole read value Position.start h⟩ fun p _ =>
        Reads.pure (whole read value p h)

/-- Declared names and a semicolon behind them. -/
theorem declaration_reads {α : Type} {phrase : List Token → α → Prop}
    (build : List (Declarator Lexeme Unit) → α) (fuel : Nat) (tokens : List Token)
    (whole : ∀ read names p, Declarators read names →
      phrase (read ++ [⟨.symbol .semicolon, p⟩]) (build names)) :
    Reads phrase tokens (do
      let (names, rest) ← declarators fuel tokens
      let rest ← expectSymbol .semicolon rest
      return (build names, rest)) :=
  Reads.bind (declarators_reads fuel tokens)
    (fun read names h => ⟨_, _, whole read names Position.start h⟩) fun read names _ _ h =>
      Reads.symbol ⟨_, [], _, whole read names Position.start h⟩ fun p _ =>
        Reads.pure (whole read names p h)

theorem forInit_reads (fuel : Nat) (tokens : List Token) :
    Reads WrittenInit tokens (forInit fuel tokens) := by
  refine Reads.ifNext ?_ ?_
  · rintro p rest rfl
    exact Reads.pure ⟨[], p, .none, rfl⟩
  · split
    · next type rest same =>
      obtain ⟨token, rfl, declared, -⟩ := declaredType_first same
      exact Reads.behind [token]
        (declaration_reads (ForInit.declaration type.position type) fuel rest
        fun read names p h => ⟨token :: read, p, .declaration declared h, rfl⟩)
    · have whole {read : List Token} {values : List Reading} (p : Position)
          (h : WrittenExpressions read values) :
          WrittenInit (read ++ [⟨.symbol .semicolon, p⟩])
            (.expressions (values.map fun value => (value.start, value.expr))) := by
        refine ⟨read, p, ?_, rfl⟩
        have initial := Initial.expressions (by simpa using h.1) h.2
        simpa [Reading.parsed, Function.comp_def] using initial
      refine Reads.bind (readsAt fuel |>.expressions tokens)
        (fun read values h => ⟨_, _, whole Position.start h⟩) fun read values rest _ h => ?_
      exact Reads.symbol ⟨_, [], _, whole Position.start h⟩ fun p rest => Reads.pure (whole p h)

theorem forCondition_reads (fuel : Nat) (tokens : List Token) :
    Reads WrittenOptional tokens (forCondition fuel tokens) := by
  refine Reads.ifNext ?_ (terminated_reads (fun value => some value.expr) fuel tokens
    fun read value p h => ⟨read, p, .some h.1, rfl⟩)
  rintro p rest rfl
  exact Reads.pure ⟨[], p, .none, rfl⟩

theorem forEachHeader_reads {fuel : Nat} {tokens : List Token}
    {header : Except Failure ((TypeName Unit × String × SourceExpr) × List Token)}
    (h : forEachHeader? fuel tokens = some header) : Reads WrittenHeader tokens header := by
  unfold forEachHeader? at h
  split at h
  · cases h
  · next type rest same =>
    obtain ⟨token, rfl, declared, -⟩ := declaredType_first same
    rcases rest with - | ⟨⟨lexeme, p⟩, rest⟩
    · cases h
    · cases lexeme with
      | name name =>
        have whole {read : List Token} {value : Reading} (q r : Position)
            (w : Written .expression read value) :
            WrittenHeader
              (token :: ⟨.name name, p⟩ :: ⟨.symbol .colon, q⟩ ::
                (read ++ [⟨.symbol .rightParen, r⟩])) (type, name, value.expr) :=
          ⟨token, read, value.parsed, p, q, r, declared, w.1, rfl, rfl⟩
        rw [expectName] at h
        dsimp only at h
        split at h
        · next colon =>
          cases h
          obtain ⟨q, rest, rfl⟩ := comesNext_first colon
          refine Reads.behind [token, _, _] (Reads.bind (readsAt fuel |>.expression rest)
            (fun read value w => ⟨_, _, whole q Position.start w⟩) fun read value rest _ w => ?_)
          exact Reads.symbol ⟨Position.start, [], _, whole q _ w⟩
            fun r rest => Reads.pure (whole q r w)
        · cases h
      | _ => cases h

/-! ### Statements -/

/-- Statements and the brace behind them. -/
def WrittenBlock (tokens : List Token) (statements : List SourceStmt) : Prop :=
  ∃ parts : List (List Token × SourceStmt), ∃ p, (∀ part ∈ parts, Statement part.1 part.2) ∧
    tokens = parts.flatMap Prod.fst ++ [⟨.symbol .rightBrace, p⟩] ∧
    statements = parts.map Prod.snd

section Step

variable {fuel : Nat}

theorem statementsToBrace_reads
    (first : ∀ tokens, Reads Statement tokens (statement fuel tokens))
    (others : ∀ tokens, Reads WrittenBlock tokens (statementsToBrace fuel tokens))
    (tokens : List Token) :
    Reads WrittenBlock tokens (statementsToBrace (fuel + 1) tokens) := by
  rw [statementsToBrace]
  have none (p : Position) : WrittenBlock [⟨.symbol .rightBrace, p⟩] [] :=
    ⟨[], p, by simp, rfl, rfl⟩
  have more {read block : List Token} {first : SourceStmt} {others : List SourceStmt}
      (h : Statement read first) (w : WrittenBlock block others) :
      WrittenBlock (read ++ (block ++ [])) (first :: others) := by
    obtain ⟨parts, p, each, rfl, rfl⟩ := w
    exact ⟨(read, first) :: parts, p, by simpa using ⟨h, fun tokens s isIn => each _ isIn⟩,
      by simp, rfl⟩
  refine Reads.ifNext ?_ ?_
  · rintro p rest rfl
    exact Reads.pure (none p)
  · refine Reads.bind (first tokens) (fun read s h => ⟨_, _, more h (none Position.start)⟩)
      fun read s rest _ h => ?_
    exact Reads.bind (others rest) (fun block others w => ⟨[], _, more h w⟩)
      fun block others rest _ w => Reads.pure (more h w)

theorem for_reads (each : ∀ tokens, Reads Statement tokens (statement fuel tokens))
    (p : Position) (tokens : List Token) :
    Reads (fun more => Statement (⟨.keyword .forWord, p⟩ :: more)) tokens (do
      let rest ← expectSymbol .leftParen tokens
      match forEachHeader? fuel rest with
      | some header =>
        let ((type, name, iterable), rest) ← header
        let (body, rest) ← statement fuel rest
        return (.forEach p type name iterable body, rest)
      | none =>
        let (init, rest) ← forInit fuel rest
        let (condition, rest) ← forCondition fuel rest
        let (update, rest) ← arguments fuel rest
        let (body, rest) ← statement fuel rest
        return (.forLoop p init condition update body, rest)) := by
  have some := Statement.empty Position.start
  have last : WrittenArguments [⟨.symbol .rightParen, Position.start⟩] [] :=
    ⟨[], [], _, by simp, .nil, rfl, rfl⟩
  have second : WrittenOptional [⟨.symbol .semicolon, Position.start⟩] none := ⟨[], _, .none, rfl⟩
  have first : WrittenInit [⟨.symbol .semicolon, Position.start⟩] .none := ⟨[], _, .none, rfl⟩
  have overValues {read inner : List Token} {header : TypeName Unit × String × SourceExpr}
      {body : SourceStmt} (q : Position) (w : WrittenHeader read header)
      (h : Statement inner body) :
      Statement (⟨.keyword .forWord, p⟩ :: ⟨.symbol .leftParen, q⟩ :: (read ++ (inner ++ [])))
        (.forEach p header.1 header.2.1 header.2.2 body) := by
    obtain ⟨token, values, v, r, s, t, declared, derived, rfl, same⟩ := w
    rw [same]
    simpa using Statement.forEach declared derived h
  have counting {front middle back inner : List Token} {init : ForInit Lexeme Unit}
      {condition : Option SourceExpr} {update : List SourceExpr} {body : SourceStmt}
      (q : Position) (a : WrittenInit front init) (b : WrittenOptional middle condition)
      (c : WrittenArguments back update) (h : Statement inner body) :
      Statement
        (⟨.keyword .forWord, p⟩ :: ⟨.symbol .leftParen, q⟩ ::
          (front ++ (middle ++ (back ++ (inner ++ [])))))
        (.forLoop p init condition update body) := by
    obtain ⟨front, r, initial, rfl⟩ := a
    obtain ⟨middle, s, optional, rfl⟩ := b
    obtain ⟨parts, back, t, derived, separated, rfl, rfl⟩ := c
    have whole := Statement.forLoop (p := p) (q := q) (r := r) (s := s) (t := t) initial optional
      ⟨parts, derived, separated, rfl⟩ h
    simpa [Function.comp_def] using whole
  refine Reads.symbol ⟨Position.start, _, _, counting _ first second last some⟩ fun q rest => ?_
  dsimp only
  split
  · next header same =>
    refine Reads.bind (forEachHeader_reads same)
      (fun read header w => ⟨[⟨.symbol .semicolon, Position.start⟩], _, overValues q w some⟩)
      fun read header rest _ w => ?_
    exact Reads.bind (each rest) (fun inner body h => ⟨[], _, overValues q w h⟩)
      fun inner body rest _ h => Reads.pure (overValues q w h)
  · refine Reads.bind (forInit_reads fuel rest)
      (fun front init a => ⟨_, _, counting q a second last some⟩) fun front init rest _ a => ?_
    refine Reads.bind (forCondition_reads fuel rest)
      (fun middle condition b => ⟨_, _, counting q a b last some⟩)
      fun middle condition rest _ b => ?_
    refine Reads.bind (readsAt fuel |>.arguments rest)
      (fun back update c => ⟨_, _, counting q a b c some⟩) fun back update rest _ c => ?_
    exact Reads.bind (each rest) (fun inner body h => ⟨[], _, counting q a b c h⟩)
      fun inner body rest _ h => Reads.pure (counting q a b c h)

theorem statement_reads_step (each : ∀ tokens, Reads Statement tokens (statement fuel tokens))
    (block : ∀ tokens, Reads WrittenBlock tokens (statementsToBrace fuel tokens))
    (tokens : List Token) : Reads Statement tokens (statement (fuel + 1) tokens) := by
  have empty (p : Position) : Statement [⟨.symbol .semicolon, p⟩] (.empty p) := .empty p
  rcases tokens with - | ⟨⟨lexeme, p⟩, rest⟩
  · exact Reads.fail ⟨_, _, empty Position.start⟩
  · unfold statement
    dsimp only
    split
    · refine Reads.behind [⟨.symbol .leftBrace, p⟩] ?_
      have whole {read : List Token} {inner : List SourceStmt} (w : WrittenBlock read inner) :
          Statement (⟨.symbol .leftBrace, p⟩ :: (read ++ [])) (.block p inner) := by
        obtain ⟨parts, q, each, rfl, rfl⟩ := w
        rw [List.append_nil]
        exact .block each
      exact Reads.bind (block rest) (fun read inner w => ⟨[], _, whole w⟩)
        fun read inner rest _ w => Reads.pure (whole w)
    · exact Reads.behind [⟨.symbol .semicolon, p⟩] (Reads.pure (.empty p))
    · refine Reads.behind [⟨.keyword .ifWord, p⟩] ?_
      have short {test branch : List Token} {condition : SourceExpr} {thenBranch : SourceStmt}
          (w : WrittenParenthesized test condition) (h : Statement branch thenBranch) :
          Statement (⟨.keyword .ifWord, p⟩ :: (test ++ (branch ++ [])))
            (.ifThen p condition thenBranch) := by
        obtain ⟨test, v, q, r, derived, rfl, rfl⟩ := w
        simpa using Statement.ifThen derived h
      have long {test branch other : List Token} {condition : SourceExpr}
          {thenBranch elseBranch : SourceStmt} (q : Position)
          (w : WrittenParenthesized test condition) (h : Statement branch thenBranch)
          (h' : Statement other elseBranch) :
          Statement
            (⟨.keyword .ifWord, p⟩ ::
              (test ++ (branch ++ ⟨.keyword .elseWord, q⟩ :: (other ++ []))))
            (.ifThenElse p condition thenBranch elseBranch) := by
        obtain ⟨test, v, r, s, derived, rfl, rfl⟩ := w
        simpa using Statement.ifThenElse derived h h'
      refine Reads.bind (parenthesized_reads fuel rest)
        (fun test condition w => ⟨[⟨.symbol .semicolon, Position.start⟩], _, short w (empty _)⟩)
        fun test condition rest _ w => ?_
      refine Reads.bind (each rest) (fun branch thenBranch h => ⟨[], _, short w h⟩)
        fun branch thenBranch rest _ h => ?_
      dsimp only
      split
      · next q rest _ =>
        refine Reads.behind [⟨.keyword .elseWord, q⟩] ?_
        exact Reads.bind (each rest) (fun other elseBranch h' => ⟨[], _, long q w h h'⟩)
          fun other elseBranch rest _ h' => Reads.pure (long q w h h')
      · exact Reads.pure (short w h)
    · refine Reads.behind [⟨.keyword .whileWord, p⟩] ?_
      have whole {test inner : List Token} {condition : SourceExpr} {body : SourceStmt}
          (w : WrittenParenthesized test condition) (h : Statement inner body) :
          Statement (⟨.keyword .whileWord, p⟩ :: (test ++ (inner ++ [])))
            (.whileLoop p condition body) := by
        obtain ⟨test, v, q, r, derived, rfl, rfl⟩ := w
        simpa using Statement.whileLoop derived h
      refine Reads.bind (parenthesized_reads fuel rest)
        (fun test condition w => ⟨[⟨.symbol .semicolon, Position.start⟩], _, whole w (empty _)⟩)
        fun test condition rest _ w => ?_
      exact Reads.bind (each rest) (fun inner body h => ⟨[], _, whole w h⟩)
        fun inner body rest _ h => Reads.pure (whole w h)
    · refine Reads.behind [⟨.keyword .doWord, p⟩] ?_
      have whole {test inner : List Token} {condition : SourceExpr} {body : SourceStmt}
          (q r : Position) (h : Statement inner body) (w : WrittenParenthesized test condition) :
          Statement
            (⟨.keyword .doWord, p⟩ :: (inner ++ ⟨.keyword .whileWord, q⟩ ::
              (test ++ [⟨.symbol .semicolon, r⟩])))
            (.doLoop p body condition) := by
        obtain ⟨test, v, s, t, derived, rfl, rfl⟩ := w
        simpa using Statement.doLoop h derived
      have some := parenthesized_someName
      refine Reads.bind (each rest)
        (fun inner body h => ⟨_, _, whole Position.start Position.start h some⟩)
        fun inner body rest _ h => ?_
      refine Reads.keyword ⟨Position.start, _, _, whole _ Position.start h some⟩ fun q rest => ?_
      refine Reads.bind (parenthesized_reads fuel rest)
        (fun test condition w => ⟨_, _, whole q Position.start h w⟩)
        fun test condition rest _ w => ?_
      exact Reads.symbol ⟨Position.start, [], _, whole q _ h w⟩
        fun r rest => Reads.pure (whole q r h w)
    · refine Reads.behind [⟨.keyword .forWord, p⟩] ?_
      exact for_reads each p rest
    · refine Reads.behind [⟨.keyword .returnWord, p⟩] ?_
      refine Reads.ifNext ?_ (terminated_reads (fun value => Stmt.returns p (some value.expr))
        fuel rest fun read value q h => Statement.returns (.some h.1))
      rintro q rest rfl
      exact Reads.pure (.returns .none)
    · refine Reads.behind [⟨.keyword .breakWord, p⟩] ?_
      exact Reads.symbol ⟨Position.start, [], _, .breaks p _⟩ fun q rest => Reads.pure (.breaks p q)
    · refine Reads.behind [⟨.keyword .continueWord, p⟩] ?_
      exact Reads.symbol ⟨Position.start, [], _, .continues p _⟩
        fun q rest => Reads.pure (.continues p q)
    · split
      · next type rest same =>
        obtain ⟨token, isFirst, declared, -⟩ := declaredType_first same
        cases isFirst
        exact Reads.behind [⟨lexeme, p⟩] (declaration_reads (Stmt.declaration p type) fuel rest
          fun read names q h => .declaration declared h)
      · have whole {read : List Token} {value : Reading} (q : Position)
            (start : p = startOf read) (h : Written .expression read value) :
            Statement (read ++ [⟨.symbol .semicolon, q⟩]) (.expression p value.expr) := by
          rw [start]
          exact .expression h.1
        refine Reads.bind (readsAt fuel |>.expression (⟨lexeme, p⟩ :: rest))
          (fun read value h => ⟨[⟨.symbol .semicolon, Position.start⟩], _, .expression h.1⟩)
          fun read value after split h => ?_
        have start : p = startOf read := by
          rw [← startOf_append h.1.nonempty, ← split, startOf]
        exact Reads.symbol ⟨Position.start, [], _, whole _ start h⟩
          fun q rest => Reads.pure (whole q start h)

end Step

/-- Statements and blocks are read as the grammar has them, whatever the fuel. -/
theorem statements_readAt (fuel : Nat) :
    (∀ tokens, Reads Statement tokens (statement fuel tokens)) ∧
      ∀ tokens, Reads WrittenBlock tokens (statementsToBrace fuel tokens) := by
  induction fuel with
  | zero =>
    exact ⟨fun _ => Reads.fail ⟨_, _, .empty Position.start⟩, fun _ =>
      Reads.fail ⟨[⟨.symbol .rightBrace, Position.start⟩], [], [], _, by simp, rfl, rfl⟩⟩
  | succ fuel ih =>
    exact ⟨statement_reads_step ih.1 ih.2, statementsToBrace_reads ih.1 ih.2⟩

theorem statement_reads (fuel : Nat) (tokens : List Token) :
    Reads Statement tokens (statement fuel tokens) :=
  (statements_readAt fuel).1 tokens

/-! ### Bodies -/

theorem body_cons {read rest : List Token} {first : SourceStmt} {others : List SourceStmt}
    (h : Statement read first) (h' : Body rest others) :
    Body (read ++ rest) (first :: others) := by
  obtain ⟨parts, each, rfl, rfl⟩ := h'
  exact ⟨(read, first) :: parts, by simpa using ⟨h, fun tokens s isIn => each _ isIn⟩, by simp,
    rfl⟩

/-- **Readings of bodies.** What is read to the end of the tokens is a body of the grammar; a
reading that fails has taken tokens that some body begins with. -/
theorem statements_reads (fuel : Nat) {tokens : List Token}
    (lexical : ∀ token ∈ tokens, Lexical token) :
    match statements fuel tokens with
    | .ok body => Body tokens body
    | .error rest => ∃ read, tokens = read ++ rest ∧ Begins read := by
  have nothing : Body [] [] := ⟨[], by simp, rfl, rfl⟩
  induction fuel generalizing tokens with
  | zero =>
    cases tokens with
    | nil => exact nothing
    | cons token rest => exact ⟨[], rfl, [], [], nothing⟩
  | succ fuel ih =>
    cases tokens with
    | nil => exact nothing
    | cons token rest =>
      unfold statements
      have first := statement_reads fuel _ lexical
      generalize statement fuel (token :: rest) = result at first ⊢
      rcases result with rest | ⟨first, rest⟩
      · obtain ⟨read, split, more, s, h⟩ := first
        exact ⟨read, split, more, [s], by simpa using body_cons h nothing⟩
      · obtain ⟨read, split, h⟩ := first
        have others := ih fun token isIn =>
          lexical token (split ▸ List.mem_append_right _ isIn)
        rw [split]
        change match statements fuel rest >>= fun others => .ok (first :: others) with
          | .ok body => Body (read ++ rest) body
          | .error after => ∃ taken, read ++ rest = taken ++ after ∧ Begins taken
        generalize statements fuel rest = result at others ⊢
        cases result with
        | ok others => exact body_cons h ‹_›
        | error after =>
          obtain ⟨taken, rfl, more, body, w⟩ := others
          exact ⟨read ++ taken, by simp, more, first :: body, by simpa using body_cons h w⟩

/-! ### The nearest `if` -/

/-- What holds of a reading that ends well and of the tokens behind it. -/
def Gives {α : Type} (P : α → List Token → Prop)
    (result : Except Failure (α × List Token)) : Prop :=
  ∀ a rest, result = .ok (a, rest) → P a rest

namespace Gives

variable {α β : Type} {P : α → List Token → Prop}

theorem error {rest : List Token} : Gives P (.error rest) := by
  intro a after h
  cases h

theorem pure {a : α} {rest : List Token} (h : P a rest) : Gives P (.ok (a, rest)) := by
  rintro _ _ ⟨⟩
  exact h

theorem bind {result : Except Failure β} {next : β → Except Failure (α × List Token)}
    (h : ∀ b, result = .ok b → Gives P (next b)) : Gives P (result >>= next) := by
  cases result with
  | error rest => exact error
  | ok b => exact h b rfl

end Gives

/-- A statement in which each `else` belongs to the nearest `if`, and which takes the `else`
behind it if there is one to take. -/
def Settled (s : SourceStmt) (rest : List Token) : Prop :=
  NearestElse s ∧ (endsOpen s = true → ∀ p more, rest ≠ ⟨.keyword .elseWord, p⟩ :: more)

theorem statement_settled_step {fuel : Nat}
    (each : ∀ tokens, Gives Settled (statement fuel tokens))
    (block : ∀ tokens, Gives (fun inner _ => NearestElseAll inner) (statementsToBrace fuel tokens))
    (tokens : List Token) : Gives Settled (statement (fuel + 1) tokens) := by
  -- Statements without another one at their end take no `else`.
  have closed {s : SourceStmt} {rest : List Token} (nearest : NearestElse s)
      (h : endsOpen s = false) : Gives Settled (.ok (s, rest)) :=
    Gives.pure ⟨nearest, fun isOpen => by simp [h] at isOpen⟩
  -- A loop takes an `else` if its body does.
  have loops {s body : SourceStmt} {rest : List Token} (h : Settled body rest)
      (nearest : NearestElse s = NearestElse body) (opens : endsOpen s = endsOpen body) :
      Gives Settled (.ok (s, rest)) := by
    refine Gives.pure ⟨?_, ?_⟩
    · rw [nearest]
      exact h.1
    · rw [opens]
      exact h.2
  rcases tokens with - | ⟨⟨lexeme, p⟩, rest⟩
  · exact Gives.error
  · unfold statement
    dsimp only
    split
    · exact Gives.bind fun inner isInner => closed (block _ _ _ isInner) rfl
    · exact closed trivial rfl
    · refine Gives.bind fun condition _ => Gives.bind fun thenBranch isThen => ?_
      obtain ⟨nearest, takes⟩ := each _ _ _ isThen
      split
      · next q after same =>
        refine Gives.bind fun elseBranch isElse => Gives.pure ?_
        obtain ⟨nearest', takes'⟩ := each _ _ _ isElse
        refine ⟨⟨?_, nearest, nearest'⟩, takes'⟩
        cases isOpen : endsOpen thenBranch.1 with
        | false => rfl
        | true => exact (takes isOpen q after same).elim
      · next noElse => exact Gives.pure ⟨nearest, fun _ => noElse⟩
    · exact Gives.bind fun condition _ => Gives.bind fun body isBody =>
        loops (each _ _ _ isBody) rfl rfl
    · exact Gives.bind fun body isBody => Gives.bind fun _ _ => Gives.bind fun _ _ =>
        Gives.bind fun _ _ => closed (each _ _ _ isBody).1 rfl
    · refine Gives.bind fun _ _ => ?_
      split
      · exact Gives.bind fun header _ => Gives.bind fun body isBody =>
          loops (each _ _ _ isBody) rfl rfl
      · exact Gives.bind fun _ _ => Gives.bind fun _ _ => Gives.bind fun _ _ =>
          Gives.bind fun body isBody => loops (each _ _ _ isBody) rfl rfl
    · split
      · exact closed trivial rfl
      · exact Gives.bind fun _ _ => Gives.bind fun _ _ => closed trivial rfl
    · exact Gives.bind fun _ _ => closed trivial rfl
    · exact Gives.bind fun _ _ => closed trivial rfl
    · split <;> exact Gives.bind fun _ _ => Gives.bind fun _ _ => closed trivial rfl

theorem statementsToBrace_nearest_step {fuel : Nat}
    (each : ∀ tokens, Gives Settled (statement fuel tokens))
    (block : ∀ tokens, Gives (fun inner _ => NearestElseAll inner) (statementsToBrace fuel tokens))
    (tokens : List Token) :
    Gives (fun inner _ => NearestElseAll inner) (statementsToBrace (fuel + 1) tokens) := by
  rw [statementsToBrace]
  split
  · exact Gives.pure trivial
  · exact Gives.bind fun first isFirst => Gives.bind fun others areOthers =>
      Gives.pure ⟨(each _ _ _ isFirst).1, block _ _ _ areOthers⟩

theorem statement_settledAt (fuel : Nat) :
    (∀ tokens, Gives Settled (statement fuel tokens)) ∧
      ∀ tokens, Gives (fun inner _ => NearestElseAll inner) (statementsToBrace fuel tokens) := by
  induction fuel with
  | zero => exact ⟨fun _ => Gives.error, fun _ => Gives.error⟩
  | succ fuel ih =>
    exact ⟨statement_settled_step ih.1 ih.2, statementsToBrace_nearest_step ih.1 ih.2⟩

/-- Every `else` of a body that has been read belongs to the nearest `if`. -/
theorem statements_nearest {fuel : Nat} {tokens : List Token} {body : List SourceStmt}
    (h : statements fuel tokens = .ok body) : NearestElseAll body := by
  induction fuel generalizing tokens body with
  | zero =>
    cases tokens with
    | nil =>
      cases h
      trivial
    | cons token rest => cases h
  | succ fuel ih =>
    cases tokens with
    | nil =>
      cases h
      trivial
    | cons token rest =>
      unfold statements at h
      cases isFirst : statement fuel (token :: rest) with
      | error after => simp [isFirst, Bind.bind, Except.bind] at h
      | ok first =>
        cases areOthers : statements fuel first.2 with
        | error after => simp [isFirst, areOthers, Bind.bind, Except.bind] at h
        | ok others =>
          obtain rfl : first.1 :: others = body := by
            simpa [isFirst, areOthers, Bind.bind, Except.bind, Pure.pure, Except.pure] using h
          exact ⟨((statement_settledAt fuel).1 _ _ _ isFirst).1, ih areOthers⟩

end Formulary.Parser
