/-
What the parser reads is what the grammar derives.

A reading takes tokens from the front of a list. If it ends well, the tokens that it has taken
are a phrase of the grammar with the tree that it gives; if it fails, the tokens that it has
taken by then are the beginning of such a phrase. `Reads` says both at once, so that a sequence
of readings needs one rule only.

* `Reads.bind` — one reading after the other.
* `expression_reads` … `members_reads` — one lemma for each function on expressions, by
  induction on the fuel.
-/

import Formulary.Proofs.Grammar

namespace Formulary.Parser

open Grammar

/-! ### Readings -/

/-- A token that the text of a body can have: of the compound assignments only those that
there are. -/
def Lexical (token : Token) : Prop :=
  ∀ op, token.lexeme = .symbol (.compound op) → op ∈ Symbol.compoundOps

/-- Reads a phrase from the front of a token list, or the beginning of one. -/
def Reads {α : Type} (phrase : List Token → α → Prop) (tokens : List Token)
    (result : Except Failure (α × List Token)) : Prop :=
  (∀ token ∈ tokens, Lexical token) →
    match result with
    | .ok (a, rest) => ∃ read, tokens = read ++ rest ∧ phrase read a
    | .error rest => ∃ read, tokens = read ++ rest ∧ ∃ more a, phrase (read ++ more) a

namespace Reads

variable {α β : Type} {phrase : List Token → α → Prop} {whole : List Token → β → Prop}
  {tokens rest : List Token}

theorem pure {a : α} (h : phrase [] a) : Reads phrase tokens (.ok (a, tokens)) :=
  fun _ => ⟨[], rfl, h⟩

/-- A reading that has taken nothing has taken the beginning of whatever there is. -/
theorem fail (inhabited : ∃ more a, phrase more a) : Reads phrase tokens (.error tokens) := by
  obtain ⟨more, a, h⟩ := inhabited
  exact fun _ => ⟨[], rfl, more, a, h⟩

theorem mono {other : List Token → α → Prop} {result : Except Failure (α × List Token)}
    (h : Reads phrase tokens result) (imp : ∀ read a, phrase read a → other read a) :
    Reads other tokens result := by
  intro lexical
  have h := h lexical
  rcases result with rest | ⟨a, rest⟩
  · obtain ⟨read, split, more, a, h⟩ := h
    exact ⟨read, split, more, a, imp _ _ h⟩
  · obtain ⟨read, split, h⟩ := h
    exact ⟨read, split, imp _ _ h⟩

theorem map {other : List Token → β → Prop} {f : α → β}
    {result : Except Failure (α × List Token)} (h : Reads phrase tokens result)
    (imp : ∀ read a, phrase read a → other read (f a)) :
    Reads other tokens (result.map fun (a, rest) => (f a, rest)) := by
  intro lexical
  have h := h lexical
  rcases result with rest | ⟨a, rest⟩
  · obtain ⟨read, split, more, a, h⟩ := h
    exact ⟨read, split, more, f a, imp _ _ h⟩
  · obtain ⟨read, split, h⟩ := h
    exact ⟨read, split, imp _ _ h⟩

/-- Tokens that have been taken before a reading. -/
theorem behind (read : List Token) {result : Except Failure (α × List Token)}
    (h : Reads (fun more => phrase (read ++ more)) rest result) :
    Reads phrase (read ++ rest) result := by
  intro lexical
  have after := h fun token isIn => lexical token (List.mem_append_right _ isIn)
  rcases result with back | ⟨a, back⟩
  · obtain ⟨more, split, still, a, whole⟩ := after
    exact ⟨read ++ more, by rw [split, List.append_assoc], still, a,
      by rwa [List.append_assoc]⟩
  · obtain ⟨more, split, whole⟩ := after
    exact ⟨read ++ more, by rw [split, List.append_assoc], whole⟩

/-- One reading after the other. Whatever the first one has taken can be completed to the
whole, and the second one goes on from there. -/
theorem bind {result : Except Failure (α × List Token)}
    {next : α × List Token → Except Failure (β × List Token)}
    (first : Reads phrase tokens result)
    (completes : ∀ read a, phrase read a → ∃ more b, whole (read ++ more) b)
    (goesOn : ∀ read a rest, tokens = read ++ rest → phrase read a →
      Reads (fun more => whole (read ++ more)) rest (next (a, rest))) :
    Reads whole tokens (result >>= next) := by
  intro lexical
  have first := first lexical
  rcases result with rest | ⟨a, rest⟩
  · obtain ⟨read, split, more, a, h⟩ := first
    obtain ⟨still, b, whole⟩ := completes _ a h
    exact ⟨read, split, more ++ still, b, by rwa [← List.append_assoc]⟩
  · obtain ⟨read, rfl, h⟩ := first
    exact behind read (goesOn read a rest rfl h) lexical

theorem symbol {symbol : Symbol} {next : List Token → Except Failure (β × List Token)}
    (completes : ∃ p more b, whole (⟨.symbol symbol, p⟩ :: more) b)
    (goesOn : ∀ p rest, Reads (fun more => whole (⟨.symbol symbol, p⟩ :: more)) rest (next rest)) :
    Reads whole tokens (expectSymbol symbol tokens >>= next) := by
  obtain ⟨p, more, b, h⟩ := completes
  have inhabited : ∃ more b, whole more b := ⟨_, b, h⟩
  rcases tokens with - | ⟨⟨lexeme, p⟩, rest⟩
  · exact fail inhabited
  · by_cases same : lexeme = .symbol symbol
    · subst same
      rw [expectSymbol, if_pos rfl]
      exact behind [⟨.symbol symbol, p⟩] (goesOn p rest)
    · rw [expectSymbol, if_neg same]
      exact fail inhabited

theorem keyword {word : Keyword} {next : List Token → Except Failure (β × List Token)}
    (completes : ∃ p more b, whole (⟨.keyword word, p⟩ :: more) b)
    (goesOn : ∀ p rest, Reads (fun more => whole (⟨.keyword word, p⟩ :: more)) rest (next rest)) :
    Reads whole tokens (expectKeyword word tokens >>= next) := by
  obtain ⟨p, more, b, h⟩ := completes
  have inhabited : ∃ more b, whole more b := ⟨_, b, h⟩
  rcases tokens with - | ⟨⟨lexeme, p⟩, rest⟩
  · exact fail inhabited
  · by_cases same : lexeme = .keyword word
    · subst same
      rw [expectKeyword, if_pos rfl]
      exact behind [⟨.keyword word, p⟩] (goesOn p rest)
    · rw [expectKeyword, if_neg same]
      exact fail inhabited

theorem name {next : (String × Position) × List Token → Except Failure (β × List Token)}
    (completes : ∃ text p more b, whole (⟨.name text, p⟩ :: more) b)
    (goesOn : ∀ text p rest,
      Reads (fun more => whole (⟨.name text, p⟩ :: more)) rest (next ((text, p), rest))) :
    Reads whole tokens (expectName tokens >>= next) := by
  obtain ⟨text, p, more, b, h⟩ := completes
  have inhabited : ∃ more b, whole more b := ⟨_, b, h⟩
  rcases tokens with - | ⟨⟨lexeme, p⟩, rest⟩
  · exact fail inhabited
  · cases lexeme with
    | name text => exact behind [⟨.name text, p⟩] (goesOn text p rest)
    | _ => exact fail inhabited

/-- A choice by whether a symbol comes next. -/
theorem ifNext {symbol : Symbol} {yes no : Except Failure (β × List Token)}
    (there : ∀ p rest, tokens = ⟨.symbol symbol, p⟩ :: rest →
      Reads (fun more => whole (⟨.symbol symbol, p⟩ :: more)) rest yes)
    (absent : Reads whole tokens no) :
    Reads whole tokens (if comesNext symbol tokens then yes else no) := by
  rcases tokens with - | ⟨⟨lexeme, p⟩, rest⟩
  · exact absent
  · by_cases same : lexeme = .symbol symbol
    · subst same
      rw [comesNext, if_pos (by simp)]
      exact behind [⟨.symbol symbol, p⟩] (there p rest rfl)
    · rw [comesNext, if_neg (by simpa using same)]
      exact absent

end Reads

/-! ### Names -/

theorem dottedRest_reads (tokens : List Token) :
    Reads DottedRest tokens (dottedRest tokens) := by
  have inhabited : ∃ more tail, DottedRest more tail := ⟨_, _, .nil⟩
  induction tokens using dottedRest.induct with
  | case1 dot part rest isDot text isName ih =>
    obtain ⟨_, p⟩ := dot
    obtain ⟨_, q⟩ := part
    subst isDot isName
    rw [dottedRest, if_pos rfl]
    exact Reads.behind [_, _] (ih.map fun _ _ rest => .cons rest)
  | case2 dot part rest isDot noName =>
    obtain ⟨_, p⟩ := dot
    subst isDot
    have stops : dottedRest (⟨.symbol .dot, p⟩ :: part :: rest) = .error (part :: rest) := by
      rw [dottedRest, if_pos rfl]
      split
      · next text isName => exact (noName text isName).elim
      · rfl
    rw [stops]
    exact Reads.behind [_] (Reads.fail ⟨[someName], _, .cons .nil⟩)
  | case3 dot part rest noDot =>
    rw [dottedRest, if_neg noDot]
    exact Reads.pure .nil
  | case4 dot isDot =>
    obtain ⟨_, p⟩ := dot
    subst isDot
    rw [dottedRest, if_pos rfl]
    exact Reads.behind [_] (Reads.fail ⟨[someName], _, .cons .nil⟩)
  | case5 dot noDot =>
    rw [dottedRest, if_neg noDot]
    exact Reads.pure .nil
  | case6 => exact Reads.pure .nil

theorem startOf_append {front back : List Token} (h : front ≠ []) :
    startOf (front ++ back) = startOf front := by
  cases front with
  | nil => exact (h rfl).elim
  | cons token rest => rfl

theorem dottedName_reads (tokens : List Token) :
    Reads Dotted tokens (dottedName tokens) := by
  refine Reads.name ⟨_, _, _, _, dotted_someName⟩ fun first p rest => ?_
  have whole : ∀ read tail, DottedRest read tail →
      Dotted (⟨.name first, p⟩ :: (read ++ [])) ⟨p, first ++ tail, ()⟩ := by
    intro read tail h
    rw [List.append_nil]
    exact .mk h
  exact Reads.bind (dottedRest_reads rest) (fun read tail h => ⟨[], _, whole read tail h⟩)
    fun read tail rest _ h => Reads.pure (whole read tail h)

/-! ### Expressions -/

/-- What a reading has read. -/
def Reading.parsed (reading : Reading) : Parsed :=
  ⟨reading.expr, reading.start⟩

/-- Tokens that write what a reading gives. What may stand before an assignment operator is
a unary expression. -/
def Written (phrase : Phrase) (tokens : List Token) (reading : Reading) : Prop :=
  Derives phrase tokens reading.parsed ∧
    (reading.isOperand = true → Derives .unary tokens reading.parsed)

/-- Tokens that write an operand. -/
def WrittenOperand (phrase : Phrase) (tokens : List Token) (reading : Reading) : Prop :=
  Derives phrase tokens reading.parsed ∧ reading.isOperand = true

/-- Arguments and the parenthesis behind them. -/
def WrittenArguments (tokens : List Token) (args : List SourceExpr) : Prop :=
  ∃ parts : List (List Token × Parsed), ∃ inner p,
    (∀ part ∈ parts, Derives .expression part.1 part.2) ∧
    Separated (parts.map Prod.fst) inner ∧ tokens = inner ++ [⟨.symbol .rightParen, p⟩] ∧
    args = parts.map (·.2.expr)

/-- Expressions with commas between them, at least one. -/
def WrittenExpressions (tokens : List Token) (values : List Reading) : Prop :=
  values ≠ [] ∧ Expressions tokens (values.map Reading.parsed)

/-- Every function on expressions reads its phrase, whatever the tokens. -/
structure ReadsAt (fuel : Nat) : Prop where
  expression : ∀ tokens, Reads (Written .expression) tokens (expression fuel tokens)
  conditional : ∀ tokens, Reads (Written .conditional) tokens (conditional fuel tokens)
  infixes : ∀ level tokens, level ≤ operandLevel →
    Reads (Written (.infixes level)) tokens (infixes fuel level tokens)
  climb : ∀ level ceiling bound before left tokens, level ≤ bound → ceiling ≤ bound →
    Written (.infixes bound) before left →
    Reads (fun more => Written (.infixes level) (before ++ more)) tokens
      (climb fuel level ceiling (startOf before) left tokens)
  operand : ∀ tokens, Reads (WrittenOperand .unary) tokens (operand fuel tokens)
  withMembers : ∀ tokens, Reads (WrittenOperand .suffixed) tokens (withMembers fuel tokens)
  members : ∀ before left tokens, WrittenOperand .suffixed before left →
    Reads (fun more => WrittenOperand .suffixed (before ++ more)) tokens
      (members fuel (startOf before) left tokens)
  primary : ∀ tokens, Reads (WrittenOperand .primary) tokens (primary fuel tokens)
  arguments : ∀ tokens, Reads WrittenArguments tokens (arguments fuel tokens)
  expressions : ∀ tokens, Reads WrittenExpressions tokens (expressions fuel tokens)

/-- A name alone, as the parser reads it. -/
def someReading : Reading :=
  ⟨.name Position.start "x", Position.start, true⟩

theorem written_someName (phrase : Phrase)
    (bound : ∀ level, phrase = .infixes level → level ≤ operandLevel) :
    Written phrase [someName] someReading :=
  ⟨derives_someName phrase bound, fun _ => derives_someName .unary (by simp)⟩

theorem operator_infix {lexeme : Lexeme} {tightness : Nat} {op : Infix}
    (h : infix? lexeme = some (tightness, op)) :
    match op with
    | .binary op => lexeme = .symbol (.binary op) ∧ .binary op ∈ operators tightness
    | .logical op => lexeme = .symbol (.logical op) ∧ .logical op ∈ operators tightness
    | .instanceOf => lexeme = .keyword .instanceofWord ∧ tightness = comparison := by
  unfold infix? at h
  split at h
  · cases h
    exact ⟨rfl, by decide⟩
  · cases h
    exact ⟨rfl, by decide⟩
  · next op =>
    cases h
    exact ⟨rfl, by cases op <;> decide⟩
  · cases h
    exact ⟨rfl, rfl⟩
  · cases h

theorem assignment_mark {token : Token} {op : Option BinaryOp}
    (h : assignment? token.lexeme = some op) (lexical : Lexical token) :
    ∃ mark, token.lexeme = .symbol mark ∧ (mark, op) ∈ assignments := by
  unfold assignment? at h
  split at h
  · next same =>
    cases h
    exact ⟨_, same, List.mem_cons_self⟩
  · next op same =>
    cases h
    exact ⟨_, same, List.mem_cons_of_mem _ (List.mem_map_of_mem (lexical op same))⟩
  · cases h

theorem unary_mark {lexeme : Lexeme} {op : UnaryOp} (h : prefixOp? lexeme = some op) :
    ∃ mark, lexeme = .symbol mark ∧ (mark, op) ∈ unaryOperators := by
  unfold prefixOp? at h
  split at h <;> cases h <;> exact ⟨_, rfl, by decide⟩

theorem literal_lexeme {lexeme : Lexeme} (h : isLiteral lexeme = true) : IsLiteral lexeme := by
  unfold isLiteral at h
  split at h <;> first | constructor | cases h

theorem operators_level {mark : Symbol} {level : Nat} (h : mark ∈ operators level) :
    level < operandLevel := by
  unfold operators at h
  unfold operandLevel
  split at h <;> first | omega | simp at h

section Step

variable {fuel : Nat}

theorem expression_reads (ih : ReadsAt fuel) (tokens : List Token) :
    Reads (Written .expression) tokens (expression (fuel + 1) tokens) := by
  rw [expression]
  have alone {read : List Token} {left : Reading} (h : Written .conditional read left) :
      Written .expression (read ++ []) left := by
    rw [List.append_nil]
    exact ⟨.unassigned h.1, h.2⟩
  refine Reads.bind (ih.conditional tokens) (fun read left h => ⟨[], left, alone h⟩)
    fun read left rest split h => ?_
  have start : startOf tokens = startOf read := by rw [split, startOf_append h.1.nonempty]
  have stops : Reads (fun more => Written .expression (read ++ more)) rest (.ok (left, rest)) :=
    Reads.pure (alone h)
  dsimp only
  split
  · next token after isOperand =>
    obtain ⟨lexeme, p⟩ := token
    split
    · next op isAssignment =>
      intro lexical
      obtain ⟨mark, rfl, isIn⟩ := assignment_mark isAssignment (lexical _ List.mem_cons_self)
      have whole {right : List Token} {value : Reading} (h' : Written .expression right value) :
          Written .expression (read ++ ⟨.symbol mark, p⟩ :: (right ++ []))
            ⟨.assign (startOf tokens) op left.expr value.expr, startOf tokens, false⟩ := by
        rw [List.append_nil, start]
        exact ⟨.assign (h.2 isOperand) isIn h'.1, fun flag => (nomatch flag)⟩
      refine Reads.behind [⟨.symbol mark, p⟩] ?_ lexical
      exact Reads.bind (ih.expression after) (fun right value h' => ⟨[], _, whole h'⟩)
        fun right value rest _ h' => Reads.pure (whole h')
    · exact stops
  · exact stops

theorem conditional_reads (ih : ReadsAt fuel) (tokens : List Token) :
    Reads (Written .conditional) tokens (conditional (fuel + 1) tokens) := by
  rw [conditional]
  have alone {read : List Token} {condition : Reading} (h : Written (.infixes 1) read condition) :
      Written .conditional (read ++ []) condition := by
    rw [List.append_nil]
    exact ⟨.unconditional h.1, h.2⟩
  refine Reads.bind (ih.infixes 1 tokens (by decide))
    (fun read condition h => ⟨[], condition, alone h⟩) fun first condition rest split h => ?_
  have start : startOf tokens = startOf first := by rw [split, startOf_append h.1.nonempty]
  have whole {second third : List Token} {thenValue elseValue : Reading} {p q : Position}
      (h' : Written .expression second thenValue) (h'' : Written .conditional third elseValue) :
      Written .conditional
        (first ++ ⟨.symbol .question, p⟩ :: (second ++ ⟨.symbol .colon, q⟩ :: (third ++ [])))
        ⟨.conditional (startOf tokens) condition.expr thenValue.expr elseValue.expr,
          startOf tokens, false⟩ := by
    rw [List.append_nil, start]
    exact ⟨.conditional h.1 h'.1 h''.1, fun flag => (nomatch flag)⟩
  have other := written_someName .conditional (by simp)
  refine Reads.ifNext ?_ (Reads.pure (alone h))
  rintro p rest rfl
  refine Reads.bind (ih.expression rest)
    (fun second thenValue h' => ⟨⟨.symbol .colon, Position.start⟩ :: [someName], _,
      whole h' other⟩) fun second thenValue rest _ h' => ?_
  refine Reads.symbol ⟨Position.start, [someName], _, whole h' other⟩ fun q rest => ?_
  exact Reads.bind (ih.conditional rest) (fun third elseValue h'' => ⟨[], _, whole h' h''⟩)
    fun third elseValue rest _ h'' => Reads.pure (whole h' h'')

theorem infixes_reads (ih : ReadsAt fuel) {level : Nat} (le : level ≤ operandLevel)
    (tokens : List Token) :
    Reads (Written (.infixes level)) tokens (infixes (fuel + 1) level tokens) := by
  rw [infixes]
  have operand {read : List Token} {left : Reading} (h : WrittenOperand .unary read left) :
      Written (.infixes operandLevel) read left :=
    ⟨.operand h.1, fun _ => h.1⟩
  refine Reads.bind (ih.operand tokens)
    (fun read left h => ⟨[], left, ⟨?_, fun _ => ?_⟩⟩) fun read left rest split h => ?_
  · rw [List.append_nil]
    exact (Derives.operand h.1).lower le
  · rw [List.append_nil]
    exact h.1
  · have start : startOf tokens = startOf read := by rw [split, startOf_append h.1.nonempty]
    dsimp only
    rw [start]
    exact ih.climb level tightest operandLevel read left rest le (by decide) (operand h)

theorem climb_reads (ih : ReadsAt fuel) {level ceiling bound : Nat} {before : List Token}
    {left : Reading} (le : level ≤ bound) (below : ceiling ≤ bound)
    (h : Written (.infixes bound) before left) (tokens : List Token) :
    Reads (fun more => Written (.infixes level) (before ++ more)) tokens
      (climb (fuel + 1) level ceiling (startOf before) left tokens) := by
  have alone : Written (.infixes level) (before ++ []) left := by
    rw [List.append_nil]
    exact ⟨h.1.lower le, h.2⟩
  rcases tokens with - | ⟨⟨lexeme, p⟩, rest⟩
  · exact Reads.pure alone
  · rw [climb]
    split
    · exact Reads.pure alone
    · next tightness op isOperator =>
      split
      · exact Reads.pure alone
      · next between =>
        obtain ⟨above, under⟩ : level ≤ tightness ∧ tightness ≤ ceiling := by
          simpa [Nat.not_lt] using between
        have lowered := h.1.lower (Nat.le_trans under below)
        -- What has been joined so far is the left operand of what follows.
        have goesOn {read : List Token} {joined : Reading} (rest : List Token)
            (w : Written (.infixes tightness) (before ++ ⟨lexeme, p⟩ :: read) joined) :
            Reads (fun more => Written (.infixes level) (before ++ ⟨lexeme, p⟩ :: (read ++ more)))
              rest (climb fuel level tightness (startOf before) joined rest) := by
          have climbs := ih.climb level tightness tightness _ joined rest above (Nat.le_refl _) w
          rw [startOf_append h.1.nonempty] at climbs
          refine climbs.mono fun read a written => ?_
          rwa [List.append_assoc, List.cons_append] at written
        have completes {read : List Token} {joined : Reading}
            (w : Written (.infixes tightness) (before ++ ⟨lexeme, p⟩ :: read) joined) :
            ∃ more a, Written (.infixes level) (before ++ ⟨lexeme, p⟩ :: (read ++ more)) a := by
          refine ⟨[], joined, ?_⟩
          rw [List.append_nil]
          exact ⟨w.1.lower above, w.2⟩
        refine Reads.behind [⟨lexeme, p⟩] ?_
        cases op with
        | instanceOf =>
          obtain ⟨rfl, rfl⟩ := operator_infix isOperator
          have joins {read : List Token} {type : TypeName Unit} (h' : Dotted read type) :
              Written (.infixes comparison)
                (before ++ ⟨.keyword .instanceofWord, p⟩ :: read)
                ⟨.instanceOf (startOf before) left.expr type, startOf before, false⟩ :=
            ⟨.instanceOf lowered h', fun flag => (nomatch flag)⟩
          exact Reads.bind (dottedName_reads rest) (fun read type h' => completes (joins h'))
            fun read type rest _ h' => goesOn rest (joins h')
        | binary op =>
          obtain ⟨rfl, isIn⟩ := operator_infix isOperator
          have joins {read : List Token} {right : Reading}
              (h' : Written (.infixes (tightness + 1)) read right) :
              Written (.infixes tightness) (before ++ ⟨.symbol (.binary op), p⟩ :: read)
                ⟨.binary p op left.expr right.expr, startOf before, false⟩ :=
            ⟨.binary lowered isIn h'.1, fun flag => (nomatch flag)⟩
          exact Reads.bind (ih.infixes (tightness + 1) rest (operators_level isIn))
            (fun read right h' => completes (joins h'))
            fun read right rest _ h' => goesOn rest (joins h')
        | logical op =>
          obtain ⟨rfl, isIn⟩ := operator_infix isOperator
          have joins {read : List Token} {right : Reading}
              (h' : Written (.infixes (tightness + 1)) read right) :
              Written (.infixes tightness) (before ++ ⟨.symbol (.logical op), p⟩ :: read)
                ⟨.logical (startOf before) op left.expr right.expr, startOf before, false⟩ :=
            ⟨.logical lowered isIn h'.1, fun flag => (nomatch flag)⟩
          exact Reads.bind (ih.infixes (tightness + 1) rest (operators_level isIn))
            (fun read right h' => completes (joins h'))
            fun read right rest _ h' => goesOn rest (joins h')

theorem operand_reads (ih : ReadsAt fuel) (tokens : List Token) :
    Reads (WrittenOperand .unary) tokens (operand (fuel + 1) tokens) := by
  have inhabited : ∃ more reading, WrittenOperand .unary more reading :=
    ⟨[someName], someReading, derives_someName .unary (by simp), rfl⟩
  have bare (tokens : List Token) :
      Reads (WrittenOperand .unary) tokens (withMembers fuel tokens) :=
    (ih.withMembers tokens).mono fun read a h => ⟨.unadorned h.1, h.2⟩
  -- An operator, a step or a cast in front of another operand.
  have before (front rest : List Token) (build : Reading → Reading)
      {next : Reading × List Token → Except Failure (Reading × List Token)}
      (builds : ∀ target rest, next (target, rest) = .ok (build target, rest))
      (joins : ∀ read target, Derives .unary read target.parsed →
        Derives .unary (front ++ read) (build target).parsed ∧ (build target).isOperand) :
      Reads (WrittenOperand .unary) (front ++ rest) (operand fuel rest >>= next) := by
    have whole {read : List Token} {target : Reading} (h : WrittenOperand .unary read target) :
        WrittenOperand .unary (front ++ (read ++ [])) (build target) := by
      rw [List.append_nil]
      exact joins read target h.1
    refine Reads.behind front (Reads.bind (ih.operand rest)
      (fun read target h => ⟨[], _, whole h⟩) fun read target rest _ h => ?_)
    rw [builds]
    exact Reads.pure (whole h)
  rcases tokens with - | ⟨⟨lexeme, p⟩, rest⟩
  · exact Reads.fail inhabited
  · unfold operand
    dsimp only
    split
    · next op isUnary =>
      obtain ⟨mark, rfl, isIn⟩ := unary_mark isUnary
      exact before [⟨.symbol mark, p⟩] rest (fun target => ⟨.unary p op target.expr, p, true⟩)
        (fun _ _ => rfl) fun read target h => ⟨.unary isIn h, rfl⟩
    · split
      · next op _ =>
        exact before [⟨.symbol (.step op), p⟩] rest
          (fun target => ⟨.step p op target.expr true, p, true⟩)
          (fun _ _ => rfl) fun read target h => ⟨.stepBefore h, rfl⟩
      · next name _ =>
        exact before [⟨.castType name, p⟩] rest
          (fun target => ⟨.cast p ⟨p, name, ()⟩ target.expr, p, true⟩)
          (fun _ _ => rfl) fun read target h => ⟨.castReference h, rfl⟩
      · split
        · next type q rest =>
          have whole {r : Position} {read : List Token} (target : Reading)
              (h : Derives .unary read target.parsed) :
              WrittenOperand .unary
                (⟨.symbol .leftParen, p⟩ :: ⟨.keyword (.primitive type), q⟩ ::
                  ⟨.symbol .rightParen, r⟩ :: (read ++ []))
                ⟨.cast p ⟨q, type.name, ()⟩ target.expr, p, true⟩ := by
            rw [List.append_nil]
            exact ⟨.castPrimitive h, rfl⟩
          refine Reads.behind [⟨.symbol .leftParen, p⟩, ⟨.keyword (.primitive type), q⟩] ?_
          refine Reads.symbol ⟨Position.start, [someName], _,
            whole someReading (derives_someName .unary (by simp))⟩ fun r rest => ?_
          exact Reads.bind (ih.operand rest) (fun read target h => ⟨[], _, whole target h.1⟩)
            fun read target rest _ h => Reads.pure (whole target h.1)
        · exact bare _
      · exact bare _

theorem withMembers_reads (ih : ReadsAt fuel) (tokens : List Token) :
    Reads (WrittenOperand .suffixed) tokens (withMembers (fuel + 1) tokens) := by
  rw [withMembers]
  refine Reads.bind (ih.primary tokens)
    (fun read left h => ⟨[], left, ?_⟩) fun read left rest split h => ?_
  · rw [List.append_nil]
    exact ⟨.unsuffixed h.1, h.2⟩
  · have start : startOf tokens = startOf read := by rw [split, startOf_append h.1.nonempty]
    dsimp only
    rw [start]
    exact ih.members read left rest ⟨.unsuffixed h.1, h.2⟩

theorem members_reads (ih : ReadsAt fuel) {before : List Token} {left : Reading}
    (h : WrittenOperand .suffixed before left) (tokens : List Token) :
    Reads (fun more => WrittenOperand .suffixed (before ++ more)) tokens
      (members (fuel + 1) (startOf before) left tokens) := by
  have start (read : List Token) : startOf (before ++ read) = startOf before :=
    startOf_append h.1.nonempty
  -- What has been read so far is followed by more members.
  have goesOn {read : List Token} {joined : Reading} (rest : List Token)
      (w : WrittenOperand .suffixed (before ++ read) joined) :
      Reads (fun more => WrittenOperand .suffixed (before ++ (read ++ more))) rest
        (members fuel (startOf before) joined rest) := by
    have reads := ih.members _ joined rest w
    rw [start] at reads
    simpa only [List.append_assoc] using reads
  have alone {read : List Token} {joined : Reading}
      (w : WrittenOperand .suffixed (before ++ read) joined) :
      WrittenOperand .suffixed (before ++ (read ++ [])) joined := by
    rwa [List.append_nil]
  have nothing : WrittenOperand .suffixed (before ++ []) left := by rwa [List.append_nil]
  rcases tokens with - | ⟨⟨lexeme, p⟩, rest⟩
  · exact Reads.pure nothing
  · unfold members
    dsimp only
    split
    · refine Reads.behind [⟨.symbol .dot, p⟩] ?_
      have field (name : String) (q : Position) :
          WrittenOperand .suffixed (before ++ [⟨.symbol .dot, p⟩, ⟨.name name, q⟩])
            ⟨.field q left.expr name, startOf before, true⟩ :=
        ⟨.field h.1, rfl⟩
      have method (name : String) (q r : Position) {read : List Token} {args : List SourceExpr}
          (w : WrittenArguments read args) :
          WrittenOperand .suffixed
            (before ++ ⟨.symbol .dot, p⟩ :: ⟨.name name, q⟩ :: ⟨.symbol .leftParen, r⟩ :: read)
            ⟨.methodCall q left.expr name args, startOf before, true⟩ := by
        obtain ⟨parts, inner, s, derived, separated, rfl, rfl⟩ := w
        exact ⟨.methodCall h.1 derived separated, rfl⟩
      refine Reads.name ⟨"x", Position.start, [], _, field "x" Position.start⟩
        fun name q rest => ?_
      refine Reads.ifNext ?_ (goesOn rest (field name q))
      rintro r rest rfl
      exact Reads.bind (ih.arguments rest)
        (fun read args w => ⟨[], _, alone (method name q r w)⟩)
        fun read args rest _ w => goesOn rest (method name q r w)
    · refine Reads.behind [⟨.symbol .leftBracket, p⟩] ?_
      have index {read : List Token} {place : Reading} (q : Position)
          (w : Written .expression read place) :
          WrittenOperand .suffixed
            (before ++ ⟨.symbol .leftBracket, p⟩ :: (read ++ [⟨.symbol .rightBracket, q⟩]))
            ⟨.index (startOf before) left.expr place.expr, startOf before, true⟩ :=
        ⟨.index h.1 w.1, rfl⟩
      refine Reads.bind (ih.expression rest)
        (fun read place w => ⟨[⟨.symbol .rightBracket, Position.start⟩], _, index _ w⟩)
        fun read place rest _ w => ?_
      refine Reads.symbol ⟨Position.start, [], _, index _ w⟩ fun q rest => ?_
      have reads := goesOn rest (index q w)
      simpa only [List.cons_append, List.append_assoc, List.nil_append] using reads
    · next op =>
      have stepped : WrittenOperand .suffixed (before ++ [⟨.symbol (.step op), p⟩])
          ⟨.step (startOf before) op left.expr false, startOf before, true⟩ :=
        ⟨.stepBehind h.1, rfl⟩
      exact Reads.behind [⟨.symbol (.step op), p⟩]
        (goesOn rest stepped)
    · exact Reads.pure nothing

theorem primary_reads (ih : ReadsAt fuel) (tokens : List Token) :
    Reads (WrittenOperand .primary) tokens (primary (fuel + 1) tokens) := by
  have inhabited : ∃ more reading, WrittenOperand .primary more reading :=
    ⟨[someName], someReading, derives_someName .primary (by simp), rfl⟩
  rcases tokens with - | ⟨⟨lexeme, p⟩, rest⟩
  · exact Reads.fail inhabited
  · unfold primary
    dsimp only
    split
    · next literal =>
      exact Reads.behind [⟨lexeme, p⟩] (Reads.pure ⟨.literal (literal_lexeme literal), rfl⟩)
    · split
      · next text _ =>
        refine Reads.behind [⟨.name text, p⟩] ?_
        have whole {q : Position} {read : List Token} {args : List SourceExpr}
            (w : WrittenArguments read args) :
            WrittenOperand .primary (⟨.name text, p⟩ :: ⟨.symbol .leftParen, q⟩ :: (read ++ []))
              ⟨.call p ⟨p, text, ()⟩ args, p, true⟩ := by
          obtain ⟨parts, inner, r, derived, separated, rfl, rfl⟩ := w
          rw [List.append_nil]
          exact ⟨.call derived separated, rfl⟩
        refine Reads.ifNext ?_ (Reads.pure ⟨.name, rfl⟩)
        rintro q rest rfl
        exact Reads.bind (ih.arguments rest) (fun read args w => ⟨[], _, whole w⟩)
          fun read args rest _ w => Reads.pure (whole w)
      · refine Reads.behind [⟨.symbol .leftParen, p⟩] ?_
        have whole {q : Position} {read : List Token} {inner : Reading}
            (w : Written .expression read inner) :
            WrittenOperand .primary
              (⟨.symbol .leftParen, p⟩ :: (read ++ [⟨.symbol .rightParen, q⟩]))
              ⟨inner.expr, inner.start, true⟩ :=
          ⟨.parentheses w.1, rfl⟩
        refine Reads.bind (ih.expression rest)
          (fun read inner w => ⟨[⟨.symbol .rightParen, Position.start⟩], _, whole w⟩)
          fun read inner rest _ w => ?_
        exact Reads.symbol ⟨Position.start, [], _, whole w⟩ fun q rest => Reads.pure (whole w)
      · refine Reads.behind [⟨.keyword .newWord, p⟩] ?_
        have whole {name read : List Token} {type : TypeName Unit} {q : Position}
            {args : List SourceExpr} (h : Dotted name type) (w : WrittenArguments read args) :
            WrittenOperand .primary
              (⟨.keyword .newWord, p⟩ :: (name ++ ⟨.symbol .leftParen, q⟩ :: (read ++ [])))
              ⟨.new p type args, p, true⟩ := by
          obtain ⟨parts, inner, r, derived, separated, rfl, rfl⟩ := w
          rw [List.append_nil]
          exact ⟨.new h derived separated, rfl⟩
        have none : WrittenArguments [⟨.symbol .rightParen, Position.start⟩] [] :=
          ⟨[], [], Position.start, by simp, .nil, rfl, rfl⟩
        refine Reads.bind (dottedName_reads rest)
          (fun name type h => ⟨_, _, whole (q := Position.start) h none⟩)
          fun name type rest _ h => ?_
        refine Reads.symbol ⟨Position.start, _, _, whole h none⟩ fun q rest => ?_
        exact Reads.bind (ih.arguments rest) (fun read args w => ⟨[], _, whole h w⟩)
          fun read args rest _ w => Reads.pure (whole h w)
      · exact Reads.fail inhabited

theorem expressions_reads (ih : ReadsAt fuel) (tokens : List Token) :
    Reads WrittenExpressions tokens (expressions (fuel + 1) tokens) := by
  rw [expressions]
  have one {read : List Token} {first : Reading} (h : Written .expression read first) :
      WrittenExpressions (read ++ []) [first] := by
    rw [List.append_nil]
    exact ⟨by simp, [(read, first.parsed)], by simpa using h.1, .one read, rfl⟩
  have more {read others : List Token} {first : Reading} {values : List Reading} {p : Position}
      (h : Written .expression read first) (w : WrittenExpressions others values) :
      WrittenExpressions (read ++ ⟨.symbol .comma, p⟩ :: (others ++ [])) (first :: values) := by
    rw [List.append_nil]
    obtain ⟨some, parts, derived, separated, same⟩ := w
    refine ⟨by simp, (read, first.parsed) :: parts, ?_, ?_, by simp [same]⟩
    · simpa using ⟨h.1, fun tokens value isIn => derived _ isIn⟩
    · cases parts with
      | nil => simp [some] at same
      | cons part parts => exact .cons separated
  refine Reads.bind (ih.expression tokens) (fun read first h => ⟨[], _, one h⟩)
    fun read first rest _ h => ?_
  refine Reads.ifNext ?_ (Reads.pure (one h))
  rintro p rest rfl
  exact Reads.bind (ih.expressions rest) (fun others values w => ⟨[], _, more h w⟩)
    fun others values rest _ w => Reads.pure (more h w)

theorem arguments_reads (ih : ReadsAt fuel) (tokens : List Token) :
    Reads WrittenArguments tokens (arguments (fuel + 1) tokens) := by
  rw [arguments]
  have none (p : Position) : WrittenArguments [⟨.symbol .rightParen, p⟩] [] :=
    ⟨[], [], p, by simp, .nil, rfl, rfl⟩
  have some {read : List Token} {values : List Reading} {p : Position}
      (w : WrittenExpressions read values) :
      WrittenArguments (read ++ [⟨.symbol .rightParen, p⟩]) (values.map (·.expr)) := by
    obtain ⟨_, parts, derived, separated, same⟩ := w
    refine ⟨parts, read, p, derived, separated, rfl, ?_⟩
    have exprs := congrArg (List.map Parsed.expr) same
    simpa [Reading.parsed, Function.comp_def] using exprs
  refine Reads.ifNext ?_ ?_
  · rintro p rest rfl
    exact Reads.pure (none p)
  · refine Reads.bind (ih.expressions tokens)
      (fun read values w => ⟨[⟨.symbol .rightParen, Position.start⟩], _, some w⟩)
      fun read values rest _ w => ?_
    exact Reads.symbol ⟨Position.start, [], _, some w⟩ fun p rest => Reads.pure (some w)

end Step

/-- **Readings of expressions.** Whatever the fuel, every function on expressions reads its
phrase. -/
theorem readsAt (fuel : Nat) : ReadsAt fuel := by
  induction fuel with
  | zero =>
    have some (phrase : Phrase) (bound : ∀ level, phrase = .infixes level → level ≤ operandLevel) :
        ∃ more reading, Written phrase more reading :=
      ⟨_, _, written_someName phrase bound⟩
    have operand (phrase : Phrase) (bound : ∀ level, phrase ≠ .infixes level) :
        ∃ more reading, WrittenOperand phrase more reading :=
      ⟨[someName], someReading,
        derives_someName phrase fun level same => (bound level same).elim, rfl⟩
    have values : WrittenExpressions [someName] [someReading] :=
      ⟨by simp, [([someName], someReading.parsed)],
        by simpa using (written_someName .expression (by simp)).1, .one _, rfl⟩
    exact {
      expression := fun _ => Reads.fail (some _ (by simp))
      conditional := fun _ => Reads.fail (some _ (by simp))
      infixes := fun level _ le => Reads.fail (some _ (by simpa using le))
      climb := fun _ _ _ before left _ le _ h =>
        Reads.fail ⟨[], left, by simpa using ⟨h.1.lower le, h.2⟩⟩
      operand := fun _ => Reads.fail (operand _ (by simp))
      withMembers := fun _ => Reads.fail (operand _ (by simp))
      members := fun before left _ h => Reads.fail ⟨[], left, by simpa using h⟩
      primary := fun _ => Reads.fail (operand _ (by simp))
      arguments := fun _ => Reads.fail
        ⟨[⟨.symbol .rightParen, Position.start⟩], [], [], [], _, by simp, .nil, rfl, rfl⟩
      expressions := fun _ => Reads.fail ⟨_, _, values⟩ }
  | succ fuel ih =>
    exact {
      expression := expression_reads ih
      conditional := conditional_reads ih
      infixes := fun _ tokens le => infixes_reads ih le tokens
      climb := fun _ _ _ _ _ tokens le below h => climb_reads ih le below h tokens
      operand := operand_reads ih
      withMembers := withMembers_reads ih
      members := fun _ _ tokens h => members_reads ih h tokens
      primary := primary_reads ih
      arguments := arguments_reads ih
      expressions := expressions_reads ih }

end Formulary.Parser
