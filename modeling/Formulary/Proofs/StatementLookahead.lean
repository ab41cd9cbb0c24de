/-
Readings of statements see only what they read.

A loop over values and a counting loop begin with the same tokens; which of the two it is shows
at the colon behind the name, and all tokens up to there are taken either way.

* `statement_alike` — a statement.
* `statements_fuel` — a body is read the same with any fuel that is enough.
* `statements_alike` — a failure at a token comes whatever stands behind that token.
-/

import Formulary.Proofs.Lookahead

namespace Formulary.Parser

/-! ### Declarations -/

/-- An initial value, if there is one, and the declarators behind it. -/
theorem declaratorTail_alike {fuel fuel' : Nat}
    (others : ∀ tokens tokens', 16 * longer tokens tokens' + 1 ≤ min fuel fuel' →
      Alike 1 tokens tokens' (declarators fuel tokens) (declarators fuel' tokens'))
    (name : String) (p : Position) (tokens tokens' : List Token)
    (enough : 16 * longer tokens tokens' + 1 ≤ min fuel fuel') :
    Alike 0 tokens tokens' (declarators (fuel + 1) (⟨.name name, p⟩ :: tokens))
      (declarators (fuel' + 1) (⟨.name name, p⟩ :: tokens')) := by
  have goesOn (value : Option SourceExpr) (rest rest' : List Token)
      (fits : longer rest rest' ≤ longer tokens tokens') :
      Alike 0 rest rest'
        (if comesNext .comma rest then do
          let read ← declarators fuel (rest.drop 1)
          return (⟨p, name, value⟩ :: read.1, read.2)
        else return ([⟨p, name, value⟩], rest))
        (if comesNext .comma rest' then do
          let read ← declarators fuel' (rest'.drop 1)
          return (⟨p, name, value⟩ :: read.1, read.2)
        else return ([⟨p, name, value⟩], rest')) := by
    apply Alike.shared
    · exact Alike.pure
    · intro token after after' smaller
      refine Alike.ite (fun _ => ?_) fun _ => Alike.pure
      exact Alike.weaken (Alike.take (Alike.bind (others after after' (by omega))
        fun _ _ _ _ => Alike.pure))
  rw [declarators, declarators]
  apply Alike.shared
  · exact goesOn none [] [] (by simp)
  · intro token rest rest' smaller
    refine Alike.ite (fun _ => ?_) fun _ => goesOn none _ _ (by rw [longer_cons]; omega)
    refine Alike.weaken (Alike.take (Alike.bind (m := 0)
      ((readings_alike fuel fuel').expression rest rest' (by omega))
      fun value after after' smaller' => ?_))
    exact goesOn _ _ _ (by omega)

theorem declarators_alike (fuel fuel' : Nat) (tokens tokens' : List Token)
    (enough : 16 * longer tokens tokens' + 1 ≤ min fuel fuel') :
    Alike 1 tokens tokens' (declarators fuel tokens) (declarators fuel' tokens') := by
  induction fuel generalizing fuel' tokens tokens' with
  | zero => omega
  | succ fuel ih =>
    cases fuel' with
    | zero => omega
    | succ fuel' =>
      apply Alike.shared
      · exact Alike.fail
      · intro token rest rest' smaller
        obtain ⟨lexeme, p⟩ := token
        cases lexeme with
        | name name =>
          exact Alike.take (declaratorTail_alike (ih fuel') name p rest rest' (by omega))
        | _ => exact Alike.fail

/-- Declarators of which the first name has been taken. -/
theorem namedDeclarators_alike {fuel fuel' : Nat} (name : String) (p : Position)
    (tokens tokens' : List Token) (enough : 16 * longer tokens tokens' + 2 ≤ min fuel fuel') :
    Alike 0 tokens tokens' (declarators fuel (⟨.name name, p⟩ :: tokens))
      (declarators fuel' (⟨.name name, p⟩ :: tokens')) := by
  cases fuel with
  | zero => omega
  | succ fuel =>
    cases fuel' with
    | zero => omega
    | succ fuel' =>
      exact declaratorTail_alike (declarators_alike fuel fuel') name p tokens tokens' (by omega)

/-! ### Parts of statements -/

/-- The type that a token writes where a declaration may begin. -/
def typeOf? (token : Token) : Option (TypeName Unit) :=
  match token.lexeme with
  | .keyword (.primitive type) => some ⟨token.position, type.name, ()⟩
  | .declaredType name => some ⟨token.position, name, ()⟩
  | _ => none

theorem declaredType_cons (token : Token) (rest : List Token) :
    declaredType? (token :: rest) = (typeOf? token).map fun type => (type, rest) := by
  obtain ⟨lexeme, p⟩ := token
  cases lexeme with
  | keyword word => cases word <;> rfl
  | _ => rfl

section Parts

variable {fuel fuel' : Nat}

theorem parenthesized_alike (tokens tokens' : List Token)
    (enough : 16 * longer tokens tokens' + 6 ≤ min fuel fuel') :
    Alike 1 tokens tokens' (parenthesized fuel tokens) (parenthesized fuel' tokens') :=
  Alike.symbol fun rest rest' _ =>
    closed_alike (readings_alike fuel fuel') (fun value => value.expr) .rightParen rest rest'
      (by omega)

/-- Declared names and a semicolon behind them. -/
theorem declaration_alike {α : Type} (build : List (Declarator Lexeme Unit) → α)
    (tokens tokens' : List Token) (enough : 16 * longer tokens tokens' + 1 ≤ min fuel fuel') :
    Alike 1 tokens tokens'
      (declarators fuel tokens >>= fun x => expectSymbol .semicolon x.2 >>= fun rest =>
        .ok (build x.1, rest))
      (declarators fuel' tokens' >>= fun x => expectSymbol .semicolon x.2 >>= fun rest =>
        .ok (build x.1, rest)) :=
  Alike.bind (declarators_alike fuel fuel' tokens tokens' enough) fun _ _ _ _ =>
    Alike.symbol fun _ _ _ => Alike.pure

/-- A declaration in front of a counting loop, behind its type. -/
def declaredInit (fuel : Nat) (type : TypeName Unit) (tokens : List Token) :
    Except Failure (ForInit Lexeme Unit × List Token) := do
  let (names, rest) ← declarators fuel tokens
  let rest ← expectSymbol .semicolon rest
  return (.declaration type.position type names, rest)

theorem forInit_declared {token : Token} {type : TypeName Unit} (h : typeOf? token = some type)
    (rest : List Token) : forInit fuel (token :: rest) = declaredInit fuel type rest := by
  have noSemicolon : comesNext .semicolon (token :: rest) = false := by
    obtain ⟨lexeme, p⟩ := token
    cases lexeme <;> first | rfl | cases h
  rw [forInit, noSemicolon, declaredType_cons, h]
  rfl

theorem forInit_alike (tokens tokens' : List Token)
    (enough : 16 * longer tokens tokens' + 7 ≤ min fuel fuel') :
    Alike 1 tokens tokens' (forInit fuel tokens) (forInit fuel' tokens') := by
  have values (tokens tokens' : List Token)
      (enough : 16 * longer tokens tokens' + 7 ≤ min fuel fuel') :
      Alike 1 tokens tokens'
        (expressions fuel tokens >>= fun x => expectSymbol .semicolon x.2 >>= fun rest =>
          .ok (ForInit.expressions (τ := Unit) (x.1.map fun value => (value.start, value.expr)),
            rest))
        (expressions fuel' tokens' >>= fun x => expectSymbol .semicolon x.2 >>= fun rest =>
          .ok (ForInit.expressions (x.1.map fun value => (value.start, value.expr)), rest)) :=
    Alike.bind ((readings_alike fuel fuel').expressions tokens tokens' enough)
      fun _ _ _ _ => Alike.symbol fun _ _ _ => Alike.pure
  apply Alike.shared
  · exact values [] [] (by rw [longer_nil]; omega)
  · intro token rest rest' smaller
    refine Alike.ite (fun _ => Alike.take Alike.pure) fun _ => ?_
    rw [declaredType_cons, declaredType_cons]
    cases typeOf? token with
    | some type =>
      exact Alike.take (declaration_alike (ForInit.declaration type.position type) rest rest'
        (by omega))
    | none => exact values _ _ (by rw [longer_cons]; omega)

theorem forCondition_alike (tokens tokens' : List Token)
    (enough : 16 * longer tokens tokens' + 6 ≤ min fuel fuel') :
    Alike 1 tokens tokens' (forCondition fuel tokens) (forCondition fuel' tokens') := by
  have value (tokens tokens' : List Token)
      (enough : 16 * longer tokens tokens' + 6 ≤ min fuel fuel') :=
    closed_alike (readings_alike fuel fuel') (fun value => some value.expr) .semicolon tokens
      tokens' enough
  apply Alike.shared
  · exact value [] [] (by rw [longer_nil]; omega)
  · intro token rest rest' smaller
    refine Alike.ite (fun _ => Alike.take Alike.pure) fun _ => ?_
    exact value _ _ (by rw [longer_cons]; omega)

/-! ### Statements -/

/-- A counting loop behind its initial part. -/
def countingFrom (fuel : Nat) (p : Position)
    (init : Except Failure (ForInit Lexeme Unit × List Token)) :
    Except Failure (SourceStmt × List Token) := do
  let (init, rest) ← init
  let (condition, rest) ← forCondition fuel rest
  let (update, rest) ← arguments fuel rest
  let (body, rest) ← statement fuel rest
  return (.forLoop p init condition update body, rest)

/-- A loop over values behind the values. -/
def overValuesFrom (fuel : Nat) (p : Position)
    (header : Except Failure ((TypeName Unit × String × SourceExpr) × List Token)) :
    Except Failure (SourceStmt × List Token) := do
  let ((type, name, iterable), rest) ← header
  let (body, rest) ← statement fuel rest
  return (.forEach p type name iterable body, rest)

/-- A loop of either sort, behind its opening parenthesis. -/
def loop (fuel : Nat) (p : Position) (tokens : List Token) :
    Except Failure (SourceStmt × List Token) :=
  match forEachHeader? fuel tokens with
  | some header => overValuesFrom fuel p header
  | none => countingFrom fuel p (forInit fuel tokens)

theorem forEachHeader_none {token : Token} {rest : List Token}
    (h : ∀ name q after, rest = ⟨.name name, q⟩ :: after → comesNext .colon after = false) :
    forEachHeader? fuel (token :: rest) = none := by
  rw [forEachHeader?, declaredType_cons]
  cases typeOf? token with
  | none => rfl
  | some type =>
    rcases rest with - | ⟨⟨lexeme, q⟩, after⟩
    · rfl
    · cases lexeme with
      | name name => simp [expectName, h name q after rfl]
      | _ => rfl

theorem loop_alike (p : Position)
    (each : ∀ tokens tokens', 16 * longer tokens tokens' + 9 ≤ min fuel fuel' →
      Alike 1 tokens tokens' (statement fuel tokens) (statement fuel' tokens'))
    (tokens tokens' : List Token) (enough : 16 * longer tokens tokens' + 24 ≤ min fuel fuel') :
    Alike 1 tokens tokens' (loop fuel p tokens) (loop fuel' p tokens') := by
  have counting {m : Nat} (rest rest' : List Token)
      (fits : longer rest rest' ≤ longer tokens tokens')
      {init init' : Except Failure (ForInit Lexeme Unit × List Token)}
      (first : Alike m rest rest' init init') :
      Alike m rest rest' (countingFrom fuel p init) (countingFrom fuel' p init') :=
    Alike.bind first fun _ rest rest' _ =>
      Alike.bind (forCondition_alike rest rest' (by omega)) fun _ rest rest' _ =>
        Alike.bind ((readings_alike fuel fuel').arguments rest rest' (by omega))
          fun _ rest rest' _ => Alike.bind (each rest rest' (by omega)) fun _ _ _ _ => Alike.pure
  apply Alike.shared
  · exact counting [] [] (by simp) (forInit_alike [] [] (by rw [longer_nil]; omega))
  · intro token rest rest' smaller
    cases isType : typeOf? token with
    | none =>
      have isCounting (fuel : Nat) (rest : List Token) :
          loop fuel p (token :: rest) = countingFrom fuel p (forInit fuel (token :: rest)) := by
        simp [loop, forEachHeader?, declaredType_cons, isType]
      rw [isCounting, isCounting]
      exact counting _ _ (by rw [longer_cons]; omega)
        (forInit_alike _ _ (by rw [longer_cons]; omega))
    | some type =>
      have isCounting (fuel : Nat) {rest : List Token} (noColon : ∀ name q after,
          rest = ⟨.name name, q⟩ :: after → comesNext .colon after = false) :
          loop fuel p (token :: rest) = countingFrom fuel p (declaredInit fuel type rest) := by
        rw [loop, forEachHeader_none noColon, forInit_declared isType]
      have declaration (rest rest' : List Token)
          (fits : longer rest rest' + 1 ≤ longer tokens tokens') :
          Alike 1 rest rest' (declaredInit fuel type rest) (declaredInit fuel' type rest') :=
        declaration_alike (ForInit.declaration type.position type) rest rest' (by omega)
      -- Whatever follows, it is the first name of a declaration or of a loop over values.
      refine Alike.take (m := 0) ?_
      apply Alike.shared
      · rw [isCounting fuel (by simp), isCounting fuel' (by simp)]
        exact Alike.weaken
          (counting [] [] (by simp) (declaration [] [] (by rw [longer_nil]; omega)))
      · intro second rest rest' smaller'
        obtain ⟨lexeme, q⟩ := second
        by_cases isName : ∃ name, lexeme = .name name
        · obtain ⟨name, rfl⟩ := isName
          refine Alike.weaken (Alike.take (m := 0) ?_)
          have named (rest rest' : List Token)
              (fits : longer rest rest' + 2 ≤ longer tokens tokens') :
              Alike 0 rest rest' (declaredInit fuel type (⟨.name name, q⟩ :: rest))
                (declaredInit fuel' type (⟨.name name, q⟩ :: rest')) :=
            Alike.bind (namedDeclarators_alike name q rest rest' (by omega))
              fun _ _ _ _ => Alike.symbol fun _ _ _ => Alike.pure
          have noColon {rest : List Token} (h : comesNext .colon rest = false) (other : String)
              (r : Position) (after : List Token)
              (same : (⟨.name name, q⟩ : Token) :: rest = ⟨.name other, r⟩ :: after) :
              comesNext .colon after = false := by
            cases same
            exact h
          apply Alike.shared
          · rw [isCounting fuel (noColon rfl), isCounting fuel' (noColon rfl)]
            exact counting [] [] (by simp) (named [] [] (by rw [longer_nil]; omega))
          · intro third rest rest' smaller''
            by_cases isColon : third.lexeme == .symbol .colon
            · have overValues (fuel : Nat) (rest : List Token) :
                  loop fuel p (token :: ⟨.name name, q⟩ :: third :: rest) =
                    overValuesFrom fuel p (expression fuel rest >>= fun x =>
                      expectSymbol .rightParen x.2 >>= fun rest =>
                        .ok ((type, name, x.1.expr), rest)) := by
                simp [loop, forEachHeader?, declaredType_cons, isType, expectName, comesNext,
                  isColon]
                rfl
              rw [overValues, overValues]
              refine Alike.weaken (Alike.take (Alike.bind (m := 1) (closed_alike
                (readings_alike fuel fuel') (fun value => (type, name, value.expr)) .rightParen rest
                rest' (by omega)) fun _ rest rest' _ => ?_))
              exact Alike.bind (each rest rest' (by omega)) fun _ _ _ _ => Alike.pure
            · have absent (rest : List Token) : comesNext .colon (third :: rest) = false := by
                simpa [comesNext] using isColon
              rw [isCounting fuel (noColon (absent rest)),
                isCounting fuel' (noColon (absent rest'))]
              exact counting _ _ (by rw [longer_cons]; omega)
                (named _ _ (by rw [longer_cons]; omega))
        · have noName {rest : List Token} (name : String) (r : Position) (after : List Token)
              (same : (⟨lexeme, q⟩ : Token) :: rest = ⟨.name name, r⟩ :: after) :
              comesNext .colon after = false := by
            cases same
            exact (isName ⟨name, rfl⟩).elim
          rw [isCounting fuel noName, isCounting fuel' noName]
          exact Alike.weaken (counting _ _ (by rw [longer_cons]; omega)
            (declaration _ _ (by rw [longer_cons]; omega)))

theorem statement_alike_step
    (each : ∀ tokens tokens', 16 * longer tokens tokens' + 9 ≤ min fuel fuel' →
      Alike 1 tokens tokens' (statement fuel tokens) (statement fuel' tokens'))
    (block : ∀ tokens tokens', 16 * longer tokens tokens' + 10 ≤ min fuel fuel' →
      Alike 1 tokens tokens' (statementsToBrace fuel tokens) (statementsToBrace fuel' tokens'))
    (tokens tokens' : List Token)
    (enough : 16 * longer tokens tokens' + 9 ≤ min (fuel + 1) (fuel' + 1)) :
    Alike 1 tokens tokens' (statement (fuel + 1) tokens) (statement (fuel' + 1) tokens') := by
  apply Alike.shared
  · exact Alike.fail
  · intro token rest rest' smaller
    obtain ⟨lexeme, p⟩ := token
    have condition : Alike 1 rest rest' (parenthesized fuel rest) (parenthesized fuel' rest') :=
      parenthesized_alike rest rest' (by omega)
    unfold statement
    dsimp only
    split
    · exact Alike.take (Alike.bind (block rest rest' (by omega)) fun _ _ _ _ => Alike.pure)
    · exact Alike.take Alike.pure
    · refine Alike.take (Alike.bind (m := 1) condition fun _ rest rest' _ => ?_)
      refine Alike.bind (m := 0) (each rest rest' (by omega)) fun _ rest rest' _ => ?_
      dsimp only
      apply Alike.shared
      · exact Alike.pure
      · intro token rest rest' smaller
        obtain ⟨lexeme, q⟩ := token
        split
        · next same =>
          cases same
          exact Alike.weaken (Alike.take (Alike.bind (each rest rest' (by omega))
            fun _ _ _ _ => Alike.pure))
        · next noElse =>
          split
          · next same =>
            cases same
            exact (noElse _ _ rfl).elim
          · exact Alike.pure
    · exact Alike.take (Alike.bind condition fun _ rest rest' _ =>
        Alike.bind (each rest rest' (by omega)) fun _ _ _ _ => Alike.pure)
    · refine Alike.take (Alike.bind (m := 1) (each rest rest' (by omega)) fun _ rest rest' _ => ?_)
      refine Alike.keyword (m := 1) fun rest rest' _ => ?_
      exact Alike.bind (parenthesized_alike rest rest' (by omega)) fun _ rest rest' _ =>
        Alike.symbol fun _ _ _ => Alike.pure
    · exact Alike.take (Alike.symbol fun rest rest' _ => loop_alike p each rest rest' (by omega))
    · refine Alike.take (m := 0) ?_
      have value (rest rest' : List Token) (enough : 16 * longer rest rest' + 6 ≤ min fuel fuel') :=
        closed_alike (readings_alike fuel fuel') (fun value => Stmt.returns p (some value.expr))
          .semicolon rest rest' enough
      apply Alike.shared
      · exact Alike.weaken (value [] [] (by rw [longer_nil]; omega))
      · intro token rest rest' smaller
        refine Alike.ite (fun _ => Alike.weaken (Alike.take Alike.pure)) fun _ => ?_
        exact Alike.weaken (value _ _ (by rw [longer_cons]; omega))
    · exact Alike.take (Alike.symbol fun _ _ _ => Alike.pure)
    · exact Alike.take (Alike.symbol fun _ _ _ => Alike.pure)
    · rw [declaredType_cons, declaredType_cons]
      cases typeOf? ⟨lexeme, p⟩ with
      | some type => exact Alike.take (declaration_alike _ rest rest' (by omega))
      | none =>
        exact closed_alike (readings_alike fuel fuel') (fun value => Stmt.expression p value.expr)
          .semicolon _ _ (by rw [longer_cons]; omega)

theorem statementsToBrace_alike_step
    (each : ∀ tokens tokens', 16 * longer tokens tokens' + 9 ≤ min fuel fuel' →
      Alike 1 tokens tokens' (statement fuel tokens) (statement fuel' tokens'))
    (block : ∀ tokens tokens', 16 * longer tokens tokens' + 10 ≤ min fuel fuel' →
      Alike 1 tokens tokens' (statementsToBrace fuel tokens) (statementsToBrace fuel' tokens'))
    (tokens tokens' : List Token)
    (enough : 16 * longer tokens tokens' + 10 ≤ min (fuel + 1) (fuel' + 1)) :
    Alike 1 tokens tokens' (statementsToBrace (fuel + 1) tokens)
      (statementsToBrace (fuel' + 1) tokens') := by
  rw [statementsToBrace, statementsToBrace]
  have more (tokens tokens' : List Token)
      (enough : 16 * longer tokens tokens' + 9 ≤ min fuel fuel') :
      Alike 1 tokens tokens'
        (do
          let first ← statement fuel tokens
          let others ← statementsToBrace fuel first.2
          return (first.1 :: others.1, others.2))
        (do
          let first ← statement fuel' tokens'
          let others ← statementsToBrace fuel' first.2
          return (first.1 :: others.1, others.2)) :=
    Alike.bind (each tokens tokens' enough) fun _ rest rest' _ =>
      Alike.bind (block rest rest' (by omega)) fun _ _ _ _ => Alike.pure
  apply Alike.shared
  · exact more [] [] (by rw [longer_nil]; omega)
  · intro token rest rest' smaller
    refine Alike.ite (fun _ => Alike.take Alike.pure) fun _ => ?_
    exact more _ _ (by rw [longer_cons]; omega)

end Parts

/-- Statements and blocks see only what they read, with fuel for sixteen calls on each token. -/
theorem statements_alikeAt (fuel fuel' : Nat) :
    (∀ tokens tokens', 16 * longer tokens tokens' + 9 ≤ min fuel fuel' →
      Alike 1 tokens tokens' (statement fuel tokens) (statement fuel' tokens')) ∧
    ∀ tokens tokens', 16 * longer tokens tokens' + 10 ≤ min fuel fuel' →
      Alike 1 tokens tokens' (statementsToBrace fuel tokens) (statementsToBrace fuel' tokens') := by
  induction fuel generalizing fuel' with
  | zero => constructor <;> intros <;> omega
  | succ fuel ih =>
    cases fuel' with
    | zero => constructor <;> intros <;> omega
    | succ fuel' =>
      obtain ⟨each, block⟩ := ih fuel'
      exact ⟨statement_alike_step each block, statementsToBrace_alike_step each block⟩

/-! ### Bodies -/

theorem statements_cons (fuel : Nat) (token : Token) (rest : List Token) :
    statements (fuel + 1) (token :: rest) =
      statement fuel (token :: rest) >>= fun x =>
        statements fuel x.2 >>= fun others => .ok (x.1 :: others) :=
  rfl

/-- A reading of a whole list, of which nothing is left. -/
def whole {α : Type} (result : Except Failure α) : Except Failure (α × List Token) :=
  result.map fun a => (a, [])

theorem whole_statements_alike (fuel fuel' : Nat) (tokens tokens' : List Token)
    (enough : 16 * longer tokens tokens' + 10 ≤ min fuel fuel') :
    Alike 0 tokens tokens' (whole (statements fuel tokens)) (whole (statements fuel' tokens')) := by
  induction fuel generalizing fuel' tokens tokens' with
  | zero => omega
  | succ fuel ih =>
    cases fuel' with
    | zero => omega
    | succ fuel' =>
      apply Alike.shared
      · exact Alike.pure
      · intro token rest rest' smaller
        have unfolds (fuel : Nat) (rest : List Token) :
            whole (statements (fuel + 1) (token :: rest)) =
              statement fuel (token :: rest) >>= fun x =>
                whole (statements fuel x.2) >>= fun y => .ok (x.1 :: y.1, y.2) := by
          rw [statements_cons, whole]
          cases statement fuel (token :: rest) with
          | error left => rfl
          | ok first =>
            change Except.map _ (statements fuel first.2 >>= fun others =>
              .ok (first.1 :: others)) = whole (statements fuel first.2) >>= _
            cases statements fuel first.2 <;> rfl
        rw [unfolds, unfolds]
        refine Alike.weaken (Alike.bind (m := 0) ((statements_alikeAt fuel fuel').1 _ _
          (by rw [longer_cons]; omega)) fun first after after' smaller' => ?_)
        rw [longer_cons] at smaller'
        exact Alike.bind (ih fuel' after after' (by omega)) fun _ _ _ _ => Alike.pure

/-- **Fuel.** A body is read the same with any fuel that is enough. -/
theorem statements_fuel {fuel fuel' : Nat} {tokens : List Token}
    (enough : fuelFor tokens ≤ fuel) (enough' : fuelFor tokens ≤ fuel') :
    statements fuel tokens = statements fuel' tokens := by
  unfold fuelFor at enough enough'
  have alike := whole_statements_alike fuel fuel' tokens tokens (by rw [longer_self]; omega)
  have same := alike.same tokens [] [] (leftover (whole (statements fuel tokens)))
    (by simp) (by simp) (.inr ⟨rfl, rfl⟩) (by simp)
  cases left : statements fuel tokens with
  | error rest =>
    cases right : statements fuel' tokens with
    | error rest' => simpa [left, right, whole, withLeftover, leftover, Except.map] using same.symm
    | ok body => simp [left, right, whole, withLeftover, Except.map] at same
  | ok body =>
    cases right : statements fuel' tokens with
    | error rest' => simp [left, right, whole, withLeftover, Except.map] at same
    | ok body' =>
      simpa [left, right, whole, withLeftover, leftover, Except.map] using same.symm

/-- **Lookahead.** A reading that fails at a token fails there whatever stands behind that
token. -/
theorem statements_alike {fuel : Nat} {front back back' : List Token} {token : Token}
    (enough : fuelFor (front ++ token :: back) ≤ fuel)
    (enough' : fuelFor (front ++ token :: back') ≤ fuel)
    (fails : statements fuel (front ++ token :: back) = .error (token :: back)) :
    statements fuel (front ++ token :: back') = .error (token :: back') := by
  unfold fuelFor at enough enough'
  have alike := whole_statements_alike fuel fuel (front ++ token :: back) (front ++ token :: back')
    (by simp only [longer]; omega)
  have same := alike.same (front ++ [token]) back back' [token] (by simp) (by simp)
    (.inl (by simp)) (by simp [fails, whole, leftover, Except.map])
  cases result : statements fuel (front ++ token :: back') with
  | error rest =>
    simpa [fails, result, whole, withLeftover, Except.map] using same
  | ok body => simp [fails, result, whole, withLeftover, Except.map] at same

end Formulary.Parser
