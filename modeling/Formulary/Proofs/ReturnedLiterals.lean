/-
Bodies that return a literal.

A body that returns a literal, with a minus in front of it or without one, gives the same value in
every run: the literal is one token, its check asks for no name, and its value neither reads the
arguments nor changes the store. What a run gives is that value, taken over into the return type.

* `readBody_literal`, `readBody_negative` — what is read where the literal is one lexeme.
* `Evaluates` — a source that gives one value under all names, arguments and stores.
* `evaluates_constant` — a body that returns a constant evaluates to its value.
-/

import Formulary.Proofs.BoxedVariables
import Formulary.Proofs.ExpressionBodies

namespace Formulary

open Grammar (Derives IsLiteral)
open Machine (outcome)

/-! ### Reading -/

namespace Source

open Lexer (behind scan tokensFrom)

variable {spelling : List Char} {lexeme : Lexeme} {value : Value}

/-- The body that returns what a text writes. -/
def returnOf (text : List Char) : List Char :=
  "return ".toList ++ text ++ ";".toList

theorem returnOf_eq (text : List Char) :
    returnOf text = "return ".toList ++ (text ++ ";".toList) :=
  List.append_assoc ..

/-- Where the text begins that a body returns. -/
def returnedStart : Position := ⟨1, 8⟩

/-- The tokens of a body that returns a literal. -/
def returnedTokens (spelling : List Char) (lexeme : Lexeme) : List Token :=
  [⟨.keyword .returnWord, Position.start⟩, ⟨lexeme, returnedStart⟩,
    ⟨.symbol .semicolon, behind returnedStart spelling⟩]

theorem derives_literal (isLiteral : IsLiteral lexeme) (p : Position) :
    Derives .unary [⟨lexeme, p⟩] ⟨.literal p lexeme, p⟩ :=
  .unadorned (.unsuffixed (.literal isLiteral))

theorem derives_operand {tokens : List Token} {v : Grammar.Parsed}
    (derived : Derives .unary tokens v) : Derives .expression tokens v :=
  .unassigned (.unconditional ((Derives.operand derived).lower (by decide)))

theorem fold_literal (isLiteral : IsLiteral lexeme) (p : Position) :
    Fold.fold [⟨lexeme, p⟩] = [⟨lexeme, p⟩] := by
  cases isLiteral <;> rfl

theorem fold_negative (isLiteral : IsLiteral lexeme) (p q : Position) :
    Fold.fold [⟨.symbol (.binary .sub), p⟩, ⟨lexeme, q⟩] =
      [⟨.symbol (.binary .sub), p⟩, ⟨lexeme, q⟩] := by
  cases isLiteral <;> rfl

/-- A lexeme in front of the semicolon of a body is a token of its own. -/
theorem tokensFrom_semicolon (some : spelling ≠ [])
    (found : scan (spelling ++ ";".toList) = .some (.some lexeme, spelling.length))
    (p : Position) : tokensFrom 0 p (spelling ++ ";".toList) =
      .ok [⟨lexeme, p⟩, ⟨.symbol .semicolon, behind p spelling⟩] := by
  rw [Lexer.tokensFrom_lexeme some found]
  rfl

theorem tokens_literal (some : spelling ≠ [])
    (found : scan (spelling ++ ";".toList) = .some (.some lexeme, spelling.length)) :
    Lexer.tokens (returnOf spelling) = .ok (returnedTokens spelling lexeme) := by
  rw [returnOf_eq, tokens_return, tokensFrom_semicolon some found]
  rfl

/-- **A body that returns a literal** is read as it. -/
theorem readBody_literal (some : spelling ≠ []) (isLiteral : IsLiteral lexeme)
    (found : scan (spelling ++ ";".toList) = .some (.some lexeme, spelling.length))
    (isValue : Literal.value lexeme = .ok value) :
    readBody (returnOf spelling) =
      .ok [.returns Position.start (.some (.literal returnedStart value))] := by
  have derived : Derives .expression (Fold.fold [⟨lexeme, returnedStart⟩])
      ⟨.literal returnedStart lexeme, returnedStart⟩ := by
    rw [fold_literal isLiteral]
    exact derives_operand (derives_literal isLiteral returnedStart)
  exact readBody_returns [⟨lexeme, returnedStart⟩] (tokens_literal some found) derived
    (Nat.succ_lt_succ (Nat.succ_pos _)) (Check.bind_ok.mpr ⟨value, isValue, rfl⟩)

/-- A minus in front of a digit is a symbol of its own. -/
theorem scan_minus {c : Char} (low : 48 ≤ c.toNat) (high : c.toNat ≤ 57) (rest : List Char) :
    scan ('-' :: c :: rest) = .some (.some (.symbol (.binary .sub)), 1) := by
  -- The symbols that begin with a minus are told apart by the digit itself.
  obtain ⟨digit, small, rfl⟩ : ∃ digit < 10, c = Char.ofNat (48 + digit) :=
    ⟨c.toNat - 48, by omega, by rw [Nat.add_sub_cancel' low, Char.ofNat_toNat]⟩
  interval_cases digit <;> rfl

/-- **A body that returns a literal with a minus in front of it** is read as the negated one. -/
theorem readBody_negative {c : Char} {rest : List Char} (low : 48 ≤ c.toNat)
    (high : c.toNat ≤ 57) (isLiteral : IsLiteral lexeme)
    (found : scan (c :: rest ++ ";".toList) = .some (.some lexeme, (c :: rest).length))
    (isValue : Literal.value lexeme = .ok value) :
    readBody (returnOf ('-' :: c :: rest)) =
      .ok [.returns Position.start (.some (.unary returnedStart .minus
        (.literal (returnedStart.advance '-') value)))] := by
  let operandStart := returnedStart.advance '-'
  let own : List Token := [⟨.symbol (.binary .sub), returnedStart⟩, ⟨lexeme, operandStart⟩]
  have scanned : Lexer.tokens (returnOf ('-' :: c :: rest)) =
      .ok (⟨.keyword .returnWord, Position.start⟩ ::
        (own ++ [⟨.symbol .semicolon, behind operandStart (c :: rest)⟩])) := by
    have minus : tokensFrom 0 returnedStart ('-' :: (c :: rest ++ ";".toList)) =
        (tokensFrom 0 operandStart (c :: rest ++ ";".toList)).map
          (⟨.symbol (.binary .sub), returnedStart⟩ :: ·) :=
      Lexer.tokensFrom_lexeme (List.cons_ne_nil '-' []) (scan_minus low high _) returnedStart
    rw [returnOf_eq, tokens_return, List.cons_append]
    refine (congrArg _ minus).trans ?_
    rw [tokensFrom_semicolon (List.cons_ne_nil _ _) found operandStart]
    rfl
  have derived : Derives .expression (Fold.fold own)
      ⟨.unary returnedStart .minus (.literal operandStart lexeme), returnedStart⟩ := by
    rw [fold_negative isLiteral]
    exact derives_operand (.unary (by decide) (derives_literal isLiteral operandStart))
  refine readBody_returns own scanned derived
    (Nat.succ_lt_succ (Nat.succ_lt_succ (Nat.succ_pos _))) ?_
  exact Check.bind_ok.mpr ⟨.literal operandStart value,
    Check.bind_ok.mpr ⟨value, isValue, rfl⟩, rfl⟩

end Source

/-! ### Running -/

/-- An expression that is checked alike everywhere, and gives the same value in every state
without changing it. -/
def Eval.IsConstant (parsed : Expr Value Unit) (value : Value) : Prop :=
  ∃ checked : CheckedExpr,
    (∀ (context : Check.Context Unit) (scope : Scope),
      Check.expression context scope parsed = .ok checked) ∧
    ∀ state, outcome (expression checked) state = (.ok value, state)

namespace Eval

theorem constant_literal (p : Position) (value : Value) : IsConstant (.literal p value) value :=
  ⟨.literal p value, fun _ _ => rfl, fun _ => rfl⟩

theorem constant_negative {value negated : Value} (settled : negated.IsSettled)
    (isNegated : Arithmetic.unary .minus value = .ok negated) (p q : Position) :
    IsConstant (.unary p .minus (.literal q value)) negated := by
  refine ⟨.unary p .minus (.literal q value), fun _ _ => rfl, fun state => ?_⟩
  have result : (Operation.unary .minus value).outcome state.store =
      (.ok negated, state.store) := by
    rw [Operation.unary, isNegated]
    exact Action.settle_settled settled state.store
  have operand : outcome (expression (.literal q value)) state = (.ok value, state) := rfl
  rw [expression, Machine.outcome_bind_ok operand, Machine.outcome_act, result]

end Eval

/-- The source of a body that gives one value, whatever the names around it stand for and whatever
it is run on: the value is taken over into the type of the result, and `Object` takes every value
over as it is. -/
def Evaluates (source : List Char) (value : Value) : Prop :=
  ∀ (names : Namespace) (argsName returnType : String) (kind : Kind),
    Check.reservedWords.contains argsName = false →
    Resolver.resolveAny Store.initial names returnType = .ok (some kind) →
    ∃ program, Program.compile names argsName returnType source = .ok program ∧
      ∀ fuel args store,
        program.run fuel args store = Eval.takenOver kind (.ok value, store) ∧
        (kind = .core .object → IsIntact store →
          program.run fuel args store = (.ok value, store))

/-- **A body whose returned expression is constant** evaluates to its value. -/
theorem evaluates_constant {source : List Char} {p : Position} {parsed : Expr Value Unit}
    {value : Value} (read : readBody source = .ok [.returns p (some parsed)])
    (constant : Eval.IsConstant parsed value) (settled : value.IsSettled) :
    Evaluates source value := by
  intro names argsName returnType kind unreserved resolved
  obtain ⟨checked, isChecked, gives⟩ := constant
  let program : Program := ⟨[.returns p (some checked)], argsName, kind⟩
  have defined (position : Position) : Check.define [] argsName (.core .object) position =
      .ok [(argsName, .core .object)] := by
    rw [Check.define, if_neg (by simp [Check.inScope]), unreserved]
    rfl
  have compiled : Program.compile names argsName returnType source = .ok program := by
    rw [Program.compile, read]
    simp only [Program.ofBody, resolved, Check.body, defined, Check.statements, Check.statement,
      isChecked, bind, Except.bind]
    rfl
  have run (fuel : Nat) (args : Value) (store : Store) :
      program.run fuel args store = Eval.takenOver kind (.ok value, store) := by
    have returned : outcome (Eval.statements fuel program.body) ⟨program.start args, store⟩ =
        (.ok (.returned value), ⟨program.start args, store⟩) := by
      rw [show program.body = [.returns p (some checked)] from rfl, Eval.statements_returns, gives]
    exact Program.run_returned returned rfl
  refine ⟨program, compiled, fun fuel args store => ⟨run fuel args store, ?_⟩⟩
  rintro rfl intact
  have converted : (Dispatch.convertResult (.core .object) value).outcome store =
      (.ok value, store) := by
    rw [Dispatch.convertResult_other id, intact .cast, Dispatch.cast_own _ (intact .isInstance),
      Kind.cast_object]
    exact Action.settle_settled settled store
  rw [run, Eval.takenOver, converted]
  rfl

end Formulary
