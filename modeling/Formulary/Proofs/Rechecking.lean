/-
Checking what has been checked.

A checked body can be checked again: its types are known by then, its dotted names that begin with
a type or a host object start with a `typeName`, and those that begin with a variable are left as
they were. So the second check accepts the body and does not change it.

* `Context.again` — what a check of a checked body looks names up with.
* `freeChain?_settled` — no dotted name is left that would be looked up.
* `expression_again`, `statement_again`, `body_again` — each part that has been checked is checked
  to itself, by induction on the trees.
* `chains_settled` — dotted names, where they stand, and what the second check makes of them.
-/

import Formulary.Proofs.DottedChains
import Formulary.Proofs.Reachability

namespace Formulary.Check

variable {τ : Type} {context : Context τ} {scope : Scope}

/-- What a check of a checked body looks names up with: all of its types are known. -/
def Context.again (context : Context τ) : Context Kind where
  resolve := context.resolve
  known := some

theorem typeName_again (context : Context τ) (type : TypeName Kind) :
    typeName context.again type = .ok type := rfl

/-! ### Dotted names that are left -/

theorem chain?_field {expr : Expr Value τ} (noChain : chain? expr = none) (position : Position)
    (member : String) : chain? (.field position expr member) = none := by
  rw [chain?, noChain]
  rfl

theorem chain?_fields {expr : CheckedExpr} (noChain : chain? expr = none)
    (parts : List (String × Position)) : chain? (fields expr parts) = none := by
  unfold fields
  induction parts generalizing expr with
  | nil => exact noChain
  | cons part rest ih => exact ih (chain?_field noChain _ _)

theorem staticChain_form {parts : List (String × Position)} {checked : CheckedExpr}
    (h : staticChain context parts = .ok checked) :
    ∃ position type rest, checked = fields (.typeName position type) rest := by
  unfold staticChain at h
  split at h
  · simp at h
  · split at h
    · cases h
      exact ⟨_, _, _, rfl⟩
    · simp at h

/-- Members of a type or of a host object are checked to themselves. -/
theorem expression_fields {expr : CheckedExpr} (noChain : chain? expr = none)
    (settled : expression context.again scope expr = .ok expr)
    (parts : List (String × Position)) :
    expression context.again scope (fields expr parts) = .ok (fields expr parts) := by
  unfold fields
  induction parts generalizing expr with
  | nil => exact settled
  | cons part rest ih =>
    refine ih (chain?_field noChain _ _) ?_
    rw [expression, freeChain?_none (chain?_field noChain _ _), settled]
    rfl

theorem staticChain_again {parts : List (String × Position)} {checked : CheckedExpr}
    (h : staticChain context parts = .ok checked) :
    expression context.again scope checked = .ok checked := by
  obtain ⟨position, type, rest, rfl⟩ := staticChain_form h
  refine expression_fields rfl ?_ rest
  rw [expression, typeName_again]
  rfl

/-- **What is checked to itself is no dotted name that would be looked up**: that would have become
one of a type. -/
theorem freeChain?_settled {checked : CheckedExpr}
    (settled : expression context.again scope checked = .ok checked) :
    freeChain? scope checked = none := by
  cases free : freeChain? scope checked with
  | none => rfl
  | some parts =>
    have isChain : chain? checked = some parts := (Option.filter_eq_some_iff.mp free).1
    have lookedUp : expression context.again scope checked =
        staticChain context.again parts := by
      cases checked with
      | name => rw [expression, free]
      | field => rw [expression, free]
      | _ => cases isChain
    obtain ⟨position, type, rest, rfl⟩ := staticChain_form (lookedUp.symm.trans settled)
    rw [chain?_fields rfl rest] at isChain
    cases isChain

/-- A member of what is no free dotted name is none either. -/
theorem freeChain?_field {expr : Expr Value τ} (bound : freeChain? scope expr = none)
    (position : Position) (member : String) :
    freeChain? scope (.field position expr member) = none := by
  cases isChain : chain? expr with
  | none => exact freeChain?_none (chain?_field isChain _ _)
  | some parts =>
    obtain _ | ⟨⟨first, place⟩, rest⟩ := parts
    · exact absurd rfl (chain?_nonempty isChain)
    rw [freeChain?_eq isChain] at bound
    have longer : chain? (.field position expr member) =
        some ((first, place) :: (rest ++ [(member, position)])) := by
      rw [chain?, isChain]
      rfl
    rw [freeChain?_eq longer]
    split at bound
    · next isBound => rw [if_pos isBound]
    · cases bound

/-! ### Expressions -/

mutual

/-- **A checked expression is checked to itself.** -/
theorem expression_again :
    ∀ {expr : Expr Value τ} {checked : CheckedExpr},
      expression context scope expr = .ok checked →
      expression context.again scope checked = .ok checked
  | .literal .., _, h => by
    rw [expression] at h
    cases h
    rw [expression]
  | .name position ident, _, h => by
    rw [expression] at h
    split at h
    · exact staticChain_again h
    · next bound =>
      cases h
      rw [freeChain?_eq rfl] at bound
      split at bound
      · next isBound =>
        have isChain : chain? (.name position ident : CheckedExpr) = some [(ident, position)] :=
          rfl
        exact expression_bound isBound isChain
      · cases bound
  | .typeName .., _, h => by
    rw [expression] at h
    obtain ⟨_, -, h⟩ := bind_ok.mp h
    cases h
    rw [expression, typeName_again]
    rfl
  | .field .., _, h => by
    rw [expression] at h
    split at h
    · exact staticChain_again h
    · obtain ⟨_, receiverOk, h⟩ := bind_ok.mp h
      cases h
      have settled := expression_again receiverOk
      rw [expression, freeChain?_field (freeChain?_settled settled), settled]
      rfl
  | .methodCall .., _, h => by
    rw [expression] at h
    obtain ⟨_, receiverOk, h⟩ := bind_ok.mp h
    obtain ⟨_, argsOk, h⟩ := bind_ok.mp h
    cases h
    rw [expression, expression_again receiverOk, expressions_again argsOk]
    rfl
  | .call .., _, h => by
    rw [expression] at h
    split at h
    · simp at h
    · next free =>
      split at h
      · simp at h
      · next kind found =>
        obtain ⟨_, argsOk, h⟩ := bind_ok.mp h
        cases h
        have foundAgain : reference? context.again _ = some kind := found
        rw [expression, if_neg free, foundAgain, expressions_again argsOk]
        rfl
  | .index .., _, h => by
    rw [expression] at h
    obtain ⟨_, containerOk, h⟩ := bind_ok.mp h
    obtain ⟨_, placeOk, h⟩ := bind_ok.mp h
    cases h
    rw [expression, expression_again containerOk, expression_again placeOk]
    rfl
  | .unary .., _, h => by
    rw [expression] at h
    obtain ⟨_, operandOk, h⟩ := bind_ok.mp h
    cases h
    rw [expression, expression_again operandOk]
    rfl
  | .step .., _, h => by
    rw [expression] at h
    obtain ⟨_, targetOk, h⟩ := bind_ok.mp h
    split at h
    · next isVar =>
      cases h
      rw [expression, expression_again targetOk]
      exact if_pos isVar
    · simp at h
  | .binary .., _, h => by
    rw [expression] at h
    obtain ⟨_, leftOk, h⟩ := bind_ok.mp h
    obtain ⟨_, rightOk, h⟩ := bind_ok.mp h
    cases h
    rw [expression, expression_again leftOk, expression_again rightOk]
    rfl
  | .logical .., _, h => by
    rw [expression] at h
    obtain ⟨_, leftOk, h⟩ := bind_ok.mp h
    obtain ⟨_, rightOk, h⟩ := bind_ok.mp h
    cases h
    rw [expression, expression_again leftOk, expression_again rightOk]
    rfl
  | .conditional .., _, h => by
    rw [expression] at h
    obtain ⟨_, testOk, h⟩ := bind_ok.mp h
    obtain ⟨_, thenOk, h⟩ := bind_ok.mp h
    obtain ⟨_, elseOk, h⟩ := bind_ok.mp h
    cases h
    rw [expression, expression_again testOk, expression_again thenOk, expression_again elseOk]
    rfl
  | .assign .., _, h => by
    rw [expression] at h
    obtain ⟨_, targetOk, h⟩ := bind_ok.mp h
    split at h
    · next isVar =>
      obtain ⟨_, valueOk, h⟩ := bind_ok.mp h
      cases h
      rw [expression, expression_again targetOk, expression_again valueOk]
      exact if_pos isVar
    · simp at h
  | .cast .., _, h => by
    rw [expression] at h
    obtain ⟨_, -, h⟩ := bind_ok.mp h
    obtain ⟨_, operandOk, h⟩ := bind_ok.mp h
    cases h
    rw [expression, typeName_again, expression_again operandOk]
    rfl
  | .instanceOf .., _, h => by
    rw [expression] at h
    obtain ⟨_, valueOk, h⟩ := bind_ok.mp h
    obtain ⟨_, -, h⟩ := bind_ok.mp h
    split at h
    · simp at h
    · next reference =>
      cases h
      rw [expression, expression_again valueOk, typeName_again]
      exact if_neg reference
  | .new .., _, h => by
    rw [expression] at h
    obtain ⟨_, -, h⟩ := bind_ok.mp h
    split at h
    · simp at h
    · next reference =>
      obtain ⟨_, argsOk, h⟩ := bind_ok.mp h
      cases h
      rw [expression, typeName_again, expressions_again argsOk]
      exact if_neg reference

theorem expressions_again :
    ∀ {exprs : List (Expr Value τ)} {checked : List CheckedExpr},
      expressions context scope exprs = .ok checked →
      expressions context.again scope checked = .ok checked
  | [], _, h => by
    rw [expressions] at h
    cases h
    rw [expressions]
  | _ :: _, _, h => by
    rw [expressions] at h
    obtain ⟨_, firstOk, h⟩ := bind_ok.mp h
    obtain ⟨_, restOk, h⟩ := bind_ok.mp h
    cases h
    rw [expressions, expression_again firstOk, expressions_again restOk]
    rfl

end

theorem expression?_again {expr : Option (Expr Value τ)} {checked : Option CheckedExpr}
    (h : expression? context scope expr = .ok checked) :
    expression? context.again scope checked = .ok checked := by
  cases expr with
  | none =>
    rw [expression?] at h
    cases h
    rw [expression?]
  | some expr =>
    rw [expression?] at h
    obtain ⟨_, ok, h⟩ := bind_ok.mp h
    cases h
    rw [expression?, expression_again ok]
    rfl

/-! ### Statements -/

theorem declarators_again {kind : Kind} :
    ∀ {names : List (Declarator Value τ)} {scope after : Scope}
      {checked : List (Declarator Value Kind)},
      declarators context kind scope names = .ok (checked, after) →
      declarators context.again kind scope checked = .ok (checked, after)
  | [], _, _, _, h => by
    rw [declarators] at h
    cases h
    rw [declarators]
  | _ :: _, _, _, _, h => by
    rw [declarators] at h
    obtain ⟨_, valueOk, h⟩ := bind_ok.mp h
    obtain ⟨_, defined, h⟩ := bind_ok.mp h
    obtain ⟨⟨_, _⟩, restOk, h⟩ := bind_ok.mp h
    cases h
    rw [declarators, expression?_again valueOk]
    refine bind_ok.mpr ⟨_, rfl, bind_ok.mpr ⟨_, defined, ?_⟩⟩
    rw [declarators_again restOk]
    rfl

theorem initial_again {values : List (Position × Expr Value τ)}
    {checked : List (Position × CheckedExpr)}
    (h : values.mapM (fun value => do
      return (value.1, ← expression context scope value.2)) = .ok checked) :
    checked.mapM (fun value => do
      return (value.1, ← expression context.again scope value.2)) = .ok checked := by
  induction values generalizing checked with
  | nil =>
    rw [List.mapM_nil] at h
    cases h
    rw [List.mapM_nil]
    rfl
  | cons value rest ih =>
    rw [List.mapM_cons] at h
    obtain ⟨_, firstOk, h⟩ := bind_ok.mp h
    obtain ⟨_, restOk, h⟩ := bind_ok.mp h
    obtain ⟨_, ok, made⟩ := bind_ok.mp firstOk
    cases made
    cases h
    rw [List.mapM_cons, expression_again ok, ih restOk]
    rfl

theorem forInit_again {init : ForInit Value τ} {checked : ForInit Value Kind} {after : Scope}
    (h : forInit context scope init = .ok (checked, after)) :
    forInit context.again scope checked = .ok (checked, after) := by
  cases init with
  | none =>
    rw [forInit] at h
    cases h
    rw [forInit]
  | declaration =>
    rw [forInit] at h
    obtain ⟨_, -, h⟩ := bind_ok.mp h
    obtain ⟨⟨_, _⟩, namesOk, h⟩ := bind_ok.mp h
    cases h
    rw [forInit, typeName_again]
    exact bind_ok.mpr ⟨_, rfl, bind_ok.mpr ⟨_, declarators_again namesOk, rfl⟩⟩
  | expressions =>
    rw [forInit] at h
    obtain ⟨_, valuesOk, h⟩ := bind_ok.mp h
    cases h
    rw [forInit, initial_again valuesOk]
    rfl

/-- What may stand as a statement still may when it has been checked. -/
theorem isStatement_checked {expr : Expr Value τ} {checked : CheckedExpr}
    (h : expression context scope expr = .ok checked) (stands : isStatement expr = true) :
    isStatement checked = true := by
  cases expr with
  | assign =>
    rw [expression] at h
    obtain ⟨_, -, h⟩ := bind_ok.mp h
    split at h
    · obtain ⟨_, -, h⟩ := bind_ok.mp h
      cases h
      rfl
    · simp at h
  | step =>
    rw [expression] at h
    obtain ⟨_, -, h⟩ := bind_ok.mp h
    split at h
    · cases h
      rfl
    · simp at h
  | methodCall =>
    rw [expression] at h
    obtain ⟨_, -, h⟩ := bind_ok.mp h
    obtain ⟨_, -, h⟩ := bind_ok.mp h
    cases h
    rfl
  | call =>
    rw [expression] at h
    split at h
    · simp at h
    · split at h
      · simp at h
      · obtain ⟨_, -, h⟩ := bind_ok.mp h
        cases h
        rfl
  | new =>
    rw [expression] at h
    obtain ⟨_, -, h⟩ := bind_ok.mp h
    split at h
    · simp at h
    · obtain ⟨_, -, h⟩ := bind_ok.mp h
      cases h
      rfl
  | _ => cases stands

theorem nested_again {inLoop : Bool} {after : Scope} {checked : CheckedStmt}
    (settled : statement context.again scope inLoop checked = .ok (checked, after))
    (allowed : refuseDeclaration checked = .ok ()) :
    nested context.again scope inLoop checked = .ok checked := by
  rw [nested, allowed, settled]
  rfl

mutual

/-- **A checked statement is checked to itself**, with the same scope behind it. It is a declaration
only if it was one before. -/
theorem statement_again :
    ∀ {stmt : Stmt Value τ} {inLoop : Bool} {scope after : Scope} {checked : CheckedStmt},
      statement context scope inLoop stmt = .ok (checked, after) →
      statement context.again scope inLoop checked = .ok (checked, after) ∧
        (refuseDeclaration stmt = .ok () → refuseDeclaration checked = .ok ())
  | .block .., _, _, _, _, h => by
    rw [statement] at h
    obtain ⟨_, innerOk, h⟩ := bind_ok.mp h
    cases h
    refine ⟨?_, fun _ => rfl⟩
    rw [statement, statements_again innerOk]
    rfl
  | .empty _, _, _, _, _, h => by
    rw [statement] at h
    cases h
    exact ⟨by rw [statement], fun _ => rfl⟩
  | .declaration .., _, _, _, _, h => by
    rw [statement] at h
    obtain ⟨_, -, h⟩ := bind_ok.mp h
    obtain ⟨⟨_, _⟩, namesOk, h⟩ := bind_ok.mp h
    cases h
    refine ⟨?_, fun refused => (fail_ok.mp refused).elim⟩
    rw [statement, typeName_again]
    exact bind_ok.mpr ⟨_, rfl, bind_ok.mpr ⟨_, declarators_again namesOk, rfl⟩⟩
  | .expression .., _, _, _, _, h => by
    rw [statement] at h
    split at h
    · next stands =>
      obtain ⟨_, valueOk, h⟩ := bind_ok.mp h
      cases h
      refine ⟨?_, fun _ => rfl⟩
      rw [statement, if_pos (isStatement_checked valueOk stands), expression_again valueOk]
      rfl
    · simp at h
  | .ifThen .., _, _, _, _, h => by
    rw [statement] at h
    obtain ⟨_, testOk, h⟩ := bind_ok.mp h
    obtain ⟨_, thenOk, h⟩ := bind_ok.mp h
    obtain ⟨allowed, _, thenOk⟩ := nested_ok thenOk
    obtain ⟨thenAgain, kept⟩ := statement_again thenOk
    cases h
    refine ⟨?_, fun _ => rfl⟩
    rw [statement, expression_again testOk, nested_again thenAgain (kept allowed)]
    rfl
  | .ifThenElse .., _, _, _, _, h => by
    rw [statement] at h
    obtain ⟨_, testOk, h⟩ := bind_ok.mp h
    obtain ⟨_, thenOk, h⟩ := bind_ok.mp h
    obtain ⟨_, elseOk, h⟩ := bind_ok.mp h
    obtain ⟨thenAllowed, _, thenOk⟩ := nested_ok thenOk
    obtain ⟨elseAllowed, _, elseOk⟩ := nested_ok elseOk
    obtain ⟨thenAgain, thenKept⟩ := statement_again thenOk
    obtain ⟨elseAgain, elseKept⟩ := statement_again elseOk
    cases h
    refine ⟨?_, fun _ => rfl⟩
    rw [statement, expression_again testOk, nested_again thenAgain (thenKept thenAllowed),
      nested_again elseAgain (elseKept elseAllowed)]
    rfl
  | .whileLoop .., _, _, _, _, h => by
    rw [statement] at h
    obtain ⟨_, testOk, h⟩ := bind_ok.mp h
    obtain ⟨_, bodyOk, h⟩ := bind_ok.mp h
    obtain ⟨allowed, _, bodyOk⟩ := nested_ok bodyOk
    obtain ⟨bodyAgain, kept⟩ := statement_again bodyOk
    cases h
    refine ⟨?_, fun _ => rfl⟩
    rw [statement, expression_again testOk, nested_again bodyAgain (kept allowed)]
    rfl
  | .doLoop .., _, _, _, _, h => by
    rw [statement] at h
    obtain ⟨_, bodyOk, h⟩ := bind_ok.mp h
    obtain ⟨_, testOk, h⟩ := bind_ok.mp h
    obtain ⟨allowed, _, bodyOk⟩ := nested_ok bodyOk
    obtain ⟨bodyAgain, kept⟩ := statement_again bodyOk
    cases h
    refine ⟨?_, fun _ => rfl⟩
    rw [statement, nested_again bodyAgain (kept allowed), expression_again testOk]
    rfl
  | .forLoop .., _, _, _, _, h => by
    rw [statement] at h
    obtain ⟨⟨_, _⟩, initOk, h⟩ := bind_ok.mp h
    obtain ⟨_, testOk, h⟩ := bind_ok.mp h
    obtain ⟨_, updateOk, h⟩ := bind_ok.mp h
    obtain ⟨_, bodyOk, h⟩ := bind_ok.mp h
    obtain ⟨allowed, _, bodyOk⟩ := nested_ok bodyOk
    obtain ⟨bodyAgain, kept⟩ := statement_again bodyOk
    cases h
    refine ⟨?_, fun _ => rfl⟩
    rw [statement]
    refine bind_ok.mpr ⟨_, forInit_again initOk, ?_⟩
    dsimp only
    rw [expression?_again testOk, expressions_again updateOk,
      nested_again bodyAgain (kept allowed)]
    rfl
  | .forEach .., _, _, _, _, h => by
    rw [statement] at h
    obtain ⟨_, iterableOk, h⟩ := bind_ok.mp h
    obtain ⟨_, -, h⟩ := bind_ok.mp h
    obtain ⟨_, defined, h⟩ := bind_ok.mp h
    obtain ⟨_, bodyOk, h⟩ := bind_ok.mp h
    obtain ⟨allowed, _, bodyOk⟩ := nested_ok bodyOk
    obtain ⟨bodyAgain, kept⟩ := statement_again bodyOk
    cases h
    refine ⟨?_, fun _ => rfl⟩
    rw [statement, expression_again iterableOk, typeName_again]
    refine bind_ok.mpr ⟨_, rfl, bind_ok.mpr ⟨_, rfl, bind_ok.mpr ⟨_, defined, ?_⟩⟩⟩
    rw [nested_again bodyAgain (kept allowed)]
    rfl
  | .returns _ none, _, _, _, _, h => by
    rw [statement] at h
    simp at h
  | .returns _ (some _), _, _, _, _, h => by
    rw [statement] at h
    obtain ⟨_, valueOk, h⟩ := bind_ok.mp h
    cases h
    refine ⟨?_, fun _ => rfl⟩
    rw [statement, expression_again valueOk]
    rfl
  | .breaks _, _, _, _, _, h => by
    rw [statement] at h
    split at h
    · next inside =>
      cases h
      refine ⟨?_, fun _ => rfl⟩
      rw [statement, if_pos inside]
    · simp at h
  | .continues _, _, _, _, _, h => by
    rw [statement] at h
    split at h
    · next inside =>
      cases h
      refine ⟨?_, fun _ => rfl⟩
      rw [statement, if_pos inside]
    · simp at h

theorem statements_again :
    ∀ {stmts : List (Stmt Value τ)} {inLoop : Bool} {scope : Scope}
      {checked : List CheckedStmt},
      statements context scope inLoop stmts = .ok checked →
      statements context.again scope inLoop checked = .ok checked
  | [], _, _, _, h => by
    rw [statements] at h
    cases h
    rw [statements]
  | _ :: _, _, _, _, h => by
    rw [statements] at h
    obtain ⟨⟨_, _⟩, firstOk, h⟩ := bind_ok.mp h
    obtain ⟨_, restOk, h⟩ := bind_ok.mp h
    cases h
    obtain ⟨firstAgain, -⟩ := statement_again firstOk
    rw [statements]
    refine bind_ok.mpr ⟨_, firstAgain, ?_⟩
    dsimp only
    rw [statements_again restOk]
    rfl

end

/-- **A checked body is checked to itself.** -/
theorem body_again {argsName : String} {source : List (Stmt Value τ)}
    {checked : List CheckedStmt} (h : body context argsName source = .ok checked) :
    body context.again argsName checked = .ok checked := by
  obtain ⟨scope, defined, inside, ends⟩ := body_ok h
  rw [body]
  refine bind_ok.mpr ⟨scope, defined, bind_ok.mpr ⟨checked, statements_again inside, ?_⟩⟩
  rw [if_neg (by simp [ends])]
  rfl

/-- **Dotted names.** One that begins with a variable in scope stays: its members are those of the
variable. Else its longest beginning that denotes a type or a host object becomes a type name, and
the parts behind it are members, in their order; if there is no such beginning, its first part is
reported as an unknown variable. This is what happens to a dotted name wherever it stands in an
expression that the check accepts, and to check an accepted body again does not change it. -/
theorem chains_settled (context : Context τ) :
    (∀ (scope : Scope) (expr : Expr Value τ) (first : String) (position : Position)
        (rest : List (String × Position)),
      chain? expr = some ((first, position) :: rest) →
      (inScope scope first = true →
        expression context scope expr = .ok (fields (.name position first) rest)) ∧
      (inScope scope first = false →
        (∀ count kind, LongestPrefix context ((first, position) :: rest) count kind →
          expression context scope expr =
            .ok (fields (.typeName position
              ⟨position, dotted (((first, position) :: rest).take count), kind⟩)
                (((first, position) :: rest).drop count))) ∧
        ((∀ count, 0 < count → count ≤ ((first, position) :: rest).length → ∀ kind,
            ¬context.Denotes (dotted (((first, position) :: rest).take count)) kind) →
          ∃ fault, expression context scope expr = .error ⟨position, fault⟩ ∧
            fault.text = "cannot find symbol: variable " ++ first))) ∧
    (∀ (scope : Scope) (expr chain : Expr Value τ) (path : List Nat) (checked : CheckedExpr),
      ChainAt expr path chain → expression context scope expr = .ok checked →
      ∃ settled, expression context scope chain = .ok settled ∧
        checked.at? path = some settled) ∧
    (∀ (argsName : String) (source : List (Stmt Value τ)) (checked : List CheckedStmt),
      body context argsName source = .ok checked →
      body context.again argsName checked = .ok checked) := by
  refine ⟨fun scope expr first position rest isChain => ⟨fun bound => ?_, fun free => ⟨?_, ?_⟩⟩,
    fun scope expr chain path checked stands h => chainAt_checked stands h,
    fun argsName source checked h => body_again h⟩
  · exact expression_bound bound isChain
  · intro count kind longest
    rw [expression_free isChain free, staticChain_longest longest]
  · intro unresolved
    rw [expression_free isChain free, staticChain_unresolved unresolved]
    exact ⟨.unknownVariable first, rfl, rfl⟩

/-- A constant of the class `Math`, with the packages of the class. -/
def pi : Expr Value Unit :=
  .field ⟨1, 23⟩ (.field ⟨1, 18⟩ (.field ⟨1, 13⟩ (.name ⟨1, 8⟩ "java") "lang") "Math") "PI"

/-- The constant when its class is known. -/
def settledPi : CheckedExpr :=
  .field ⟨1, 23⟩ (.typeName ⟨1, 8⟩ ⟨⟨1, 8⟩, "java.lang.Math", Kind.view "Math" .math⟩) "PI"

/-- The name of the class is the longest beginning that denotes something, unless the first part is
a variable. To check what returns the constant again does not change it. -/
theorem pi_settled :
    expression (Program.context Store.initial []) [] pi = .ok settledPi ∧
      expression (Program.context Store.initial []) [("java", .number)] pi =
        .ok (fields (.name ⟨1, 8⟩ "java") [("lang", ⟨1, 13⟩), ("Math", ⟨1, 18⟩), ("PI", ⟨1, 23⟩)]) ∧
      body (Program.context Store.initial []).again "args" [.returns ⟨1, 1⟩ (some settledPi)] =
        .ok [.returns ⟨1, 1⟩ (some settledPi)] := by
  obtain ⟨alone, -, again⟩ := chains_settled (Program.context Store.initial [])
  have isChain : chain? pi =
      some [("java", ⟨1, 8⟩), ("lang", ⟨1, 13⟩), ("Math", ⟨1, 18⟩), ("PI", ⟨1, 23⟩)] := rfl
  have longest : LongestPrefix (Program.context Store.initial [])
      [("java", ⟨1, 8⟩), ("lang", ⟨1, 13⟩), ("Math", ⟨1, 18⟩), ("PI", ⟨1, 23⟩)] 3
      (Kind.view "Math" .math) := by
    refine ⟨by decide, by decide, reference?_eq_some.mp (by cbv), fun longer more most other => ?_⟩
    have all : longer = 4 := Nat.le_antisymm most more
    subst all
    exact reference?_eq_none.mp (by cbv) other
  have settled := ((alone [] pi _ _ _ isChain).2 rfl).1 3 _ longest
  refine ⟨settled, (alone _ pi _ _ _ isChain).1 rfl,
    again "args" [.returns ⟨1, 1⟩ (some pi)] _ ?_⟩
  have defined : define [] "args" (.core .object) Position.outside =
      .ok [("args", .core .object)] := by decide
  have bound : expression (Program.context Store.initial []) [("args", .core .object)] pi =
      .ok settledPi :=
    ((alone [("args", .core .object)] pi _ _ _ isChain).2 (by decide)).1 3 _ longest
  have inside : statements (Program.context Store.initial []) [("args", .core .object)] false
      [.returns ⟨1, 1⟩ (some pi)] = .ok [.returns ⟨1, 1⟩ (some settledPi)] := by
    rw [statements, statement, bound]
    refine bind_ok.mpr ⟨_, rfl, ?_⟩
    dsimp only
    rw [statements]
    rfl
  exact bind_ok.mpr ⟨_, defined, bind_ok.mpr ⟨_, inside, rfl⟩⟩

end Formulary.Check
