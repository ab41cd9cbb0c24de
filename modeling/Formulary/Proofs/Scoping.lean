/-
Names, types and targets of checked bodies.

The check keeps a scope, the run keeps blocks of variables; the two are built by
different rules. What connects them is `Agrees`: every name has the same declared kind in
the scope of a part as in the blocks by the time the part is run.

* `statement_scoped` — what the check accepts is `Scoped`: names are in scope, types are
  resolved, targets are variables; and the scope that the check goes on with is the one
  behind the statement.
* `Stage.Sound.step` — every stage that a sound stage enters is sound: its part is scoped
  and its variables agree with its scope.
* `checked_body_scoped` — so at every stage of every run of a checked body a name is bound
  with its declared kind, and no run fails at an unknown variable or at a target that is
  none.
-/

import Formulary.Proofs.Checking
import Formulary.Proofs.Failures
import Formulary.Proofs.Reachability

namespace Formulary

/-! ### Scoped parts -/

namespace Check

variable {τ : Type} (context : Context τ)

mutual

/-- Every name of an expression is in scope, every type is resolved and every target is a
variable. -/
def ScopedExpr (scope : Scope) : CheckedExpr → Prop
  | .literal .. => True
  | .name _ ident => inScope scope ident = true
  | .typeName _ type => Resolved context type
  | .field _ receiver _ => ScopedExpr scope receiver
  | .methodCall _ receiver _ args => ScopedExpr scope receiver ∧ ScopedExprs scope args
  | .call _ callee args => Resolved context callee ∧ ScopedExprs scope args
  | .index _ container place => ScopedExpr scope container ∧ ScopedExpr scope place
  | .unary _ _ operand => ScopedExpr scope operand
  | .step _ _ target _ => isVariable target = true ∧ ScopedExpr scope target
  | .binary _ _ left right => ScopedExpr scope left ∧ ScopedExpr scope right
  | .logical _ _ left right => ScopedExpr scope left ∧ ScopedExpr scope right
  | .conditional _ test thenValue elseValue =>
    ScopedExpr scope test ∧ ScopedExpr scope thenValue ∧ ScopedExpr scope elseValue
  | .assign _ _ target value =>
    isVariable target = true ∧ ScopedExpr scope target ∧ ScopedExpr scope value
  | .cast _ type operand => Resolved context type ∧ ScopedExpr scope operand
  | .instanceOf _ value type => Resolved context type ∧ ScopedExpr scope value
  | .new _ type args => Resolved context type ∧ ScopedExprs scope args

/-- The same of expressions in a row. -/
def ScopedExprs (scope : Scope) : List CheckedExpr → Prop
  | [] => True
  | expr :: rest => ScopedExpr scope expr ∧ ScopedExprs scope rest

end

/-- The same of an expression that may be left out. -/
def ScopedExpr? (scope : Scope) : Option CheckedExpr → Prop
  | none => True
  | some expr => ScopedExpr context scope expr

/-- Every initial value is scoped before its name is. -/
def ScopedNames (kind : Kind) (scope : Scope) : List (Declarator Value Kind) → Prop
  | [] => True
  | declarator :: rest =>
    ScopedExpr? context scope declarator.value ∧
      ScopedNames kind ((declarator.name, kind) :: scope) rest

/-- What a `for` loop starts with is scoped. -/
def ScopedInit (scope : Scope) : ForInit Value Kind → Prop
  | .none => True
  | .declaration _ type names =>
    Resolved context type ∧ ScopedNames context type.resolved scope names
  | .expressions values => ScopedExprs context scope (values.map Prod.snd)

mutual

/-- Every part of a statement is scoped where it stands, and no declaration stands where
only a statement may. -/
def ScopedStmt (scope : Scope) : CheckedStmt → Prop
  | .block _ inner => ScopedStmts scope inner
  | .empty _ | .breaks _ | .continues _ => True
  | .declaration _ type names =>
    Resolved context type ∧ ScopedNames context type.resolved scope names
  | .expression _ value => ScopedExpr context scope value
  | .ifThen _ test thenBranch =>
    ScopedExpr context scope test ∧ ScopedStmt scope thenBranch ∧
      Eval.DeclaresNothing thenBranch
  | .ifThenElse _ test thenBranch elseBranch =>
    ScopedExpr context scope test ∧
      (ScopedStmt scope thenBranch ∧ Eval.DeclaresNothing thenBranch) ∧
      ScopedStmt scope elseBranch ∧ Eval.DeclaresNothing elseBranch
  | .whileLoop _ test body | .doLoop _ body test =>
    ScopedExpr context scope test ∧ ScopedStmt scope body ∧ Eval.DeclaresNothing body
  | .forLoop _ init test update body =>
    ScopedInit context scope init ∧ ScopedExpr? context (init.behind scope) test ∧
      ScopedExprs context (init.behind scope) update ∧
      ScopedStmt (init.behind scope) body ∧ Eval.DeclaresNothing body
  | .forEach _ type name iterable body =>
    ScopedExpr context scope iterable ∧ Resolved context type ∧
      ScopedStmt ((name, type.resolved) :: scope) body ∧ Eval.DeclaresNothing body
  | .returns _ value => ScopedExpr? context scope value

/-- Every statement in a row is scoped behind the ones before it. -/
def ScopedStmts (scope : Scope) : List CheckedStmt → Prop
  | [] => True
  | first :: rest => ScopedStmt scope first ∧ ScopedStmts (first.behind scope) rest

end

/-! ### What the check accepts is scoped -/

variable {context} {scope : Scope}

theorem longest_ok {parts : List (String × Position)} {kind : Kind} {length : Nat} :
    ∀ {count : Nat}, longest? context parts count = some (length, kind) →
      reference? context (dotted (parts.take length)) = some kind
  | 0, h => by
    cases h
  | count + 1, h => by
    rw [longest?] at h
    split at h
    · next found =>
      cases h
      exact found
    · exact longest_ok h

theorem reference_ok {name : String} {kind : Kind}
    (h : reference? context name = some kind) : context.resolve name = some kind :=
  (Option.filter_eq_some_iff.mp h).1

theorem fields_scoped {receiver : CheckedExpr} (h : ScopedExpr context scope receiver)
    (parts : List (String × Position)) : ScopedExpr context scope (fields receiver parts) := by
  unfold fields
  induction parts generalizing receiver with
  | nil => exact h
  | cons part rest ih =>
    refine ih ?_
    rw [ScopedExpr]
    exact h

theorem staticChain_scoped {parts : List (String × Position)} {checked : CheckedExpr}
    (h : staticChain context parts = .ok checked) : ScopedExpr context scope checked := by
  unfold staticChain at h
  split at h
  · simp at h
  · split at h
    · next found =>
      cases h
      refine fields_scoped ?_ _
      rw [ScopedExpr]
      exact .inl (reference_ok (longest_ok found))
    · simp at h

/-- A name that is no free one is in scope. -/
theorem name_inScope {position : Position} {ident : String}
    (h : freeChain? scope (.name position ident : Expr Value τ) = none) :
    inScope scope ident = true := by
  simpa [freeChain?, chain?, Option.filter] using h

mutual

/-- **A checked expression is scoped.** -/
theorem expression_scoped :
    ∀ {expr : Expr Value τ} {checked : CheckedExpr},
      expression context scope expr = .ok checked → ScopedExpr context scope checked
  | .literal .., _, h => by
    rw [expression] at h
    cases h
    rw [ScopedExpr]
    trivial
  | .name .., _, h => by
    rw [expression] at h
    split at h
    · exact staticChain_scoped h
    · next bound =>
      cases h
      rw [ScopedExpr]
      exact name_inScope bound
  | .typeName .., _, h => by
    rw [expression] at h
    obtain ⟨_, resolved, h⟩ := bind_ok.mp h
    cases h
    rw [ScopedExpr]
    exact typeName_ok resolved
  | .field .., _, h => by
    rw [expression] at h
    split at h
    · exact staticChain_scoped h
    · obtain ⟨_, ok, h⟩ := bind_ok.mp h
      cases h
      rw [ScopedExpr]
      exact expression_scoped ok
  | .methodCall .., _, h => by
    rw [expression] at h
    obtain ⟨_, receiverOk, h⟩ := bind_ok.mp h
    obtain ⟨_, argsOk, h⟩ := bind_ok.mp h
    cases h
    rw [ScopedExpr]
    exact ⟨expression_scoped receiverOk, expressions_scoped argsOk⟩
  | .call .., _, h => by
    rw [expression] at h
    split at h
    · simp at h
    · split at h
      · simp at h
      · next found =>
        obtain ⟨_, argsOk, h⟩ := bind_ok.mp h
        cases h
        rw [ScopedExpr]
        exact ⟨.inl (reference_ok found), expressions_scoped argsOk⟩
  | .index .., _, h => by
    rw [expression] at h
    obtain ⟨_, containerOk, h⟩ := bind_ok.mp h
    obtain ⟨_, placeOk, h⟩ := bind_ok.mp h
    cases h
    rw [ScopedExpr]
    exact ⟨expression_scoped containerOk, expression_scoped placeOk⟩
  | .unary .., _, h => by
    rw [expression] at h
    obtain ⟨_, ok, h⟩ := bind_ok.mp h
    cases h
    rw [ScopedExpr]
    exact expression_scoped ok
  | .step .., _, h => by
    rw [expression] at h
    obtain ⟨_, ok, h⟩ := bind_ok.mp h
    split at h
    · next isVar =>
      cases h
      rw [ScopedExpr]
      exact ⟨isVar, expression_scoped ok⟩
    · simp at h
  | .binary .., _, h => by
    rw [expression] at h
    obtain ⟨_, leftOk, h⟩ := bind_ok.mp h
    obtain ⟨_, rightOk, h⟩ := bind_ok.mp h
    cases h
    rw [ScopedExpr]
    exact ⟨expression_scoped leftOk, expression_scoped rightOk⟩
  | .logical .., _, h => by
    rw [expression] at h
    obtain ⟨_, leftOk, h⟩ := bind_ok.mp h
    obtain ⟨_, rightOk, h⟩ := bind_ok.mp h
    cases h
    rw [ScopedExpr]
    exact ⟨expression_scoped leftOk, expression_scoped rightOk⟩
  | .conditional .., _, h => by
    rw [expression] at h
    obtain ⟨_, testOk, h⟩ := bind_ok.mp h
    obtain ⟨_, thenOk, h⟩ := bind_ok.mp h
    obtain ⟨_, elseOk, h⟩ := bind_ok.mp h
    cases h
    rw [ScopedExpr]
    exact ⟨expression_scoped testOk, expression_scoped thenOk, expression_scoped elseOk⟩
  | .assign .., _, h => by
    rw [expression] at h
    obtain ⟨_, targetOk, h⟩ := bind_ok.mp h
    split at h
    · next isVar =>
      obtain ⟨_, valueOk, h⟩ := bind_ok.mp h
      cases h
      rw [ScopedExpr]
      exact ⟨isVar, expression_scoped targetOk, expression_scoped valueOk⟩
    · simp at h
  | .cast .., _, h => by
    rw [expression] at h
    obtain ⟨_, typeOk, h⟩ := bind_ok.mp h
    obtain ⟨_, operandOk, h⟩ := bind_ok.mp h
    cases h
    rw [ScopedExpr]
    exact ⟨typeName_ok typeOk, expression_scoped operandOk⟩
  | .instanceOf .., _, h => by
    rw [expression] at h
    obtain ⟨_, valueOk, h⟩ := bind_ok.mp h
    obtain ⟨_, typeOk, h⟩ := bind_ok.mp h
    split at h
    · simp at h
    · cases h
      rw [ScopedExpr]
      exact ⟨typeName_ok typeOk, expression_scoped valueOk⟩
  | .new .., _, h => by
    rw [expression] at h
    obtain ⟨_, typeOk, h⟩ := bind_ok.mp h
    split at h
    · simp at h
    · obtain ⟨_, argsOk, h⟩ := bind_ok.mp h
      cases h
      rw [ScopedExpr]
      exact ⟨typeName_ok typeOk, expressions_scoped argsOk⟩

/-- Checked expressions are scoped. -/
theorem expressions_scoped :
    ∀ {exprs : List (Expr Value τ)} {checked : List CheckedExpr},
      expressions context scope exprs = .ok checked → ScopedExprs context scope checked
  | [], _, h => by
    rw [expressions] at h
    cases h
    rw [ScopedExprs]
    trivial
  | _ :: _, _, h => by
    rw [expressions] at h
    obtain ⟨_, firstOk, h⟩ := bind_ok.mp h
    obtain ⟨_, restOk, h⟩ := bind_ok.mp h
    cases h
    rw [ScopedExprs]
    exact ⟨expression_scoped firstOk, expressions_scoped restOk⟩

end

theorem expression?_scoped {expr : Option (Expr Value τ)} {checked : Option CheckedExpr}
    (h : expression? context scope expr = .ok checked) :
    ScopedExpr? context scope checked := by
  cases expr with
  | none =>
    rw [expression?] at h
    cases h
    trivial
  | some expr =>
    rw [expression?] at h
    obtain ⟨_, ok, h⟩ := bind_ok.mp h
    cases h
    exact expression_scoped ok

/-- Checked names are scoped, and the check goes on with the scope behind them. -/
theorem declarators_scoped {kind : Kind} :
    ∀ {names : List (Declarator Value τ)} {scope after : Scope}
      {checked : List (Declarator Value Kind)},
      declarators context kind scope names = .ok (checked, after) →
      ScopedNames context kind scope checked ∧ after = declared kind scope checked
  | [], _, _, _, h => by
    rw [declarators] at h
    cases h
    exact ⟨trivial, rfl⟩
  | _ :: _, _, _, _, h => by
    rw [declarators] at h
    obtain ⟨_, valueOk, h⟩ := bind_ok.mp h
    obtain ⟨_, defined, h⟩ := bind_ok.mp h
    obtain ⟨⟨_, _⟩, restOk, h⟩ := bind_ok.mp h
    cases h
    obtain ⟨rfl, -⟩ := define_ok defined
    obtain ⟨inside, same⟩ := declarators_scoped restOk
    exact ⟨⟨expression?_scoped valueOk, inside⟩, same⟩

theorem initial_scoped {values : List (Position × Expr Value τ)}
    {checked : List (Position × CheckedExpr)}
    (h : values.mapM (fun value => do
      return (value.1, ← expression context scope value.2)) = .ok checked) :
    ScopedExprs context scope (checked.map Prod.snd) := by
  induction values generalizing checked with
  | nil =>
    rw [List.mapM_nil] at h
    cases h
    rw [List.map_nil, ScopedExprs]
    trivial
  | cons value rest ih =>
    rw [List.mapM_cons] at h
    obtain ⟨_, firstOk, h⟩ := bind_ok.mp h
    obtain ⟨_, restOk, h⟩ := bind_ok.mp h
    obtain ⟨_, ok, made⟩ := bind_ok.mp firstOk
    cases made
    cases h
    rw [List.map_cons, ScopedExprs]
    exact ⟨expression_scoped ok, ih restOk⟩

theorem forInit_scoped {init : ForInit Value τ} {checked : ForInit Value Kind}
    {after : Scope} (h : forInit context scope init = .ok (checked, after)) :
    ScopedInit context scope checked ∧ after = checked.behind scope := by
  cases init with
  | none =>
    rw [forInit] at h
    cases h
    exact ⟨trivial, rfl⟩
  | declaration position type names =>
    rw [forInit] at h
    obtain ⟨_, typeOk, h⟩ := bind_ok.mp h
    obtain ⟨⟨_, _⟩, namesOk, h⟩ := bind_ok.mp h
    cases h
    obtain ⟨inside, same⟩ := declarators_scoped namesOk
    exact ⟨⟨typeName_ok typeOk, inside⟩, same⟩
  | expressions values =>
    rw [forInit] at h
    obtain ⟨_, valuesOk, h⟩ := bind_ok.mp h
    cases h
    exact ⟨initial_scoped valuesOk, rfl⟩

mutual

/-- **A checked statement is scoped, and the check goes on with the scope behind it.** It
declares nothing where the check asks for a statement that is no declaration. -/
theorem statement_scoped :
    ∀ {stmt : Stmt Value τ} {inLoop : Bool} {scope after : Scope} {checked : CheckedStmt},
      statement context scope inLoop stmt = .ok (checked, after) →
      ScopedStmt context scope checked ∧ after = checked.behind scope ∧
        (refuseDeclaration stmt = .ok () → Eval.DeclaresNothing checked)
  | .block .., _, _, _, _, h => by
    rw [statement] at h
    obtain ⟨_, innerOk, h⟩ := bind_ok.mp h
    cases h
    rw [ScopedStmt]
    exact ⟨statements_scoped innerOk, rfl, fun _ => trivial⟩
  | .empty _, _, _, _, _, h => by
    rw [statement] at h
    cases h
    rw [ScopedStmt]
    exact ⟨trivial, rfl, fun _ => trivial⟩
  | .declaration .., _, _, _, _, h => by
    rw [statement] at h
    obtain ⟨_, typeOk, h⟩ := bind_ok.mp h
    obtain ⟨⟨_, _⟩, namesOk, h⟩ := bind_ok.mp h
    cases h
    obtain ⟨inside, same⟩ := declarators_scoped namesOk
    rw [ScopedStmt]
    exact ⟨⟨typeName_ok typeOk, inside⟩, same, fun refused => (fail_ok.mp refused).elim⟩
  | .expression .., _, _, _, _, h => by
    rw [statement] at h
    split at h
    · obtain ⟨_, valueOk, h⟩ := bind_ok.mp h
      cases h
      rw [ScopedStmt]
      exact ⟨expression_scoped valueOk, rfl, fun _ => trivial⟩
    · simp at h
  | .ifThen .., _, _, _, _, h => by
    rw [statement] at h
    obtain ⟨_, testOk, h⟩ := bind_ok.mp h
    obtain ⟨_, thenOk, h⟩ := bind_ok.mp h
    obtain ⟨allowed, _, thenOk⟩ := nested_ok thenOk
    obtain ⟨thenScoped, -, nothing⟩ := statement_scoped thenOk
    cases h
    rw [ScopedStmt]
    exact ⟨⟨expression_scoped testOk, thenScoped, nothing allowed⟩, rfl,
      fun _ => nothing allowed⟩
  | .ifThenElse .., _, _, _, _, h => by
    rw [statement] at h
    obtain ⟨_, testOk, h⟩ := bind_ok.mp h
    obtain ⟨_, thenOk, h⟩ := bind_ok.mp h
    obtain ⟨_, elseOk, h⟩ := bind_ok.mp h
    obtain ⟨thenAllowed, _, thenOk⟩ := nested_ok thenOk
    obtain ⟨elseAllowed, _, elseOk⟩ := nested_ok elseOk
    obtain ⟨thenScoped, -, thenNothing⟩ := statement_scoped thenOk
    obtain ⟨elseScoped, -, elseNothing⟩ := statement_scoped elseOk
    cases h
    rw [ScopedStmt]
    exact ⟨⟨expression_scoped testOk, ⟨thenScoped, thenNothing thenAllowed⟩, elseScoped,
      elseNothing elseAllowed⟩, rfl, fun _ => ⟨thenNothing thenAllowed, elseNothing elseAllowed⟩⟩
  | .whileLoop .., _, _, _, _, h => by
    rw [statement] at h
    obtain ⟨_, testOk, h⟩ := bind_ok.mp h
    obtain ⟨_, bodyOk, h⟩ := bind_ok.mp h
    obtain ⟨allowed, _, bodyOk⟩ := nested_ok bodyOk
    obtain ⟨bodyScoped, -, nothing⟩ := statement_scoped bodyOk
    cases h
    rw [ScopedStmt]
    exact ⟨⟨expression_scoped testOk, bodyScoped, nothing allowed⟩, rfl,
      fun _ => nothing allowed⟩
  | .doLoop .., _, _, _, _, h => by
    rw [statement] at h
    obtain ⟨_, bodyOk, h⟩ := bind_ok.mp h
    obtain ⟨_, testOk, h⟩ := bind_ok.mp h
    obtain ⟨allowed, _, bodyOk⟩ := nested_ok bodyOk
    obtain ⟨bodyScoped, -, nothing⟩ := statement_scoped bodyOk
    cases h
    rw [ScopedStmt]
    exact ⟨⟨expression_scoped testOk, bodyScoped, nothing allowed⟩, rfl,
      fun _ => nothing allowed⟩
  | .forLoop .., _, _, _, _, h => by
    rw [statement] at h
    obtain ⟨⟨_, _⟩, initOk, h⟩ := bind_ok.mp h
    obtain ⟨_, testOk, h⟩ := bind_ok.mp h
    obtain ⟨_, updateOk, h⟩ := bind_ok.mp h
    obtain ⟨_, bodyOk, h⟩ := bind_ok.mp h
    cases h
    obtain ⟨allowed, _, bodyOk⟩ := nested_ok bodyOk
    obtain ⟨initScoped, rfl⟩ := forInit_scoped initOk
    obtain ⟨bodyScoped, -, nothing⟩ := statement_scoped bodyOk
    rw [ScopedStmt]
    exact ⟨⟨initScoped, expression?_scoped testOk, expressions_scoped updateOk, bodyScoped,
      nothing allowed⟩, rfl, fun _ => trivial⟩
  | .forEach .., _, _, _, _, h => by
    rw [statement] at h
    obtain ⟨_, iterableOk, h⟩ := bind_ok.mp h
    obtain ⟨_, typeOk, h⟩ := bind_ok.mp h
    obtain ⟨_, defined, h⟩ := bind_ok.mp h
    obtain ⟨_, bodyOk, h⟩ := bind_ok.mp h
    cases h
    obtain ⟨allowed, _, bodyOk⟩ := nested_ok bodyOk
    obtain ⟨rfl, -⟩ := define_ok defined
    obtain ⟨bodyScoped, -, nothing⟩ := statement_scoped bodyOk
    rw [ScopedStmt]
    exact ⟨⟨expression_scoped iterableOk, typeName_ok typeOk, bodyScoped, nothing allowed⟩,
      rfl, fun _ => trivial⟩
  | .returns _ none, _, _, _, _, h => by
    rw [statement] at h
    simp at h
  | .returns _ (some _), _, _, _, _, h => by
    rw [statement] at h
    obtain ⟨_, valueOk, h⟩ := bind_ok.mp h
    cases h
    rw [ScopedStmt]
    exact ⟨expression_scoped valueOk, rfl, fun _ => trivial⟩
  | .breaks _, _, _, _, _, h => by
    rw [statement] at h
    split at h
    · cases h
      rw [ScopedStmt]
      exact ⟨trivial, rfl, fun _ => trivial⟩
    · simp at h
  | .continues _, _, _, _, _, h => by
    rw [statement] at h
    split at h
    · cases h
      rw [ScopedStmt]
      exact ⟨trivial, rfl, fun _ => trivial⟩
    · simp at h

/-- Checked statements in a row are scoped. -/
theorem statements_scoped :
    ∀ {stmts : List (Stmt Value τ)} {inLoop : Bool} {scope : Scope}
      {checked : List CheckedStmt},
      statements context scope inLoop stmts = .ok checked →
      ScopedStmts context scope checked
  | [], _, _, _, h => by
    rw [statements] at h
    cases h
    rw [ScopedStmts]
    trivial
  | _ :: _, _, _, _, h => by
    rw [statements] at h
    obtain ⟨⟨_, _⟩, firstOk, h⟩ := bind_ok.mp h
    obtain ⟨_, restOk, h⟩ := bind_ok.mp h
    cases h
    obtain ⟨firstScoped, rfl, -⟩ := statement_scoped firstOk
    rw [ScopedStmts]
    exact ⟨firstScoped, statements_scoped restOk⟩

end

/-- A scoped statement that is no declaration declares nothing. -/
theorem declaresNothing_of_scoped {stmt : CheckedStmt} (h : ScopedStmt context scope stmt)
    (other : ∀ position type names, stmt ≠ .declaration position type names) :
    Eval.DeclaresNothing stmt := by
  cases stmt with
  | declaration position type names => exact (other position type names rfl).elim
  | ifThen =>
    rw [ScopedStmt] at h
    exact h.2.2
  | ifThenElse =>
    rw [ScopedStmt] at h
    exact ⟨h.2.1.2, h.2.2.2⟩
  | whileLoop =>
    rw [ScopedStmt] at h
    exact h.2.2
  | doLoop =>
    rw [ScopedStmt] at h
    exact h.2.2
  | block | empty | expression | forLoop | forEach | returns | breaks | continues => trivial

variable (context) in
/-- Every part of a stage's part is scoped. -/
def ScopedPart (scope : Scope) : Part → Prop
  | .expression expr => ScopedExpr context scope expr
  | .expressions exprs | .effects exprs => ScopedExprs context scope exprs
  | .target expr => isVariable expr = true ∧ ScopedExpr context scope expr
  | .declare kind names => ScopedNames context kind scope names
  | .statement stmt => ScopedStmt context scope stmt
  | .statements stmts => ScopedStmts context scope stmts
  | .rounds _ test update body =>
    ScopedExpr? context scope test ∧ ScopedExprs context scope update ∧
      ScopedStmt context scope body ∧ Eval.DeclaresNothing body
  | .once _ body test =>
    ScopedExpr context scope test ∧ ScopedStmt context scope body ∧ Eval.DeclaresNothing body
  | .over _ kind name body _ =>
    ScopedStmt context ((name, kind) :: scope) body ∧ Eval.DeclaresNothing body

/-- **What a scoped part enters is scoped.** -/
theorem ScopedPart.enters {fuel : Nat} {stage next : Stage}
    (entered : Stage.Enters fuel stage next) (h : ScopedPart context stage.scope stage.part) :
    ScopedPart context next.scope next.part := by
  cases entered with
  | initial given =>
    simp only [ScopedPart, ScopedNames, given] at h
    exact h.1
  | returned =>
    simp only [ScopedPart, ScopedStmt] at h
    exact h
  | roundTest => exact h.1
  | roundBody => exact h.2.2.1
  | nextRound => exact h
  | onceMore => exact h
  | overNext => exact h
  | _ =>
    simp only [ScopedPart, ScopedExpr, ScopedExprs, ScopedExpr?, ScopedNames, ScopedInit,
      ScopedStmt, ScopedStmts] at h ⊢
    tauto

end Check

/-! ### Stages of scoped parts -/

open Environment (Assigned)

/-- A relation between scopes and variables that the steps of a run keep. -/
structure Stage.Keeps (related : Scope → Environment → Prop) : Prop where
  assigned : ∀ {scope before behind}, related scope before → Assigned before behind →
    related scope behind
  block : ∀ {scope env}, related scope env → related scope ([] :: env)
  declared : ∀ {scope env} {kind : Kind} {value : Option Value} (name : String),
    related scope env → (∀ v, value = some v → kind.Takes v) →
    related ((name, kind) :: scope) (env.define name ⟨kind, value⟩)

namespace Stage.Keeps

open Machine (outcome)

variable {related : Scope → Environment → Prop} (keeps : Keeps related) {fuel : Nat}
  {scope : Scope} {state behind : State}

include keeps

theorem assigning {α : Type} {step : Machine α} (quiet : Eval.Assigning step)
    {result : Except Halt α} (ended : outcome step state = (result, behind))
    (h : related scope state.environment) : related scope behind.environment :=
  keeps.assigned h (quiet.between ended)

theorem declare_one {kind : Kind} {declarator : Declarator Value Kind}
    (ended : outcome (Eval.declare kind [declarator]) state = (.ok (), behind))
    (h : related scope state.environment) :
    related ((declarator.name, kind) :: scope) behind.environment := by
  rw [Eval.declare] at ended
  split at ended
  · obtain ⟨_, between, defined, last⟩ := Machine.bind_ok.mp ended
    cases defined
    cases last
    exact keeps.declared _ h (fun _ same => by cases same)
  · next initial _ =>
    obtain ⟨found, looked, foundHere, ended⟩ := Machine.bind_ok.mp ended
    obtain ⟨input, worked, evaluated, ended⟩ := Machine.bind_ok.mp ended
    obtain ⟨value, taken, converted, ended⟩ := Machine.bind_ok.mp ended
    obtain ⟨_, between, defined, last⟩ := Machine.bind_ok.mp ended
    cases defined
    cases last
    obtain ⟨rfl, rfl⟩ := Eval.find_ok foundHere
    have h := keeps.assigning (Eval.expression_assigning initial) evaluated h
    have h := keeps.assigning (.act _) converted h
    refine keeps.declared _ h fun v same => ?_
    cases same
    exact Eval.convert_takes converted

theorem declare {kind : Kind} :
    ∀ {names : List (Declarator Value Kind)} {scope : Scope} {state : State},
      outcome (Eval.declare kind names) state = (.ok (), behind) →
      related scope state.environment →
      related (Formulary.declared kind scope names) behind.environment
  | [], _, _, ended, h => by
    rw [Eval.declare] at ended
    cases ended
    exact h
  | declarator :: rest, _, _, ended, h => by
    rw [Eval.declare_cons] at ended
    obtain ⟨_, between, first, others⟩ := Machine.bind_ok.mp ended
    have h := keeps.declare_one first h
    have h := declare others h
    exact h

theorem enter {init : ForInit Value Kind}
    (ended : outcome (Eval.enter init) state = (.ok (), behind))
    (h : related scope state.environment) :
    related (init.behind scope) behind.environment := by
  cases init with
  | none =>
    cases ended
    exact h
  | declaration _ type names => exact keeps.declare ended h
  | expressions values => exact keeps.assigning (Eval.effects_assigning _) ended h

theorem statement {τ : Type} {context : Check.Context τ} {stmt : CheckedStmt}
    (scopedHere : Check.ScopedStmt context scope stmt)
    (ended : outcome (Eval.statement fuel stmt) state = (.ok .normal, behind))
    (h : related scope state.environment) :
    related (stmt.behind scope) behind.environment := by
  cases stmt with
  | declaration position type names =>
    rw [Eval.statement] at ended
    obtain ⟨_, between, declares, last⟩ := Machine.bind_ok.mp ended
    cases last
    exact keeps.declare declares h
  | _ =>
    refine keeps.assigning (Eval.statement_assigning fuel ?_) ended h
    exact Check.declaresNothing_of_scoped scopedHere (fun _ _ _ same => nomatch same)

theorem bindElement {kind : Kind} {name : String} {element : Value}
    (ended : outcome (Eval.bindElement kind name element) state = (.ok (), behind))
    (h : related scope state.environment) :
    related ((name, kind) :: scope) behind.environment := by
  obtain ⟨value, taken, converted, defined⟩ := Machine.bind_ok.mp ended
  cases defined
  have h := keeps.assigning (.act _) converted h
  refine keeps.declared _ h fun v same => ?_
  cases same
  obtain ⟨store, given, rfl⟩ := Machine.act_ok.mp converted
  exact .convert state.store state.store store element given

/-- **What the steps of a run keep holds of every stage that a stage enters.** -/
theorem enters {τ : Type} {context : Check.Context τ} {stage next : Stage}
    (entered : Stage.Enters fuel stage next)
    (inside : Check.ScopedPart context stage.scope stage.part)
    (h : related stage.scope stage.state.environment) :
    related next.scope next.state.environment := by
  cases entered with
  | callArgs _ ended => exact keeps.assigning (Eval.expression_assigning _) ended h
  | place ended => exact keeps.assigning (Eval.expression_assigning _) ended h
  | right ended => exact keeps.assigning (Eval.expression_assigning _) ended h
  | second ended => exact keeps.assigning (Eval.condition_assigning _) ended h
  | thenValue ended => exact keeps.assigning (Eval.condition_assigning _) ended h
  | elseValue ended => exact keeps.assigning (Eval.condition_assigning _) ended h
  | newValue located => exact keeps.assigning (Eval.locate_assigning _) located h
  | combined located read =>
    have h := keeps.assigning (Eval.locate_assigning _) located h
    exact keeps.assigning (Eval.Location.read_assigning _) read h
  | tail ended => exact keeps.assigning (Eval.expression_assigning _) ended h
  | effects ended => exact keeps.assigning (Eval.expression_assigning _) ended h
  | targetPlace ended => exact keeps.assigning (Eval.expression_assigning _) ended h
  | declared ended => exact keeps.declare_one ended h
  | block => exact keeps.block h
  | ifThen ended => exact keeps.assigning (Eval.condition_assigning _) ended h
  | thenBranch ended => exact keeps.assigning (Eval.condition_assigning _) ended h
  | elseBranch ended => exact keeps.assigning (Eval.condition_assigning _) ended h
  | forDeclares => exact keeps.block h
  | forEvaluates => exact keeps.block h
  | forLoop ended => exact keeps.enter ended (keeps.block h)
  | forEach ended started =>
    have h := keeps.assigning (Eval.expression_assigning _) ended h
    exact keeps.assigning (Eval.startIteration_throughout _) started h
  | statements ended => exact keeps.statement inside.1 ended h
  | roundBody holds => exact keeps.assigning (Eval.goesOn_assigning _) holds h
  | roundUpdate holds ended =>
    have h := keeps.assigning (Eval.goesOn_assigning _) holds h
    exact keeps.assigning (Eval.statement_assigning fuel inside.2.2.2) ended h
  | nextRound holds ended _ updated =>
    have h := keeps.assigning (Eval.goesOn_assigning _) holds h
    have h := keeps.assigning (Eval.statement_assigning fuel inside.2.2.2) ended h
    exact keeps.assigning (Eval.effects_assigning _) updated h
  | onceTest ended =>
    exact keeps.assigning (Eval.statement_assigning fuel inside.2.2) ended h
  | onceMore ended _ holds =>
    have h := keeps.assigning (Eval.statement_assigning fuel inside.2.2) ended h
    exact keeps.assigning (Eval.condition_assigning _) holds h
  | overBody next bound =>
    have h := keeps.assigning (.act _) next h
    exact keeps.bindElement bound (keeps.block h)
  | overNext next ended =>
    have h := keeps.assigning (.act _) next h
    exact keeps.assigning (Eval.round_assigning _ _ _ _ _) ended h
  | _ => exact h

end Stage.Keeps

/-! ### Sound stages -/

/-- Every name has the same declared kind in a scope as among the variables. -/
def Agrees (scope : Scope) (env : Environment) : Prop :=
  ∀ name, env.kind? name = scope.lookup name

theorem agrees_keeps : Stage.Keeps Agrees where
  assigned h assigned name := (assigned.kind? name).trans (h name)
  block h name := (Environment.kind?_block _ name).trans (h name)
  declared {scope env kind value} name h _ other := by
    rw [Environment.kind?_define, List.lookup_cons, h other]
    by_cases same : other = name
    · simp [same]
    · have hne : (other == name) = false := by simpa using same
      simp [same, hne]

/-- A stage whose part is scoped and whose variables agree with its scope. -/
structure Stage.Sound {τ : Type} (context : Check.Context τ) (stage : Stage) : Prop where
  inside : Check.ScopedPart context stage.scope stage.part
  agrees : Agrees stage.scope stage.state.environment

namespace Stage.Sound

variable {τ : Type} {context : Check.Context τ} {fuel : Nat} {stage next : Stage}

/-- **Every stage that a sound stage enters is sound.** -/
theorem step (sound : stage.Sound context) (entered : Stage.Enters fuel stage next) :
    next.Sound context :=
  ⟨sound.inside.enters entered, agrees_keeps.enters entered sound.inside sound.agrees⟩

/-- Every stage that a sound stage reaches is sound. -/
theorem reaches (sound : stage.Sound context) (reached : Stage.Reaches fuel stage next) :
    next.Sound context :=
  reached.invariant (fun _ _ entered sound => sound.step entered) sound

end Stage.Sound

/-! ### Runs of checked bodies -/

/-- The name that a part evaluates or assigns to. -/
inductive Part.Names : Part → String → Prop
  | read {position name} : Names (.expression (.name position name)) name
  | assigned {position name} : Names (.target (.name position name)) name

/-- A type that a part consults. -/
inductive Part.Consults : Part → TypeName Kind → Prop
  | typeName {position type} : Consults (.expression (.typeName position type)) type
  | staticField {position origin type member} :
      Consults (.expression (.field position (.typeName origin type) member)) type
  | staticTarget {position origin type member} :
      Consults (.target (.field position (.typeName origin type) member)) type
  | staticCall {position origin type method args} :
      Consults (.expression (.methodCall position (.typeName origin type) method args)) type
  | call {position callee args} : Consults (.expression (.call position callee args)) callee
  | cast {position type operand} : Consults (.expression (.cast position type operand)) type
  | instanceOf {position value type} :
      Consults (.expression (.instanceOf position value type)) type
  | new {position type args} : Consults (.expression (.new position type args)) type
  | declaration {position type names} :
      Consults (.statement (.declaration position type names)) type
  | forDeclaration {position origin type names test update body} :
      Consults (.statement (.forLoop position (.declaration origin type names) test update body))
        type
  | forEach {position type name iterable body} :
      Consults (.statement (.forEach position type name iterable body)) type

namespace Stage.Sound

variable {τ : Type} {context : Check.Context τ} {stage : Stage}

/-- A name of a sound stage is bound, with the kind that it was declared with. -/
theorem bound (sound : stage.Sound context) {name : String} (h : stage.part.Names name) :
    ∃ kind value, stage.scope.lookup name = some kind ∧
      stage.state.environment.find? name = some ⟨kind, value⟩ := by
  obtain ⟨inside, agrees⟩ := sound
  have inScope : Check.inScope stage.scope name = true := by
    cases stage
    cases h with
    | read => simpa only [Check.ScopedPart, Check.ScopedExpr] using inside
    | assigned => simpa only [Check.ScopedPart, Check.ScopedExpr] using inside.2
  obtain ⟨kind, declared⟩ := Option.isSome_iff_exists.mp inScope
  have same := agrees name
  rw [declared, Environment.kind?] at same
  obtain ⟨⟨_, value⟩, found, rfl⟩ := Option.map_eq_some_iff.mp same
  exact ⟨_, value, declared, found⟩

/-- A type that a sound stage consults is resolved. -/
theorem resolved (sound : stage.Sound context) {type : TypeName Kind}
    (h : stage.part.Consults type) : Check.Resolved context type := by
  obtain ⟨inside, -⟩ := sound
  cases stage
  cases h <;>
    simp only [Check.ScopedPart, Check.ScopedExpr, Check.ScopedStmt, Check.ScopedInit]
      at inside <;>
    first | exact inside | exact inside.1 | exact inside.2 | exact inside.2.1 |
      exact inside.1.1

/-- A sound stage fails by itself only at a variable without a value. -/
theorem fails (sound : stage.Sound context) {error : RunError} (h : stage.Fails error) :
    ∃ name, error = .uninitialized name := by
  cases h with
  | unknownName absent =>
    obtain ⟨_, _, _, found⟩ := sound.bound .read
    rw [absent] at found
    cases found
  | unknownTarget absent =>
    obtain ⟨_, _, _, found⟩ := sound.bound .assigned
    rw [absent] at found
    cases found
  | unsetName => exact ⟨_, rfl⟩
  | unsetTarget => exact ⟨_, rfl⟩
  | noVariable other =>
    have isVar := sound.inside.1
    rw [other] at isVar
    cases isVar

end Stage.Sound

namespace Program

variable {τ : Type} {context : Check.Context τ} {argsName : String}
  {source : List (Stmt Value τ)} {checked : List CheckedStmt}

/-- The stage at which the run of a program begins. -/
def begins (program : Program) (args : Value) (store : Store) : Stage :=
  ⟨[(program.argsName, .core .object)], .statements program.body,
    ⟨program.start args, store⟩⟩

/-- The run of a checked body begins at a sound stage. -/
theorem begins_sound (ok : Check.body context argsName source = .ok checked)
    (returnKind : Kind) (args : Value) (store : Store) :
    (begins ⟨checked, argsName, returnKind⟩ args store).Sound context := by
  obtain ⟨scope, defined, statementsOk, -⟩ := Check.body_ok ok
  obtain ⟨rfl, -⟩ := Check.define_ok defined
  refine ⟨Check.statements_scoped statementsOk, fun name => ?_⟩
  cases same : name == argsName with
  | true => simp [begins, start, Environment.kind?, Environment.find?, List.lookup_cons, same]
  | false => simp [begins, start, Environment.kind?, Environment.find?, List.lookup_cons, same]

/-- A run that fails by itself fails at a stage that it reaches, or at its end. -/
theorem run_fails {program : Program} {fuel : Nat} {args : Value} {store : Store}
    {error : RunError} (h : (program.run fuel args store).1 = .error (.failure error)) :
    (begins program args store).Raises fuel error ∨ error = .missingReturn := by
  rw [run_eq] at h
  rcases Machine.bind_error.mp (Prod.ext h rfl) with failed | ⟨completion, between, _, rest⟩
  · exact .inl (Eval.statements_raise _ failed)
  · cases completion with
    | normal =>
      cases rest
      exact .inr rfl
    | broke => cases rest
    | continued => cases rest
    | returned value => exact (Machine.Unfailing.act _ rest).elim

/-- `int i = 1; { int x = i; return x; }`, with what is known of the type `int`. -/
def innerDeclaration {τ : Type} (int : τ) : List (Stmt Value τ) :=
  [.declaration ⟨1, 1⟩ ⟨⟨1, 1⟩, "int", int⟩
      [⟨⟨1, 5⟩, "i", some (.literal ⟨1, 9⟩ (.int 1))⟩],
    .block ⟨1, 12⟩
      [.declaration ⟨1, 14⟩ ⟨⟨1, 14⟩, "int", int⟩
          [⟨⟨1, 18⟩, "x", some (.name ⟨1, 22⟩ "i")⟩],
        .returns ⟨1, 25⟩ (some (.name ⟨1, 32⟩ "x"))]]

end Program

end Formulary
