/-
Checking relabelled bodies.

A check looks at names only in three ways: whether one is in scope, whether it is reserved, and
what it stands for if it is not in scope. A relabelled tree is checked like the tree, as long as the names
of the tree agree in these with those that they become, and checking it gives the relabelled
result.

* `Check.Alike` — checks that end alike; positions in reports may differ.
* `Check.Fits` — a name agrees with the one that it becomes, with respect to two scopes.
* `Check.statement_alike`, `Check.body_alike` — a tree and the relabelled one.
-/

import Formulary.Proofs.RelabeledLiterals
import Formulary.Proofs.Transfers

namespace Formulary

/-- A reason of a refusal with the names of variables changed. -/
def CheckFault.relabel (ident : String → String) : CheckFault → CheckFault
  | .unknownVariable name => .unknownVariable (ident name)
  | .alreadyDefined name => .alreadyDefined (ident name)
  | .reserved name => .reserved (ident name)
  | .calledVariable name => .calledVariable (ident name)
  | other => other

/-- What a transfer does to trees whose types are not resolved. -/
def Transfer.parsedLabels (T : Transfer) : Relabeling Value Value Unit Unit where
  place := T.place
  literal := Value.rename T.renames
  ident := T.ident
  type := id

/-! ### Which statements complete -/

theorem Expr.isConstantTrue_relabel (T : Transfer) (e : CheckedExpr) :
    (e.relabel T.labels).isConstantTrue = e.isConstantTrue := by
  cases e with
  | literal p value =>
    cases value with
    | bool b => cases b <;> rfl
    | _ => rfl
  | _ => rfl

namespace Stmt

variable (T : Transfer)

mutual

theorem hasBreak_relabel : ∀ stmt : CheckedStmt,
    (stmt.relabel T.labels).hasBreak = stmt.hasBreak
  | .block _ inner => anyBreak_relabel inner
  | .ifThen _ _ thenBranch => hasBreak_relabel thenBranch
  | .ifThenElse _ _ thenBranch elseBranch =>
    congrArg₂ or (hasBreak_relabel thenBranch) (hasBreak_relabel elseBranch)
  | .breaks _ | .empty _ | .declaration .. | .expression .. | .whileLoop .. | .doLoop ..
  | .forLoop .. | .forEach .. | .returns .. | .continues _ => rfl

theorem anyBreak_relabel : ∀ stmts : List CheckedStmt,
    anyBreak (relabelAll T.labels stmts) = anyBreak stmts
  | [] => rfl
  | stmt :: rest => congrArg₂ or (hasBreak_relabel stmt) (anyBreak_relabel rest)

end

mutual

theorem hasContinue_relabel : ∀ stmt : CheckedStmt,
    (stmt.relabel T.labels).hasContinue = stmt.hasContinue
  | .block _ inner => anyContinue_relabel inner
  | .ifThen _ _ thenBranch => hasContinue_relabel thenBranch
  | .ifThenElse _ _ thenBranch elseBranch =>
    congrArg₂ or (hasContinue_relabel thenBranch) (hasContinue_relabel elseBranch)
  | .breaks _ | .empty _ | .declaration .. | .expression .. | .whileLoop .. | .doLoop ..
  | .forLoop .. | .forEach .. | .returns .. | .continues _ => rfl

theorem anyContinue_relabel : ∀ stmts : List CheckedStmt,
    anyContinue (relabelAll T.labels stmts) = anyContinue stmts
  | [] => rfl
  | stmt :: rest => congrArg₂ or (hasContinue_relabel stmt) (anyContinue_relabel rest)

end

mutual

theorem completes_relabel : ∀ stmt : CheckedStmt,
    (stmt.relabel T.labels).completes = stmt.completes
  | .block _ inner => allComplete_relabel inner
  | .ifThenElse _ _ thenBranch elseBranch =>
    congrArg₂ or (completes_relabel thenBranch) (completes_relabel elseBranch)
  | .whileLoop _ test body => by
    rw [relabel, completes, completes, Expr.isConstantTrue_relabel, hasBreak_relabel]
  | .doLoop _ body test => by
    rw [relabel, completes, completes, Expr.isConstantTrue_relabel, hasBreak_relabel,
      hasContinue_relabel, completes_relabel body]
  | .forLoop _ _ none _ body => by
    rw [relabel, Option.map_none, completes, completes, hasBreak_relabel]
  | .forLoop _ _ (some test) _ body => by
    rw [relabel, Option.map_some, completes, completes, Expr.isConstantTrue_relabel,
      hasBreak_relabel]
  | .ifThen .. | .breaks _ | .empty _ | .declaration .. | .expression ..
  | .forEach .. | .returns .. | .continues _ => rfl

theorem allComplete_relabel : ∀ stmts : List CheckedStmt,
    allComplete (relabelAll T.labels stmts) = allComplete stmts
  | [] => rfl
  | stmt :: rest => congrArg₂ and (completes_relabel stmt) (allComplete_relabel rest)

end

end Stmt

namespace Check

variable {α β γ δ : Type} {T : Transfer}

/-! ### Checks that end alike -/

/-- Two checks that end alike: both well and with related results, or both with one fault up to
the names of variables. -/
inductive Alike (T : Transfer) (related : α → β → Prop) :
    Except CheckError α → Except CheckError β → Prop
  | ok {a : α} {b : β} (h : related a b) : Alike T related (.ok a) (.ok b)
  | error {position position' : Position} {fault fault' : CheckFault}
      (h : fault.relabel T.ident = fault') :
      Alike T related (.error ⟨position, fault⟩) (.error ⟨position', fault'⟩)

namespace Alike

variable {related : α → β → Prop}

theorem fail {position position' : Position} {fault fault' : CheckFault}
    (h : fault.relabel T.ident = fault') :
    Alike T related (Check.fail position fault) (Check.fail position' fault') :=
  .error h

theorem bind {further : γ → δ → Prop} {first : Except CheckError α}
    {first' : Except CheckError β} {next : α → Except CheckError γ}
    {next' : β → Except CheckError δ} (firsts : Alike T related first first')
    (nexts : ∀ a b, related a b → Alike T further (next a) (next' b)) :
    Alike T further (first >>= next) (first' >>= next') := by
  cases firsts with
  | ok h => exact nexts _ _ h
  | error h => exact .error h

theorem mono {wider : α → β → Prop} (sub : ∀ a b, related a b → wider a b)
    {first : Except CheckError α} {first' : Except CheckError β}
    (firsts : Alike T related first first') : Alike T wider first first' := by
  cases firsts with
  | ok h => exact .ok (sub _ _ h)
  | error h => exact .error h

end Alike

/-! ### Scopes -/

@[simp]
theorem inScope_cons (x : String) (kind : Kind) (scope : Scope) (name : String) :
    inScope ((x, kind) :: scope) name = (name == x || inScope scope name) := by
  simp only [inScope, List.lookup_cons]
  cases name == x <;> rfl

/-- A name agrees with the one that it becomes: as that of a variable they are both in scope or
both not, and one that is not in scope stays what it is; one that is called stays what it is. -/
def Fits (T : Transfer) (scope scope' : Scope) : Mention → Prop
  | .variable name =>
    inScope scope' (T.ident name) = inScope scope name ∧
      reservedWords.contains (T.ident name) = reservedWords.contains name ∧
        (inScope scope name = false → T.ident name = name)
  | .callee name => inScope scope' name = inScope scope name ∧ T.ident name = name

/-- Names agree as before with respect to scopes behind. -/
def Keeps (T : Transfer) (scope scope' after after' : Scope) : Prop :=
  ∀ m, Fits T scope scope' m → Fits T after after' m

theorem Keeps.refl {scope scope' : Scope} : Keeps T scope scope' scope scope' := fun _ => id

theorem Keeps.trans {scope scope' between between' after after' : Scope}
    (first : Keeps T scope scope' between between')
    (second : Keeps T between between' after after') :
    Keeps T scope scope' after after' := fun m fits => second m (first m fits)

/-- What comes into scope under its own name and under the one that that becomes. -/
theorem keeps_cons (x : String) (kind kind' : Kind) (scope scope' : Scope) :
    Keeps T scope scope' ((x, kind) :: scope) ((T.ident x, kind') :: scope') := by
  intro m fits
  cases m with
  | «variable» name =>
    obtain ⟨same, reserved, free⟩ := fits
    have matched : (T.ident name == T.ident x) = (name == x) := by
      rw [Bool.eq_iff_iff]
      simp [T.ident_injective.eq_iff]
    refine ⟨?_, reserved, fun unknown => free ?_⟩
    · rw [inScope_cons, inScope_cons, same, matched]
    · rw [inScope_cons] at unknown
      exact (Bool.or_eq_false_iff.mp unknown).2
  | callee name =>
    obtain ⟨same, kept⟩ := fits
    have matched : (name == T.ident x) = (name == x) := by
      rw [Bool.eq_iff_iff, beq_iff_eq, beq_iff_eq]
      constructor
      · intro named
        exact T.ident_injective (kept.trans named)
      · rintro rfl
        exact kept.symm
    refine ⟨?_, kept⟩
    rw [inScope_cons, inScope_cons, same, matched]

theorem define_alike {scope scope' : Scope} {x : String} (kind kind' : Kind)
    (position position' : Position) (fits : Fits T scope scope' (.variable x)) :
    Alike T (fun after after' => Keeps T scope scope' after after')
      (define scope x kind position) (define scope' (T.ident x) kind' position') := by
  obtain ⟨same, reserved, -⟩ := fits
  simp only [define, same, reserved]
  split
  · exact .fail rfl
  · split
    · exact .fail rfl
    · exact .ok (keeps_cons x kind kind' scope scope')

/-! ### Types -/

/-- Two contexts that look everything up alike, up to the references and marks in kinds. -/
structure Carried (T : Transfer) (context context' : Context Unit) : Prop where
  resolve : ∀ name, context'.resolve name = (context.resolve name).map (·.rename T.renames)
  known : ∀ note, context'.known note = (context.known note).map (·.rename T.renames)

@[simp]
theorem isPrimitive_rename (σ : Renaming) (kind : Kind) :
    (kind.rename σ).isPrimitive = kind.isPrimitive := by
  cases kind <;> rfl

section Trees

variable {context context' : Context Unit} (carried : Carried T context context')

include carried

theorem typeName_alike (type : TypeName Unit) :
    Alike T (fun checked checked' => checked' = checked.relabel T.labels)
      (typeName context type) (typeName context' (type.relabel T.parsedLabels)) := by
  have found : (context'.known (type.relabel T.parsedLabels).resolved <|>
      context'.resolve (type.relabel T.parsedLabels).name) =
      (context.known type.resolved <|> context.resolve type.name).map
        (·.rename T.renames) := by
    rw [carried.known, TypeName.name_relabel, carried.resolve]
    cases context.known type.resolved <;> rfl
  rw [typeName, typeName, found]
  cases context.known type.resolved <|> context.resolve type.name with
  | none => exact .fail rfl
  | some kind => exact .ok rfl

theorem reference?_relabel (name : String) :
    reference? context' name = (reference? context name).map (·.rename T.renames) := by
  rw [reference?, reference?, carried.resolve]
  cases context.resolve name with
  | none => rfl
  | some kind =>
    simp only [Option.map_some, Option.filter, isPrimitive_rename]
    split <;> rfl

/-! ### Dotted names -/

omit carried in
/-- The parts of a dotted name as they become. -/
def partsOf (T : Transfer) : List (String × Position) → List (String × Position)
  | [] => []
  | (first, position) :: rest =>
    (T.ident first, T.place position) :: rest.map (Prod.map id T.place)

omit carried in
theorem partsOf_append {parts : List (String × Position)} (proper : parts ≠ [])
    (part : String × Position) :
    partsOf T (parts ++ [part]) = partsOf T parts ++ [(part.1, T.place part.2)] := by
  cases parts with
  | nil => exact absurd rfl proper
  | cons first rest =>
    simp only [List.cons_append, partsOf, List.map_append, List.map_cons, List.map_nil]
    rfl

omit carried in
theorem chain?_proper {expr : Expr Value Unit} {parts : List (String × Position)}
    (h : chain? expr = some parts) : parts ≠ [] := by
  cases expr with
  | name position ident =>
    cases h
    exact List.cons_ne_nil _ _
  | field position receiver member =>
    rw [chain?] at h
    obtain ⟨parts, -, rfl⟩ := Option.map_eq_some_iff.mp h
    simp
  | _ => cases h

omit carried in
theorem chain?_relabel : ∀ expr : Expr Value Unit,
    chain? (expr.relabel T.parsedLabels) = (chain? expr).map (partsOf T)
  | .name .. => rfl
  | .field position receiver member => by
    rw [Expr.relabel, chain?, chain?, chain?_relabel receiver]
    cases inner : chain? receiver with
    | none => rfl
    | some parts =>
      simp only [Option.map_some, partsOf_append (chain?_proper inner)]
      rfl
  | .literal .. | .typeName .. | .methodCall .. | .call .. | .index .. | .unary ..
  | .step .. | .binary .. | .logical .. | .conditional .. | .assign .. | .cast ..
  | .instanceOf .. | .new .. => rfl

omit carried in
/-- The first part of a dotted name is a name of the expression. -/
theorem chain?_mentions {first : String} {position : Position} :
    ∀ {expr : Expr Value Unit} {rest : List (String × Position)},
      chain? expr = some ((first, position) :: rest) → .variable first ∈ expr.mentions
  | .name .., rest, h => by
    cases h
    simp [Expr.mentions]
  | .field _ receiver _, rest, h => by
    rw [chain?] at h
    obtain ⟨parts, inner, same⟩ := Option.map_eq_some_iff.mp h
    cases parts with
    | nil => exact absurd rfl (chain?_proper inner)
    | cons part others =>
      cases same
      have mentioned : .variable first ∈ receiver.mentions := chain?_mentions inner
      exact mentioned

omit carried in
/-- Dotted names do not depend on positions. -/
theorem dotted_moved (place : Position → Position) (parts : List (String × Position)) :
    dotted (parts.map (Prod.map id place)) = dotted parts := by
  simp [dotted, Function.comp_def]

theorem longest?_alike (parts : List (String × Position)) (count : Nat) :
    longest? context' (parts.map (Prod.map id T.place)) count =
      (longest? context parts count).map (Prod.map id (·.rename T.renames)) := by
  induction count with
  | zero => rfl
  | succ count ih =>
    rw [longest?, longest?, ← List.map_take, dotted_moved, reference?_relabel carried, ih]
    cases reference? context (dotted (parts.take (count + 1))) <;> rfl

omit carried in
theorem fields_relabel (parts : List (String × Position)) (expr : CheckedExpr) :
    fields (expr.relabel T.labels) (parts.map (Prod.map id T.place)) =
      (fields expr parts).relabel T.labels := by
  induction parts generalizing expr with
  | nil => rfl
  | cons part rest ih => exact ih (.field part.2 expr part.1)

/-- Parts whose first name stays what it is stand for what they have stood for. -/
theorem staticChain_alike {parts : List (String × Position)}
    (kept : ∀ first ∈ parts.head?, T.ident first.1 = first.1) :
    Alike T (fun checked checked' => checked' = checked.relabel T.labels)
      (staticChain context parts) (staticChain context' (partsOf T parts)) := by
  cases parts with
  | nil => exact .fail rfl
  | cons part rest =>
    obtain ⟨first, position⟩ := part
    have same : T.ident first = first := kept _ rfl
    have moved : partsOf T ((first, position) :: rest) =
        ((first, position) :: rest).map (Prod.map id T.place) := by
      rw [partsOf, same]
      rfl
    have found := longest?_alike carried ((first, position) :: rest)
      ((first, position) :: rest).length
    rw [moved]
    simp only [staticChain, List.map_cons, Prod.map, List.length_cons, List.length_map] at found ⊢
    rw [found]
    cases longest? context ((first, position) :: rest) (rest.length + 1) with
    | none => exact .fail (congrArg CheckFault.unknownVariable same)
    | some entry =>
      obtain ⟨count, kind⟩ := entry
      refine .ok ?_
      have back : (id first, T.place position) :: rest.map (Prod.map id T.place) =
        ((first, position) :: rest).map (Prod.map id T.place) := rfl
      rw [back, id, ← List.map_take, ← List.map_drop, dotted_moved, ← fields_relabel]
      rfl

omit carried in
theorem freeChain?_relabel {scope scope' : Scope} {expr : Expr Value Unit}
    (fits : ∀ m ∈ expr.mentions, Fits T scope scope' m) :
    freeChain? scope' (expr.relabel T.parsedLabels) =
      (freeChain? scope expr).map (partsOf T) := by
  rw [freeChain?, freeChain?, chain?_relabel]
  cases found : chain? expr with
  | none => rfl
  | some parts =>
    cases parts with
    | nil => rfl
    | cons part rest =>
      obtain ⟨first, position⟩ := part
      obtain ⟨same, -, -⟩ := fits (.variable first) (chain?_mentions found)
      simp only [Option.map_some, partsOf, Option.filter, same]
      split <;> rfl

/-- A dotted name that begins with no variable stands for what it has stood for. -/
theorem freeChain?_alike {scope scope' : Scope} {expr : Expr Value Unit}
    (fits : ∀ m ∈ expr.mentions, Fits T scope scope' m) {parts : List (String × Position)}
    (h : freeChain? scope expr = some parts) :
    Alike T (fun checked checked' => checked' = checked.relabel T.labels)
      (staticChain context parts) (staticChain context' (partsOf T parts)) := by
  refine staticChain_alike carried fun part first => ?_
  obtain ⟨found, free⟩ := Option.filter_eq_some_iff.mp h
  cases parts with
  | nil => cases first
  | cons other rest =>
    cases first
    obtain ⟨-, -, kept⟩ := fits (.variable part.1) (chain?_mentions found)
    exact kept (by simpa using free)

/-! ### Expressions -/

omit carried in
theorem isVariable_relabel (checked : CheckedExpr) :
    isVariable (checked.relabel T.labels) = isVariable checked := by
  cases checked <;> rfl

end Trees

section Statements

variable {context context' : Context Unit}

mutual

/-- **Checking a relabelled expression.** -/
theorem expression_alike (carried : Carried T context context') {scope scope' : Scope} :
    ∀ (expr : Expr Value Unit),
    (∀ m ∈ expr.mentions, Fits T scope scope' m) →
    Alike T (fun checked checked' => checked' = checked.relabel T.labels)
      (expression context scope expr)
      (expression context' scope' (expr.relabel T.parsedLabels))
  | .literal .., _ => .ok rfl
  | .name position ident, fits => by
    have found := freeChain?_relabel fits
    rw [Expr.relabel] at found ⊢
    rw [expression, expression, found]
    cases free : freeChain? scope (.name position ident : Expr Value Unit) with
    | none => exact .ok rfl
    | some parts => exact freeChain?_alike carried fits free
  | .typeName _ type, _ => by
    rw [Expr.relabel, expression, expression]
    refine .bind (typeName_alike carried type) fun checked checked' same => ?_
    subst same
    exact .ok rfl
  | .field position receiver member, fits => by
    have found := freeChain?_relabel fits
    rw [Expr.relabel] at found ⊢
    rw [expression, expression, found]
    cases free : freeChain? scope (.field position receiver member) with
    | none =>
      refine .bind (expression_alike carried receiver fits) fun checked checked' same => ?_
      subst same
      exact .ok rfl
    | some parts => exact freeChain?_alike carried fits free
  | .methodCall _ receiver _ args, fits => by
    obtain ⟨inReceiver, inArgs⟩ := List.forall_mem_append.mp fits
    rw [Expr.relabel, expression, expression]
    refine .bind (expression_alike carried receiver inReceiver) fun receiver receiver' same => ?_
    refine .bind (expressions_alike carried args inArgs) fun args args' same' => ?_
    subst same same'
    exact .ok rfl
  | .call _ callee args, fits => by
    obtain ⟨inCallee, inArgs⟩ := List.forall_mem_cons.mp fits
    obtain ⟨same, kept⟩ := inCallee
    rw [Expr.relabel, expression, expression, TypeName.name_relabel, same]
    split
    · exact .fail (congrArg CheckFault.calledVariable kept)
    · rw [reference?_relabel carried]
      cases reference? context callee.name with
      | none => exact .fail rfl
      | some kind =>
        refine .bind (expressions_alike carried args inArgs) fun args args' same => ?_
        subst same
        exact .ok rfl
  | .index _ container place, fits => by
    obtain ⟨inContainer, inPlace⟩ := List.forall_mem_append.mp fits
    rw [Expr.relabel, expression, expression]
    refine .bind (expression_alike carried container inContainer) fun container container' same => ?_
    refine .bind (expression_alike carried place inPlace) fun place place' same' => ?_
    subst same same'
    exact .ok rfl
  | .unary _ _ operand, fits => by
    rw [Expr.relabel, expression, expression]
    refine .bind (expression_alike carried operand fits) fun operand operand' same => ?_
    subst same
    exact .ok rfl
  | .step _ _ target _, fits => by
    rw [Expr.relabel, expression, expression]
    refine .bind (expression_alike carried target fits) fun checked checked' same => ?_
    subst same
    rw [isVariable_relabel]
    split
    · exact .ok rfl
    · exact .fail rfl
  | .binary _ _ left right, fits => by
    obtain ⟨inLeft, inRight⟩ := List.forall_mem_append.mp fits
    rw [Expr.relabel, expression, expression]
    refine .bind (expression_alike carried left inLeft) fun left left' same => ?_
    refine .bind (expression_alike carried right inRight) fun right right' same' => ?_
    subst same same'
    exact .ok rfl
  | .logical _ _ left right, fits => by
    obtain ⟨inLeft, inRight⟩ := List.forall_mem_append.mp fits
    rw [Expr.relabel, expression, expression]
    refine .bind (expression_alike carried left inLeft) fun left left' same => ?_
    refine .bind (expression_alike carried right inRight) fun right right' same' => ?_
    subst same same'
    exact .ok rfl
  | .conditional _ test thenValue elseValue, fits => by
    obtain ⟨inTest, inValues⟩ := List.forall_mem_append.mp fits
    obtain ⟨inThen, inElse⟩ := List.forall_mem_append.mp inValues
    rw [Expr.relabel, expression, expression]
    refine .bind (expression_alike carried test inTest) fun test test' same => ?_
    refine .bind (expression_alike carried thenValue inThen) fun thenValue thenValue' same' => ?_
    refine .bind (expression_alike carried elseValue inElse) fun elseValue elseValue' same'' => ?_
    subst same same' same''
    exact .ok rfl
  | .assign _ _ target value, fits => by
    obtain ⟨inTarget, inValue⟩ := List.forall_mem_append.mp fits
    rw [Expr.relabel, expression, expression]
    refine .bind (expression_alike carried target inTarget) fun checked checked' same => ?_
    subst same
    rw [isVariable_relabel]
    split
    · refine .bind (expression_alike carried value inValue) fun value value' same => ?_
      subst same
      exact .ok rfl
    · exact .fail rfl
  | .cast _ type operand, fits => by
    rw [Expr.relabel, expression, expression]
    refine .bind (typeName_alike carried type) fun type type' same => ?_
    refine .bind (expression_alike carried operand fits) fun operand operand' same' => ?_
    subst same same'
    exact .ok rfl
  | .instanceOf _ value type, fits => by
    rw [Expr.relabel, expression, expression]
    refine .bind (expression_alike carried value fits) fun value value' same => ?_
    refine .bind (typeName_alike carried type) fun type type' same' => ?_
    subst same same'
    rw [TypeName.resolved_relabel, Transfer.labels, isPrimitive_rename]
    split
    · exact .fail rfl
    · exact .ok rfl
  | .new _ type args, fits => by
    rw [Expr.relabel, expression, expression]
    refine .bind (typeName_alike carried type) fun type type' same => ?_
    subst same
    rw [TypeName.resolved_relabel, Transfer.labels, isPrimitive_rename]
    split
    · exact .fail rfl
    · refine .bind (expressions_alike carried args fits) fun args args' same => ?_
      subst same
      exact .ok rfl

theorem expressions_alike (carried : Carried T context context') {scope scope' : Scope} :
    ∀ (exprs : List (Expr Value Unit)),
    (∀ m ∈ Expr.mentionsOfAll exprs, Fits T scope scope' m) →
    Alike T (fun checked checked' => checked' = Expr.relabelAll T.labels checked)
      (expressions context scope exprs)
      (expressions context' scope' (Expr.relabelAll T.parsedLabels exprs))
  | [], _ => .ok rfl
  | expr :: rest, fits => by
    obtain ⟨inFirst, inRest⟩ := List.forall_mem_append.mp fits
    rw [Expr.relabelAll, expressions, expressions]
    refine .bind (expression_alike carried expr inFirst) fun first first' same => ?_
    refine .bind (expressions_alike carried rest inRest) fun rest rest' same' => ?_
    subst same same'
    exact .ok rfl

end

theorem expression?_alike (carried : Carried T context context') {scope scope' : Scope}
    (value : Option (Expr Value Unit))
    (fits : ∀ m ∈ value.elim [] Expr.mentions, Fits T scope scope' m) :
    Alike T (fun checked checked' => checked' = checked.map (·.relabel T.labels))
      (expression? context scope value)
      (expression? context' scope' (value.map (·.relabel T.parsedLabels))) := by
  cases value with
  | none => exact .ok rfl
  | some value =>
    refine .bind (expression_alike carried value fits) fun value value' same => ?_
    subst same
    exact .ok rfl

/-! ### Declarations -/

theorem declarators_alike (carried : Carried T context context') (kind kind' : Kind)
    (names : List (Declarator Value Unit)) {scope scope' : Scope}
    (fits : ∀ m ∈ names.flatMap Declarator.mentions, Fits T scope scope' m) :
    Alike T (fun out out' => out'.1 = out.1.map (·.relabel T.labels) ∧
        Keeps T scope scope' out.2 out'.2)
      (declarators context kind scope names)
      (declarators context' kind' scope' (names.map (·.relabel T.parsedLabels))) := by
  induction names generalizing scope scope' with
  | nil => exact .ok ⟨rfl, Keeps.refl⟩
  | cons declarator rest ih =>
    obtain ⟨position, name, value⟩ := declarator
    rw [List.flatMap_cons] at fits
    obtain ⟨inFirst, inRest⟩ := List.forall_mem_append.mp fits
    obtain ⟨inValue, inName⟩ := List.forall_mem_append.mp inFirst
    have fitsName : Fits T scope scope' (.variable name) := inName _ (List.mem_singleton_self _)
    rw [List.map_cons, declarators, declarators]
    refine .bind (expression?_alike carried value inValue) fun value value' same => ?_
    refine .bind (define_alike kind kind' position _ fitsName) fun after after' keeps => ?_
    refine .bind (ih fun m isIn => keeps m (inRest m isIn)) fun out out' ends => ?_
    obtain ⟨others, last⟩ := out
    obtain ⟨others', last'⟩ := out'
    obtain ⟨sameOthers, further⟩ := ends
    subst same sameOthers
    exact .ok ⟨rfl, keeps.trans further⟩

theorem placed_alike (carried : Carried T context context') {scope scope' : Scope}
    (values : List (Position × Expr Value Unit))
    (fits : ∀ m ∈ values.flatMap (·.2.mentions), Fits T scope scope' m) :
    Alike T (fun checked checked' => checked' = checked.map (relabelPlaced T.labels))
      (values.mapM fun value => do return (value.1, ← expression context scope value.2))
      ((values.map (relabelPlaced T.parsedLabels)).mapM fun value => do
        return (value.1, ← expression context' scope' value.2)) := by
  induction values with
  | nil => exact .ok rfl
  | cons value rest ih =>
    rw [List.flatMap_cons] at fits
    obtain ⟨inFirst, inRest⟩ := List.forall_mem_append.mp fits
    rw [List.map_cons, List.mapM_cons, List.mapM_cons]
    simp only [bind_assoc, pure_bind]
    refine .bind (expression_alike carried value.2 inFirst) fun first first' same => ?_
    subst same
    refine .bind (ih inRest) fun others others' same => ?_
    subst same
    exact .ok rfl

theorem forInit_alike (carried : Carried T context context') {scope scope' : Scope}
    (init : ForInit Value Unit) (fits : ∀ m ∈ init.mentions, Fits T scope scope' m) :
    Alike T (fun out out' => out'.1 = out.1.relabel T.labels ∧
        Keeps T scope scope' out.2 out'.2)
      (forInit context scope init)
      (forInit context' scope' (init.relabel T.parsedLabels)) := by
  cases init with
  | none => exact .ok ⟨rfl, Keeps.refl⟩
  | declaration position type names =>
    rw [ForInit.relabel, forInit, forInit]
    refine .bind (typeName_alike carried type) fun type type' same => ?_
    subst same
    refine .bind (declarators_alike carried _ _ names fits) fun out out' ends => ?_
    obtain ⟨others, last⟩ := out
    obtain ⟨others', last'⟩ := out'
    obtain ⟨same, keeps⟩ := ends
    subst same
    exact .ok ⟨rfl, keeps⟩
  | expressions values =>
    rw [ForInit.relabel, forInit, forInit]
    refine .bind (placed_alike carried values fits) fun values values' same => ?_
    subst same
    exact .ok ⟨rfl, Keeps.refl⟩

/-! ### Statements -/

theorem isStatement_relabel (expr : Expr Value Unit) :
    isStatement (expr.relabel T.parsedLabels) = isStatement expr := by
  cases expr <;> rfl

theorem refuseDeclaration_alike (stmt : Stmt Value Unit) :
    Alike T (fun _ _ => True) (refuseDeclaration stmt)
      (refuseDeclaration (stmt.relabel T.parsedLabels)) := by
  cases stmt with
  | declaration => exact .fail rfl
  | _ => exact .ok trivial

mutual

/-- **Checking a relabelled statement.** -/
theorem statement_alike (carried : Carried T context context') {inLoop : Bool} :
    ∀ (stmt : Stmt Value Unit) {scope scope' : Scope},
    (∀ m ∈ stmt.mentions, Fits T scope scope' m) →
    Alike T (fun out out' => out'.1 = out.1.relabel T.labels ∧
        Keeps T scope scope' out.2 out'.2)
      (statement context scope inLoop stmt)
      (statement context' scope' inLoop (stmt.relabel T.parsedLabels))
  | .block _ inner, _, _, fits => by
    rw [Stmt.relabel, statement, statement]
    refine .bind (statements_alike carried inner fits) fun inner inner' same => ?_
    subst same
    exact .ok ⟨rfl, Keeps.refl⟩
  | .empty _, _, _, _ => by
    rw [Stmt.relabel, statement, statement]
    exact .ok ⟨rfl, Keeps.refl⟩
  | .declaration _ type names, _, _, fits => by
    rw [Stmt.relabel, statement, statement]
    refine .bind (typeName_alike carried type) fun type type' same => ?_
    subst same
    refine .bind (declarators_alike carried _ _ names fits) fun out out' ends => ?_
    obtain ⟨others, last⟩ := out
    obtain ⟨others', last'⟩ := out'
    obtain ⟨same, keeps⟩ := ends
    subst same
    exact .ok ⟨rfl, keeps⟩
  | .expression _ value, _, _, fits => by
    rw [Stmt.relabel, statement, statement, isStatement_relabel]
    split
    · refine .bind (expression_alike carried value fits) fun value value' same => ?_
      subst same
      exact .ok ⟨rfl, Keeps.refl⟩
    · exact .fail rfl
  | .ifThen _ test thenBranch, _, _, fits => by
    obtain ⟨inTest, inThen⟩ := List.forall_mem_append.mp fits
    rw [Stmt.relabel, statement, statement]
    refine .bind (expression_alike carried test inTest) fun test test' same => ?_
    refine .bind (nested_alike carried thenBranch inThen) fun thenBranch thenBranch' same' => ?_
    subst same same'
    exact .ok ⟨rfl, Keeps.refl⟩
  | .ifThenElse _ test thenBranch elseBranch, _, _, fits => by
    obtain ⟨inTest, inBranches⟩ := List.forall_mem_append.mp fits
    obtain ⟨inThen, inElse⟩ := List.forall_mem_append.mp inBranches
    rw [Stmt.relabel, statement, statement]
    refine .bind (expression_alike carried test inTest) fun test test' same => ?_
    refine .bind (nested_alike carried thenBranch inThen) fun thenBranch thenBranch' same' => ?_
    refine .bind (nested_alike carried elseBranch inElse) fun elseBranch elseBranch' same'' => ?_
    subst same same' same''
    exact .ok ⟨rfl, Keeps.refl⟩
  | .whileLoop _ test body, _, _, fits => by
    obtain ⟨inTest, inBody⟩ := List.forall_mem_append.mp fits
    rw [Stmt.relabel, statement, statement]
    refine .bind (expression_alike carried test inTest) fun test test' same => ?_
    refine .bind (nested_alike carried body inBody) fun body body' same' => ?_
    subst same same'
    exact .ok ⟨rfl, Keeps.refl⟩
  | .doLoop _ body test, _, _, fits => by
    obtain ⟨inBody, inTest⟩ := List.forall_mem_append.mp fits
    rw [Stmt.relabel, statement, statement]
    refine .bind (nested_alike carried body inBody) fun body body' same => ?_
    refine .bind (expression_alike carried test inTest) fun test test' same' => ?_
    subst same same'
    exact .ok ⟨rfl, Keeps.refl⟩
  | .forLoop _ init test update body, _, _, fits => by
    obtain ⟨inInit, inRest⟩ := List.forall_mem_append.mp fits
    obtain ⟨inTest, inRest⟩ := List.forall_mem_append.mp inRest
    obtain ⟨inUpdate, inBody⟩ := List.forall_mem_append.mp inRest
    rw [Stmt.relabel, statement, statement]
    refine .bind (forInit_alike carried init inInit) fun out out' ends => ?_
    obtain ⟨init, inner⟩ := out
    obtain ⟨init', inner'⟩ := out'
    obtain ⟨sameInit, keeps⟩ := ends
    refine .bind (expression?_alike carried test fun m isIn => keeps m (inTest m isIn))
      fun test test' sameTest => ?_
    refine .bind (expressions_alike carried update fun m isIn => keeps m (inUpdate m isIn))
      fun update update' sameUpdate => ?_
    refine .bind (nested_alike carried body fun m isIn => keeps m (inBody m isIn))
      fun body body' sameBody => ?_
    subst sameInit sameTest sameUpdate sameBody
    exact .ok ⟨rfl, Keeps.refl⟩
  | .forEach _ type name iterable body, _, _, fits => by
    obtain ⟨inIterable, inRest⟩ := List.forall_mem_append.mp fits
    obtain ⟨inName, inBody⟩ := List.forall_mem_cons.mp inRest
    rw [Stmt.relabel, statement, statement]
    refine .bind (expression_alike carried iterable inIterable)
      fun iterable iterable' sameIterable => ?_
    refine .bind (typeName_alike carried type) fun type type' sameType => ?_
    refine .bind (define_alike _ _ _ _ inName) fun inner inner' keeps => ?_
    refine .bind (nested_alike carried body fun m isIn => keeps m (inBody m isIn))
      fun body body' sameBody => ?_
    subst sameIterable sameType sameBody
    exact .ok ⟨rfl, Keeps.refl⟩
  | .returns _ none, _, _, _ => by
    rw [Stmt.relabel, Option.map_none, statement, statement]
    exact .fail rfl
  | .returns _ (some value), _, _, fits => by
    rw [Stmt.relabel, statement, Option.map_some, statement]
    refine .bind (expression_alike carried value fits) fun value value' same => ?_
    subst same
    exact .ok ⟨rfl, Keeps.refl⟩
  | .breaks _, _, _, _ => by
    rw [Stmt.relabel, statement, statement]
    split
    · exact .ok ⟨rfl, Keeps.refl⟩
    · exact .fail rfl
  | .continues _, _, _, _ => by
    rw [Stmt.relabel, statement, statement]
    split
    · exact .ok ⟨rfl, Keeps.refl⟩
    · exact .fail rfl

theorem nested_alike (carried : Carried T context context') {inLoop : Bool} :
    ∀ (stmt : Stmt Value Unit) {scope scope' : Scope},
    (∀ m ∈ stmt.mentions, Fits T scope scope' m) →
    Alike T (fun checked checked' => checked' = checked.relabel T.labels)
      (nested context scope inLoop stmt)
      (nested context' scope' inLoop (stmt.relabel T.parsedLabels))
  | stmt, _, _, fits => by
    rw [nested, nested]
    refine .bind (refuseDeclaration_alike stmt) fun _ _ _ => ?_
    refine .bind (statement_alike carried stmt fits) fun out out' ends => ?_
    obtain ⟨checked, after⟩ := out
    obtain ⟨checked', after'⟩ := out'
    exact .ok ends.1

theorem statements_alike (carried : Carried T context context') {inLoop : Bool} :
    ∀ (stmts : List (Stmt Value Unit)) {scope scope' : Scope},
    (∀ m ∈ Stmt.mentionsOfAll stmts, Fits T scope scope' m) →
    Alike T (fun checked checked' => checked' = Stmt.relabelAll T.labels checked)
      (statements context scope inLoop stmts)
      (statements context' scope' inLoop (Stmt.relabelAll T.parsedLabels stmts))
  | [], _, _, _ => by
    rw [Stmt.relabelAll, statements, statements]
    exact .ok rfl
  | stmt :: rest, _, _, fits => by
    obtain ⟨inFirst, inRest⟩ := List.forall_mem_append.mp fits
    rw [Stmt.relabelAll, statements, statements]
    refine .bind (statement_alike carried stmt inFirst) fun out out' ends => ?_
    obtain ⟨first, after⟩ := out
    obtain ⟨first', after'⟩ := out'
    obtain ⟨same, keeps⟩ := ends
    refine .bind (statements_alike carried rest fun m isIn => keeps m (inRest m isIn))
      fun rest rest' same' => ?_
    subst same same'
    exact .ok rfl

end

/-! ### Bodies -/

/-- **Checking a relabelled body**, whose arguments have the name that theirs become. -/
theorem body_alike (carried : Carried T context context') {argsName : String}
    (reserved : reservedWords.contains (T.ident argsName) = reservedWords.contains argsName)
    (stmts : List (Stmt Value Unit))
    (fits : ∀ m ∈ Stmt.mentionsOfAll stmts,
      Fits T [(argsName, .core .object)] [(T.ident argsName, .core .object)] m) :
    Alike T (fun checked checked' => checked' = Stmt.relabelAll T.labels checked)
      (body context argsName stmts)
      (body context' (T.ident argsName) (Stmt.relabelAll T.parsedLabels stmts)) := by
  have defined (name : String) : define [] name (.core .object) Position.outside =
      if reservedWords.contains name then fail Position.outside (.reserved name)
      else .ok [(name, .core .object)] := rfl
  rw [body, body, defined, defined, reserved]
  split
  · exact .error rfl
  · have checks : Alike T (fun checked checked' => checked' = Stmt.relabelAll T.labels checked)
        (do
          let checked ← statements context [(argsName, .core .object)] false stmts
          if Stmt.allComplete checked then fail (lastPosition stmts) .missingReturn
          else return checked)
        (do
          let checked ← statements context' [(T.ident argsName, .core .object)] false
            (Stmt.relabelAll T.parsedLabels stmts)
          if Stmt.allComplete checked then
            fail (lastPosition (Stmt.relabelAll T.parsedLabels stmts)) .missingReturn
          else return checked) := by
      refine .bind (statements_alike carried stmts fits) fun checked checked' same => ?_
      subst same
      rw [Stmt.allComplete_relabel]
      split
      · exact .fail rfl
      · exact .ok rfl
    exact checks

end Statements


end Check

end Formulary
