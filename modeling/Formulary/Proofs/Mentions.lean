/-
The names of checked trees.

A check brings no names into a tree: what a checked tree looks up among the variables or declares
is what the tree has looked up or declared. (It may be less, since a dotted name may
turn out to name a type.)

* `Check.Ensures` — what a check guarantees when it goes well; kept by sequences.
* `Check.expression_mentions`, `Check.statement_mentions` — the names of what is checked.
-/

import Formulary.Check
import Formulary.Proofs.Relabeling

namespace Formulary.Check

variable {α β : Type}

/-- What a check guarantees when it goes well. -/
def Ensures (Q : α → Prop) (check : Except CheckError α) : Prop :=
  ∀ a, check = .ok a → Q a

namespace Ensures

variable {P : α → Prop} {Q : β → Prop}

theorem ok {a : α} (h : P a) : Ensures P (.ok a) := by
  intro b same
  cases same
  exact h

theorem fail (position : Position) (fault : CheckFault) :
    Ensures P (Check.fail position fault) := fun _ same => nomatch same

theorem bind {first : Except CheckError α} {next : α → Except CheckError β}
    (firsts : Ensures P first) (nexts : ∀ a, P a → Ensures Q (next a)) :
    Ensures Q (first >>= next) := by
  intro b same
  cases first with
  | error e => cases same
  | ok a => exact nexts a (firsts a rfl) b same

theorem anything (check : Except CheckError α) : Ensures (fun _ => True) check :=
  fun _ _ => trivial

end Ensures

/-! ### Expressions -/

theorem mentions_fields (parts : List (String × Position)) (expr : CheckedExpr) :
    (fields expr parts).mentions = expr.mentions := by
  induction parts generalizing expr with
  | nil => rfl
  | cons part rest ih => exact ih (.field part.2 expr part.1)

section Trees

variable {τ : Type} {context : Context τ} {P : Mention → Prop}

theorem staticChain_mentions (parts : List (String × Position)) :
    Ensures (fun checked => ∀ m ∈ checked.mentions, P m) (staticChain context parts) := by
  unfold staticChain
  split
  · exact .fail _ _
  · split
    · refine .ok ?_
      rw [mentions_fields]
      exact List.forall_mem_nil _
    · exact .fail _ _

mutual

theorem expression_mentions {scope : Scope} : ∀ expr : Expr Value τ,
    (∀ m ∈ expr.mentions, P m) →
    Ensures (fun checked => ∀ m ∈ checked.mentions, P m) (expression context scope expr)
  | .literal .., _ => by
    rw [expression]
    exact .ok (List.forall_mem_nil _)
  | .name .., all => by
    rw [expression]
    split
    · exact staticChain_mentions _
    · exact .ok all
  | .typeName .., _ => by
    rw [expression]
    exact .bind (.anything _) fun _ _ => .ok (List.forall_mem_nil _)
  | .field _ receiver _, all => by
    rw [expression]
    split
    · exact staticChain_mentions _
    · exact .bind (expression_mentions receiver all) fun _ kept => .ok kept
  | .methodCall _ receiver _ args, all => by
    obtain ⟨inReceiver, inArgs⟩ := List.forall_mem_append.mp all
    rw [expression]
    refine .bind (expression_mentions receiver inReceiver) fun receiver kept => ?_
    refine .bind (expressions_mentions args inArgs) fun args kept' => ?_
    exact .ok (List.forall_mem_append.mpr ⟨kept, kept'⟩)
  | .call _ _ args, all => by
    obtain ⟨inCallee, inArgs⟩ := List.forall_mem_cons.mp all
    rw [expression]
    split
    · exact .fail _ _
    · split
      · exact .fail _ _
      · refine .bind (expressions_mentions args inArgs) fun args kept => ?_
        exact .ok (List.forall_mem_cons.mpr ⟨inCallee, kept⟩)
  | .index _ container place, all => by
    obtain ⟨inContainer, inPlace⟩ := List.forall_mem_append.mp all
    rw [expression]
    refine .bind (expression_mentions container inContainer) fun container kept => ?_
    refine .bind (expression_mentions place inPlace) fun place kept' => ?_
    exact .ok (List.forall_mem_append.mpr ⟨kept, kept'⟩)
  | .unary _ _ operand, all => by
    rw [expression]
    exact .bind (expression_mentions operand all) fun _ kept => .ok kept
  | .step _ _ target _, all => by
    rw [expression]
    refine .bind (expression_mentions target all) fun _ kept => ?_
    split
    · exact .ok kept
    · exact .fail _ _
  | .binary _ _ left right, all => by
    obtain ⟨inLeft, inRight⟩ := List.forall_mem_append.mp all
    rw [expression]
    refine .bind (expression_mentions left inLeft) fun left kept => ?_
    refine .bind (expression_mentions right inRight) fun right kept' => ?_
    exact .ok (List.forall_mem_append.mpr ⟨kept, kept'⟩)
  | .logical _ _ left right, all => by
    obtain ⟨inLeft, inRight⟩ := List.forall_mem_append.mp all
    rw [expression]
    refine .bind (expression_mentions left inLeft) fun left kept => ?_
    refine .bind (expression_mentions right inRight) fun right kept' => ?_
    exact .ok (List.forall_mem_append.mpr ⟨kept, kept'⟩)
  | .conditional _ test thenValue elseValue, all => by
    obtain ⟨inTest, inValues⟩ := List.forall_mem_append.mp all
    obtain ⟨inThen, inElse⟩ := List.forall_mem_append.mp inValues
    rw [expression]
    refine .bind (expression_mentions test inTest) fun test kept => ?_
    refine .bind (expression_mentions thenValue inThen) fun thenValue kept' => ?_
    refine .bind (expression_mentions elseValue inElse) fun elseValue kept'' => ?_
    exact .ok (List.forall_mem_append.mpr ⟨kept, List.forall_mem_append.mpr ⟨kept', kept''⟩⟩)
  | .assign _ _ target value, all => by
    obtain ⟨inTarget, inValue⟩ := List.forall_mem_append.mp all
    rw [expression]
    refine .bind (expression_mentions target inTarget) fun target kept => ?_
    split
    · refine .bind (expression_mentions value inValue) fun value kept' => ?_
      exact .ok (List.forall_mem_append.mpr ⟨kept, kept'⟩)
    · exact .fail _ _
  | .cast _ _ operand, all => by
    rw [expression]
    exact .bind (.anything _) fun _ _ =>
      .bind (expression_mentions operand all) fun _ kept => .ok kept
  | .instanceOf _ value _, all => by
    rw [expression]
    refine .bind (expression_mentions value all) fun _ kept => .bind (.anything _) fun _ _ => ?_
    split
    · exact .fail _ _
    · exact .ok kept
  | .new _ _ args, all => by
    rw [expression]
    refine .bind (.anything _) fun _ _ => ?_
    split
    · exact .fail _ _
    · exact .bind (expressions_mentions args all) fun _ kept => .ok kept

theorem expressions_mentions {scope : Scope} : ∀ exprs : List (Expr Value τ),
    (∀ m ∈ Expr.mentionsOfAll exprs, P m) →
    Ensures (fun checked => ∀ m ∈ Expr.mentionsOfAll checked, P m)
      (expressions context scope exprs)
  | [], _ => by
    rw [expressions]
    exact .ok (List.forall_mem_nil _)
  | expr :: rest, all => by
    obtain ⟨inFirst, inRest⟩ := List.forall_mem_append.mp all
    rw [expressions]
    refine .bind (expression_mentions expr inFirst) fun first kept => ?_
    refine .bind (expressions_mentions rest inRest) fun rest kept' => ?_
    exact .ok (List.forall_mem_append.mpr ⟨kept, kept'⟩)

end

theorem expression?_mentions {scope : Scope} (value : Option (Expr Value τ))
    (all : ∀ m ∈ value.elim [] Expr.mentions, P m) :
    Ensures (fun checked => ∀ m ∈ checked.elim [] Expr.mentions, P m)
      (expression? context scope value) := by
  cases value with
  | none => exact .ok all
  | some value => exact .bind (expression_mentions value all) fun _ kept => .ok kept

/-! ### Declarations -/

theorem declarators_mentions {kind : Kind} (names : List (Declarator Value τ)) {scope : Scope}
    (all : ∀ m ∈ names.flatMap Declarator.mentions, P m) :
    Ensures (fun out => ∀ m ∈ out.1.flatMap Declarator.mentions, P m)
      (declarators context kind scope names) := by
  induction names generalizing scope with
  | nil => exact .ok (List.forall_mem_nil _)
  | cons declarator rest ih =>
    rw [List.flatMap_cons] at all
    obtain ⟨inFirst, inRest⟩ := List.forall_mem_append.mp all
    obtain ⟨inValue, inName⟩ := List.forall_mem_append.mp inFirst
    rw [declarators]
    refine .bind (expression?_mentions declarator.value inValue) fun value kept => ?_
    refine .bind (.anything _) fun _ _ => .bind (ih inRest) fun out kept' => .ok ?_
    rw [List.flatMap_cons]
    exact List.forall_mem_append.mpr ⟨List.forall_mem_append.mpr ⟨kept, inName⟩, kept'⟩

theorem placed_mentions {scope : Scope} (values : List (Position × Expr Value τ))
    (all : ∀ m ∈ values.flatMap (·.2.mentions), P m) :
    Ensures (fun checked : List (Position × CheckedExpr) =>
        ∀ m ∈ checked.flatMap (·.2.mentions), P m)
      (values.mapM fun value => do return (value.1, ← expression context scope value.2)) := by
  induction values with
  | nil => exact .ok (List.forall_mem_nil _)
  | cons value rest ih =>
    rw [List.flatMap_cons] at all
    obtain ⟨inFirst, inRest⟩ := List.forall_mem_append.mp all
    rw [List.mapM_cons]
    simp only [bind_assoc, pure_bind]
    refine .bind (expression_mentions value.2 inFirst) fun first kept => ?_
    refine .bind (ih inRest) fun others kept' => .ok ?_
    rw [List.flatMap_cons]
    exact List.forall_mem_append.mpr ⟨kept, kept'⟩

theorem forInit_mentions {scope : Scope} (init : ForInit Value τ)
    (all : ∀ m ∈ init.mentions, P m) :
    Ensures (fun out => ∀ m ∈ out.1.mentions, P m) (forInit context scope init) := by
  cases init with
  | none => exact .ok (List.forall_mem_nil _)
  | declaration position type names =>
    exact .bind (.anything _) fun _ _ => .bind (declarators_mentions names all) fun _ kept =>
      .ok kept
  | expressions values => exact .bind (placed_mentions values all) fun _ kept => .ok kept

/-! ### Statements -/

mutual

theorem statement_mentions {inLoop : Bool} : ∀ (stmt : Stmt Value τ) {scope : Scope},
    (∀ m ∈ stmt.mentions, P m) →
    Ensures (fun out => ∀ m ∈ out.1.mentions, P m) (statement context scope inLoop stmt)
  | .block _ inner, _, all => by
    rw [statement]
    exact .bind (statements_mentions inner all) fun _ kept => .ok kept
  | .empty _, _, _ => by
    rw [statement]
    exact .ok (List.forall_mem_nil _)
  | .declaration _ _ names, _, all => by
    rw [statement]
    exact .bind (.anything _) fun _ _ => .bind (declarators_mentions names all) fun _ kept =>
      .ok kept
  | .expression _ value, _, all => by
    rw [statement]
    split
    · exact .bind (expression_mentions value all) fun _ kept => .ok kept
    · exact .fail _ _
  | .ifThen _ test thenBranch, _, all => by
    obtain ⟨inTest, inThen⟩ := List.forall_mem_append.mp all
    rw [statement]
    refine .bind (expression_mentions test inTest) fun test kept => ?_
    refine .bind (nested_mentions thenBranch inThen) fun thenBranch kept' => .ok ?_
    exact List.forall_mem_append.mpr ⟨kept, kept'⟩
  | .ifThenElse _ test thenBranch elseBranch, _, all => by
    obtain ⟨inTest, inBranches⟩ := List.forall_mem_append.mp all
    obtain ⟨inThen, inElse⟩ := List.forall_mem_append.mp inBranches
    rw [statement]
    refine .bind (expression_mentions test inTest) fun test kept => ?_
    refine .bind (nested_mentions thenBranch inThen) fun thenBranch kept' => ?_
    refine .bind (nested_mentions elseBranch inElse) fun elseBranch kept'' => .ok ?_
    exact List.forall_mem_append.mpr ⟨kept, List.forall_mem_append.mpr ⟨kept', kept''⟩⟩
  | .whileLoop _ test body, _, all => by
    obtain ⟨inTest, inBody⟩ := List.forall_mem_append.mp all
    rw [statement]
    refine .bind (expression_mentions test inTest) fun test kept => ?_
    refine .bind (nested_mentions body inBody) fun body kept' => .ok ?_
    exact List.forall_mem_append.mpr ⟨kept, kept'⟩
  | .doLoop _ body test, _, all => by
    obtain ⟨inBody, inTest⟩ := List.forall_mem_append.mp all
    rw [statement]
    refine .bind (nested_mentions body inBody) fun body kept => ?_
    refine .bind (expression_mentions test inTest) fun test kept' => .ok ?_
    exact List.forall_mem_append.mpr ⟨kept, kept'⟩
  | .forLoop _ init test update body, _, all => by
    obtain ⟨inInit, inRest⟩ := List.forall_mem_append.mp all
    obtain ⟨inTest, inRest⟩ := List.forall_mem_append.mp inRest
    obtain ⟨inUpdate, inBody⟩ := List.forall_mem_append.mp inRest
    rw [statement]
    refine .bind (forInit_mentions init inInit) fun out keptInit => ?_
    refine .bind (expression?_mentions test inTest) fun test keptTest => ?_
    refine .bind (expressions_mentions update inUpdate) fun update keptUpdate => ?_
    refine .bind (nested_mentions body inBody) fun body keptBody => .ok ?_
    exact List.forall_mem_append.mpr ⟨keptInit, List.forall_mem_append.mpr ⟨keptTest,
      List.forall_mem_append.mpr ⟨keptUpdate, keptBody⟩⟩⟩
  | .forEach _ _ _ iterable body, _, all => by
    obtain ⟨inIterable, inRest⟩ := List.forall_mem_append.mp all
    obtain ⟨inName, inBody⟩ := List.forall_mem_cons.mp inRest
    rw [statement]
    refine .bind (expression_mentions iterable inIterable) fun iterable kept => ?_
    refine .bind (.anything _) fun _ _ => .bind (.anything _) fun _ _ => ?_
    refine .bind (nested_mentions body inBody) fun body kept' => .ok ?_
    exact List.forall_mem_append.mpr ⟨kept, List.forall_mem_cons.mpr ⟨inName, kept'⟩⟩
  | .returns _ none, _, _ => by
    rw [statement]
    exact .fail _ _
  | .returns _ (some value), _, all => by
    rw [statement]
    exact .bind (expression_mentions value all) fun _ kept => .ok kept
  | .breaks _, _, _ => by
    rw [statement]
    split
    · exact .ok (List.forall_mem_nil _)
    · exact .fail _ _
  | .continues _, _, _ => by
    rw [statement]
    split
    · exact .ok (List.forall_mem_nil _)
    · exact .fail _ _

theorem nested_mentions {inLoop : Bool} : ∀ (stmt : Stmt Value τ) {scope : Scope},
    (∀ m ∈ stmt.mentions, P m) →
    Ensures (fun checked => ∀ m ∈ checked.mentions, P m) (nested context scope inLoop stmt)
  | stmt, _, all => by
    rw [nested]
    exact .bind (.anything _) fun _ _ => .bind (statement_mentions stmt all) fun _ kept =>
      .ok kept

theorem statements_mentions {inLoop : Bool} : ∀ (stmts : List (Stmt Value τ)) {scope : Scope},
    (∀ m ∈ Stmt.mentionsOfAll stmts, P m) →
    Ensures (fun checked => ∀ m ∈ Stmt.mentionsOfAll checked, P m)
      (statements context scope inLoop stmts)
  | [], _, _ => by
    rw [statements]
    exact .ok (List.forall_mem_nil _)
  | stmt :: rest, _, all => by
    obtain ⟨inFirst, inRest⟩ := List.forall_mem_append.mp all
    rw [statements]
    refine .bind (statement_mentions stmt inFirst) fun out kept => ?_
    refine .bind (statements_mentions rest inRest) fun rest kept' => .ok ?_
    exact List.forall_mem_append.mpr ⟨kept, kept'⟩

end

end Trees

end Formulary.Check
