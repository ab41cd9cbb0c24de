/-
What dotted names stand for.

A dotted name in an expression begins with a variable, or its longest beginning that can be
resolved is a type or an object of the host. The check settles this for every dotted name that is
no beginning of a longer one, wherever it stands in the expression, and puts the outcome where the
name was.

* `Context.Denotes`, `LongestPrefix` — what the beginnings of a dotted name stand for.
* `expression_bound`, `expression_free` — names that begin with a variable, and others.
* `staticChain_longest`, `staticChain_unresolved` — the longest beginning, and none.
* `children_checked` — the check of an expression is that of its parts, one case for each form.
* `ChainAt`, `chainAt_checked` — a dotted name anywhere in an expression, by induction on the way to
  it.
-/

import Formulary.Proofs.Checking

namespace Formulary

/-! ### Parts of expressions -/

namespace Expr

variable {α τ : Type}

/-- The expressions right below an expression, in order. -/
def children : Expr α τ → List (Expr α τ)
  | .literal .. | .name .. | .typeName .. => []
  | .field _ receiver _ => [receiver]
  | .methodCall _ receiver _ args => receiver :: args
  | .call _ _ args => args
  | .index _ container place => [container, place]
  | .unary _ _ operand => [operand]
  | .step _ _ target _ => [target]
  | .binary _ _ left right | .logical _ _ left right => [left, right]
  | .conditional _ condition thenValue elseValue => [condition, thenValue, elseValue]
  | .assign _ _ target value => [target, value]
  | .cast _ _ operand => [operand]
  | .instanceOf _ value _ => [value]
  | .new _ _ args => args

/-- The expression at the end of a path, which counts parts. -/
def at? (expr : Expr α τ) : List Nat → Option (Expr α τ)
  | [] => some expr
  | place :: path => expr.children[place]?.bind fun part => part.at? path

end Expr

namespace Check

variable {τ : Type} {context : Context τ} {scope : Scope}

/-! ### Beginnings of dotted names -/

/-- What a name resolves to, other than a primitive type. -/
def Context.Denotes (context : Context τ) (name : String) (kind : Kind) : Prop :=
  context.resolve name = some kind ∧ kind.isPrimitive = false

/-- The longest beginning of a dotted name that denotes something. -/
structure LongestPrefix (context : Context τ) (parts : List (String × Position)) (count : Nat)
    (kind : Kind) : Prop where
  proper : 0 < count
  within : count ≤ parts.length
  denotes : context.Denotes (dotted (parts.take count)) kind
  longest : ∀ longer, count < longer → longer ≤ parts.length → ∀ other,
    ¬context.Denotes (dotted (parts.take longer)) other

theorem reference?_eq_some {name : String} {kind : Kind} :
    reference? context name = some kind ↔ context.Denotes name kind := by
  rw [reference?, Option.filter_eq_some_iff, Context.Denotes, Bool.not_eq_true']

theorem reference?_eq_none {name : String} :
    reference? context name = none ↔ ∀ kind, ¬context.Denotes name kind := by
  rw [Option.eq_none_iff_forall_ne_some]
  exact forall_congr' fun kind => not_congr reference?_eq_some

theorem longest?_longest {parts : List (String × Position)} {length : Nat} {kind : Kind}
    (proper : 0 < length) (denotes : context.Denotes (dotted (parts.take length)) kind) :
    ∀ {count : Nat}, length ≤ count →
      (∀ longer, length < longer → longer ≤ count → ∀ other,
        ¬context.Denotes (dotted (parts.take longer)) other) →
      longest? context parts count = some (length, kind)
  | 0, within, _ => absurd proper (Nat.not_lt.mpr within)
  | count + 1, within, noLonger => by
    rw [longest?]
    rcases Nat.eq_or_lt_of_le within with rfl | less
    · rw [reference?_eq_some.mpr denotes]
    · rw [reference?_eq_none.mpr (noLonger _ less (Nat.le_refl _))]
      exact longest?_longest proper denotes (Nat.le_of_lt_succ less) fun longer more most =>
        noLonger longer more (Nat.le_succ_of_le most)

theorem longest?_unresolved {parts : List (String × Position)} :
    ∀ {count : Nat},
      (∀ length, 0 < length → length ≤ count → ∀ kind,
        ¬context.Denotes (dotted (parts.take length)) kind) →
      longest? context parts count = none
  | 0, _ => rfl
  | count + 1, unresolved => by
    rw [longest?, reference?_eq_none.mpr (unresolved _ (Nat.succ_pos _) (Nat.le_refl _))]
    exact longest?_unresolved fun length proper within =>
      unresolved length proper (Nat.le_succ_of_le within)

theorem staticChain_longest {first : String} {position : Position}
    {rest : List (String × Position)} {count : Nat} {kind : Kind}
    (longest : LongestPrefix context ((first, position) :: rest) count kind) :
    staticChain context ((first, position) :: rest) =
      .ok (fields (.typeName position
        ⟨position, dotted (((first, position) :: rest).take count), kind⟩)
          (((first, position) :: rest).drop count)) := by
  rw [staticChain]
  rw [longest?_longest longest.proper longest.denotes longest.within longest.longest]

theorem staticChain_unresolved {first : String} {position : Position}
    {rest : List (String × Position)}
    (unresolved : ∀ count, 0 < count → count ≤ ((first, position) :: rest).length → ∀ kind,
      ¬context.Denotes (dotted (((first, position) :: rest).take count)) kind) :
    staticChain context ((first, position) :: rest) = fail position (.unknownVariable first) := by
  rw [staticChain]
  rw [longest?_unresolved unresolved]

/-! ### Dotted names by themselves -/

theorem chain?_nonempty {expr : Expr Value τ} {parts : List (String × Position)}
    (isChain : chain? expr = some parts) : parts ≠ [] := by
  cases expr with
  | name position ident =>
    cases isChain
    exact List.cons_ne_nil _ _
  | field position receiver member =>
    rw [chain?] at isChain
    obtain ⟨inner, -, rfl⟩ := Option.map_eq_some_iff.mp isChain
    exact List.append_ne_nil_of_right_ne_nil inner (List.cons_ne_nil _ _)
  | _ => cases isChain

theorem fields_append (expr : CheckedExpr) (parts more : List (String × Position)) :
    fields expr (parts.append more) = fields (fields expr parts) more :=
  List.foldl_append

theorem freeChain?_eq {expr : Expr Value τ} {first : String} {position : Position}
    {rest : List (String × Position)} (isChain : chain? expr = some ((first, position) :: rest)) :
    freeChain? scope expr =
      if inScope scope first then none else some ((first, position) :: rest) := by
  rw [freeChain?, isChain]
  cases bound : inScope scope first <;> simp [Option.filter, bound]

theorem freeChain?_none {expr : Expr Value τ} (noChain : chain? expr = none) :
    freeChain? scope expr = none := by
  rw [freeChain?, noChain]
  rfl

/-- **A dotted name that begins with a variable** in scope stays as it is. -/
theorem expression_bound {first : String} {position : Position}
    (bound : inScope scope first = true) :
    ∀ {expr : Expr Value τ} {rest : List (String × Position)},
      chain? expr = some ((first, position) :: rest) →
      expression context scope expr = .ok (fields (.name position first) rest)
  | .name .., rest, isChain => by
    rw [expression, freeChain?_eq isChain, if_pos bound]
    cases isChain
    rfl
  | .field place receiver member, rest, isChain => by
    rw [expression, freeChain?_eq isChain, if_pos bound]
    rw [chain?] at isChain
    obtain ⟨inner, isInner, same⟩ := Option.map_eq_some_iff.mp isChain
    obtain _ | ⟨part, inner⟩ := inner
    · exact absurd rfl (chain?_nonempty isInner)
    cases same
    rw [expression_bound bound isInner, fields_append]
    rfl

/-- A dotted name that begins with no variable is looked up. -/
theorem expression_free {expr : Expr Value τ} {first : String} {position : Position}
    {rest : List (String × Position)} (isChain : chain? expr = some ((first, position) :: rest))
    (free : inScope scope first = false) :
    expression context scope expr = staticChain context ((first, position) :: rest) := by
  have lookedUp : freeChain? scope expr = some ((first, position) :: rest) := by
    rw [freeChain?_eq isChain, free]
    rfl
  cases expr with
  | name => rw [expression, lookedUp]
  | field => rw [expression, lookedUp]
  | _ => cases isChain

/-! ### Dotted names in expressions -/

/-- Expressions in a row are checked one by one. -/
theorem expressions_ok : ∀ {exprs : List (Expr Value τ)} {checked : List CheckedExpr},
    expressions context scope exprs = .ok checked →
      List.Forall₂ (expression context scope · = .ok ·) exprs checked
  | [], _, h => by
    rw [expressions] at h
    cases h
    exact .nil
  | _ :: _, _, h => by
    rw [expressions] at h
    obtain ⟨_, firstOk, h⟩ := bind_ok.mp h
    obtain ⟨_, restOk, h⟩ := bind_ok.mp h
    cases h
    exact .cons firstOk (expressions_ok restOk)

/-- **The parts of a checked expression** are its checked parts, unless it is a dotted name. -/
theorem children_checked {expr : Expr Value τ} {checked : CheckedExpr}
    (noChain : chain? expr = none) (h : expression context scope expr = .ok checked) :
    List.Forall₂ (expression context scope · = .ok ·) expr.children checked.children := by
  cases expr with
  | literal =>
    rw [expression] at h
    cases h
    exact .nil
  | name => cases noChain
  | typeName =>
    rw [expression] at h
    obtain ⟨_, -, h⟩ := bind_ok.mp h
    cases h
    exact .nil
  | field =>
    rw [expression, freeChain?_none noChain] at h
    obtain ⟨_, receiverOk, h⟩ := bind_ok.mp h
    cases h
    exact .cons receiverOk .nil
  | methodCall =>
    rw [expression] at h
    obtain ⟨_, receiverOk, h⟩ := bind_ok.mp h
    obtain ⟨_, argsOk, h⟩ := bind_ok.mp h
    cases h
    exact .cons receiverOk (expressions_ok argsOk)
  | call =>
    rw [expression] at h
    split at h
    · simp at h
    · split at h
      · simp at h
      · obtain ⟨_, argsOk, h⟩ := bind_ok.mp h
        cases h
        exact expressions_ok argsOk
  | index =>
    rw [expression] at h
    obtain ⟨_, containerOk, h⟩ := bind_ok.mp h
    obtain ⟨_, placeOk, h⟩ := bind_ok.mp h
    cases h
    exact .cons containerOk (.cons placeOk .nil)
  | unary =>
    rw [expression] at h
    obtain ⟨_, operandOk, h⟩ := bind_ok.mp h
    cases h
    exact .cons operandOk .nil
  | step =>
    rw [expression] at h
    obtain ⟨_, targetOk, h⟩ := bind_ok.mp h
    split at h
    · cases h
      exact .cons targetOk .nil
    · simp at h
  | binary =>
    rw [expression] at h
    obtain ⟨_, leftOk, h⟩ := bind_ok.mp h
    obtain ⟨_, rightOk, h⟩ := bind_ok.mp h
    cases h
    exact .cons leftOk (.cons rightOk .nil)
  | logical =>
    rw [expression] at h
    obtain ⟨_, leftOk, h⟩ := bind_ok.mp h
    obtain ⟨_, rightOk, h⟩ := bind_ok.mp h
    cases h
    exact .cons leftOk (.cons rightOk .nil)
  | conditional =>
    rw [expression] at h
    obtain ⟨_, testOk, h⟩ := bind_ok.mp h
    obtain ⟨_, thenOk, h⟩ := bind_ok.mp h
    obtain ⟨_, elseOk, h⟩ := bind_ok.mp h
    cases h
    exact .cons testOk (.cons thenOk (.cons elseOk .nil))
  | assign =>
    rw [expression] at h
    obtain ⟨_, targetOk, h⟩ := bind_ok.mp h
    split at h
    · obtain ⟨_, valueOk, h⟩ := bind_ok.mp h
      cases h
      exact .cons targetOk (.cons valueOk .nil)
    · simp at h
  | cast =>
    rw [expression] at h
    obtain ⟨_, -, h⟩ := bind_ok.mp h
    obtain ⟨_, operandOk, h⟩ := bind_ok.mp h
    cases h
    exact .cons operandOk .nil
  | instanceOf =>
    rw [expression] at h
    obtain ⟨_, valueOk, h⟩ := bind_ok.mp h
    obtain ⟨_, -, h⟩ := bind_ok.mp h
    split at h
    · simp at h
    · cases h
      exact .cons valueOk .nil
  | new =>
    rw [expression] at h
    obtain ⟨_, -, h⟩ := bind_ok.mp h
    split at h
    · simp at h
    · obtain ⟨_, argsOk, h⟩ := bind_ok.mp h
      cases h
      exact expressions_ok argsOk

/-- A dotted name stands at the end of a path in an expression, and is no beginning of a longer
one: no expression around it is a dotted name. -/
inductive ChainAt : Expr Value τ → List Nat → Expr Value τ → Prop
  | here {expr : Expr Value τ} (isChain : (chain? expr).isSome) : ChainAt expr [] expr
  | inside {outer inner chain : Expr Value τ} {place : Nat} {path : List Nat}
      (noChain : chain? outer = none) (isPart : outer.children[place]? = some inner)
      (stands : ChainAt inner path chain) : ChainAt outer (place :: path) chain

/-- **Wherever a dotted name stands** in a checked expression, what the check has made of it stands
in its place. -/
theorem chainAt_checked {expr chain : Expr Value τ} {path : List Nat}
    (stands : ChainAt expr path chain) {checked : CheckedExpr}
    (h : expression context scope expr = .ok checked) :
    ∃ settled, expression context scope chain = .ok settled ∧
      checked.at? path = some settled := by
  induction stands generalizing checked with
  | here => exact ⟨checked, h, by rw [Expr.at?]⟩
  | @inside outer inner chain place path noChain isPart stands ih =>
    obtain ⟨less, isInner⟩ := List.getElem?_eq_some_iff.mp isPart
    have parts := children_checked noChain h
    have less' := parts.length_eq ▸ less
    have innerOk := parts.get less less'
    rw [List.get_eq_getElem, isInner] at innerOk
    obtain ⟨settled, settledOk, found⟩ := ih innerOk
    refine ⟨settled, settledOk, ?_⟩
    rw [Expr.at?, List.getElem?_eq_getElem less']
    exact found

end Check

end Formulary
