/-
Expressions without their positions.

Where an expression stands makes no difference to how deep it is nested nor to what its literals
denote.

* `unplaced` — an expression without its positions, its literals changed.
* `unplaced_cast` and its like — an expression is what it is without its positions.
* `depth_unplaced`, `mapLiterals_unplaced`, `mapLiterals_read` — its depth and its literals.
-/

import Formulary.Syntax.Tree
import Mathlib

namespace Formulary.Expr

variable {α β γ ε τ : Type}

/-- A type name without its position. -/
def unplacedType (type : TypeName τ) : TypeName τ :=
  ⟨Position.start, type.name, type.resolved⟩

mutual

/-- An expression without its positions, its literals changed. -/
def unplaced (f : α → β) : Expr α τ → Expr β τ
  | .literal _ value => .literal Position.start (f value)
  | .name _ ident => .name Position.start ident
  | .typeName _ type => .typeName Position.start (unplacedType type)
  | .field _ receiver member => .field Position.start (receiver.unplaced f) member
  | .methodCall _ receiver method args =>
    .methodCall Position.start (receiver.unplaced f) method (allUnplaced f args)
  | .call _ callee args => .call Position.start (unplacedType callee) (allUnplaced f args)
  | .index _ container place =>
    .index Position.start (container.unplaced f) (place.unplaced f)
  | .unary _ op operand => .unary Position.start op (operand.unplaced f)
  | .step _ op target before => .step Position.start op (target.unplaced f) before
  | .binary _ op left right => .binary Position.start op (left.unplaced f) (right.unplaced f)
  | .logical _ op left right => .logical Position.start op (left.unplaced f) (right.unplaced f)
  | .conditional _ condition thenValue elseValue =>
    .conditional Position.start (condition.unplaced f) (thenValue.unplaced f)
      (elseValue.unplaced f)
  | .assign _ op target value =>
    .assign Position.start op (target.unplaced f) (value.unplaced f)
  | .cast _ type operand => .cast Position.start (unplacedType type) (operand.unplaced f)
  | .instanceOf _ value type =>
    .instanceOf Position.start (value.unplaced f) (unplacedType type)
  | .new _ type args => .new Position.start (unplacedType type) (allUnplaced f args)

def allUnplaced (f : α → β) : List (Expr α τ) → List (Expr β τ)
  | [] => []
  | expr :: rest => expr.unplaced f :: allUnplaced f rest

end

/-! ### What an expression is, up to its positions -/

section Shape

variable {f : α → β} {e : Expr α τ} {p : Position}

theorem unplaced_literal {value : β} (h : e.unplaced f = .literal p value) :
    ∃ q a, e = .literal q a ∧ f a = value := by
  cases e with
  | literal q a =>
    cases h
    exact ⟨q, a, rfl, rfl⟩
  | _ => cases h

theorem unplaced_name {ident : String} (h : e.unplaced f = .name p ident) :
    ∃ q, e = .name q ident := by
  cases e with
  | name q other =>
    cases h
    exact ⟨q, rfl⟩
  | _ => cases h

theorem unplaced_index {container place : Expr β τ}
    (h : e.unplaced f = .index p container place) :
    ∃ q first second, e = .index q first second ∧ first.unplaced f = container ∧
      second.unplaced f = place := by
  cases e with
  | index q first second =>
    cases h
    exact ⟨q, first, second, rfl, rfl, rfl⟩
  | _ => cases h

theorem unplaced_cast {type : TypeName τ} {operand : Expr β τ}
    (h : e.unplaced f = .cast p type operand) :
    ∃ q r inner, e = .cast q ⟨r, type.name, type.resolved⟩ inner ∧
      inner.unplaced f = operand := by
  cases e with
  | cast q other inner =>
    cases h
    exact ⟨q, other.position, inner, rfl, rfl⟩
  | _ => cases h

theorem unplaced_methodCall {receiver : Expr β τ} {method : String}
    (h : e.unplaced f = .methodCall p receiver method []) :
    ∃ q inner, e = .methodCall q inner method [] ∧ inner.unplaced f = receiver := by
  cases e with
  | methodCall q inner other args =>
    cases args with
    | nil =>
      cases h
      exact ⟨q, inner, rfl, rfl⟩
    | cons => cases h
  | _ => cases h

end Shape

mutual

theorem depth_unplaced (f : α → β) : ∀ e : Expr α τ, (e.unplaced f).depth = e.depth
  | .literal .. | .name .. | .typeName .. => rfl
  | .field _ receiver _ => by simp [unplaced, depth, depth_unplaced f receiver]
  | .methodCall _ receiver _ args => by
    simp [unplaced, depth, depth_unplaced f receiver, depth_allUnplaced f args]
  | .call _ _ args => by simp [unplaced, depth, depth_allUnplaced f args]
  | .index _ container place => by
    simp [unplaced, depth, depth_unplaced f container, depth_unplaced f place]
  | .unary _ _ operand => by simp [unplaced, depth, depth_unplaced f operand]
  | .step _ _ target _ => by simp [unplaced, depth, depth_unplaced f target]
  | .binary _ _ left right => by
    simp [unplaced, depth, depth_unplaced f left, depth_unplaced f right]
  | .logical _ _ left right => by
    simp [unplaced, depth, depth_unplaced f left, depth_unplaced f right]
  | .conditional _ condition thenValue elseValue => by
    simp [unplaced, depth, depth_unplaced f condition, depth_unplaced f thenValue,
      depth_unplaced f elseValue]
  | .assign _ _ target value => by
    simp [unplaced, depth, depth_unplaced f target, depth_unplaced f value]
  | .cast _ _ operand => by simp [unplaced, depth, depth_unplaced f operand]
  | .instanceOf _ value _ => by simp [unplaced, depth, depth_unplaced f value]
  | .new _ _ args => by simp [unplaced, depth, depth_allUnplaced f args]

theorem depth_allUnplaced (f : α → β) :
    ∀ es : List (Expr α τ), depthOfAll (allUnplaced f es) = depthOfAll es
  | [] => rfl
  | e :: es => by simp [allUnplaced, depthOfAll, depth_unplaced f e, depth_allUnplaced f es]

end

theorem map_of_bind {ε α β γ : Type} (x : Except ε α) (k : α → Except ε β) (f : β → γ) :
    (x >>= k).map f = x >>= fun a => (k a).map f := by
  cases x <;> rfl

theorem bind_of_map {ε α β γ : Type} (x : Except ε α) (f : α → β) (k : β → Except ε γ) :
    x.map f >>= k = x >>= fun a => k (f a) := by
  cases x <;> rfl

mutual

/-- The literals of an expression are read the same wherever they stand. -/
theorem mapLiterals_unplaced (g : α → Except ε β) : ∀ e : Expr α τ,
    (e.unplaced id).mapLiterals g = (e.mapLiterals g).map (unplaced id)
  | .literal _ value => by
    simp only [unplaced, mapLiterals, map_of_bind]
    rfl
  | .name .. | .typeName .. => rfl
  | .field _ receiver _ => by
    simp only [unplaced, mapLiterals, mapLiterals_unplaced g receiver, map_of_bind, bind_of_map]
    rfl
  | .methodCall _ receiver _ args => by
    simp only [unplaced, mapLiterals, mapLiterals_unplaced g receiver,
      mapLiterals_allUnplaced g args, map_of_bind, bind_of_map]
    rfl
  | .call _ _ args => by
    simp only [unplaced, mapLiterals, mapLiterals_allUnplaced g args, map_of_bind, bind_of_map]
    rfl
  | .index _ container place => by
    simp only [unplaced, mapLiterals, mapLiterals_unplaced g container,
      mapLiterals_unplaced g place, map_of_bind, bind_of_map]
    rfl
  | .unary _ _ operand => by
    simp only [unplaced, mapLiterals, mapLiterals_unplaced g operand, map_of_bind, bind_of_map]
    rfl
  | .step _ _ target _ => by
    simp only [unplaced, mapLiterals, mapLiterals_unplaced g target, map_of_bind, bind_of_map]
    rfl
  | .binary _ _ left right => by
    simp only [unplaced, mapLiterals, mapLiterals_unplaced g left, mapLiterals_unplaced g right,
      map_of_bind, bind_of_map]
    rfl
  | .logical _ _ left right => by
    simp only [unplaced, mapLiterals, mapLiterals_unplaced g left, mapLiterals_unplaced g right,
      map_of_bind, bind_of_map]
    rfl
  | .conditional _ condition thenValue elseValue => by
    simp only [unplaced, mapLiterals, mapLiterals_unplaced g condition,
      mapLiterals_unplaced g thenValue, mapLiterals_unplaced g elseValue, map_of_bind, bind_of_map]
    rfl
  | .assign _ _ target value => by
    simp only [unplaced, mapLiterals, mapLiterals_unplaced g target,
      mapLiterals_unplaced g value, map_of_bind, bind_of_map]
    rfl
  | .cast _ _ operand => by
    simp only [unplaced, mapLiterals, mapLiterals_unplaced g operand, map_of_bind, bind_of_map]
    rfl
  | .instanceOf _ value _ => by
    simp only [unplaced, mapLiterals, mapLiterals_unplaced g value, map_of_bind, bind_of_map]
    rfl
  | .new _ _ args => by
    simp only [unplaced, mapLiterals, mapLiterals_allUnplaced g args, map_of_bind, bind_of_map]
    rfl

theorem mapLiterals_allUnplaced (g : α → Except ε β) : ∀ es : List (Expr α τ),
    mapAllLiterals g (allUnplaced id es) = (mapAllLiterals g es).map (allUnplaced id)
  | [] => rfl
  | e :: es => by
    simp only [allUnplaced, mapAllLiterals, mapLiterals_unplaced g e,
      mapLiterals_allUnplaced g es, map_of_bind, bind_of_map]
    rfl

end

mutual

/-- Literals that are all read as what they stand for make the expression that they stand for. -/
theorem mapLiterals_read {f : α → β} {g : β → Except ε γ} {h : α → γ}
    (read : ∀ a, g (f a) = .ok (h a)) : ∀ e : Expr α τ,
    (e.unplaced f).mapLiterals g = .ok (e.unplaced h)
  | .literal _ value => by
    simp only [unplaced, mapLiterals, read]
    rfl
  | .name .. | .typeName .. => rfl
  | .field _ receiver _ => by
    simp only [unplaced, mapLiterals, mapLiterals_read read receiver]
    rfl
  | .methodCall _ receiver _ args => by
    simp only [unplaced, mapLiterals, mapLiterals_read read receiver,
      mapLiterals_allRead read args]
    rfl
  | .call _ _ args => by
    simp only [unplaced, mapLiterals, mapLiterals_allRead read args]
    rfl
  | .index _ container place => by
    simp only [unplaced, mapLiterals, mapLiterals_read read container, mapLiterals_read read place]
    rfl
  | .unary _ _ operand => by
    simp only [unplaced, mapLiterals, mapLiterals_read read operand]
    rfl
  | .step _ _ target _ => by
    simp only [unplaced, mapLiterals, mapLiterals_read read target]
    rfl
  | .binary _ _ left right => by
    simp only [unplaced, mapLiterals, mapLiterals_read read left, mapLiterals_read read right]
    rfl
  | .logical _ _ left right => by
    simp only [unplaced, mapLiterals, mapLiterals_read read left, mapLiterals_read read right]
    rfl
  | .conditional _ condition thenValue elseValue => by
    simp only [unplaced, mapLiterals, mapLiterals_read read condition,
      mapLiterals_read read thenValue, mapLiterals_read read elseValue]
    rfl
  | .assign _ _ target value => by
    simp only [unplaced, mapLiterals, mapLiterals_read read target, mapLiterals_read read value]
    rfl
  | .cast _ _ operand => by
    simp only [unplaced, mapLiterals, mapLiterals_read read operand]
    rfl
  | .instanceOf _ value _ => by
    simp only [unplaced, mapLiterals, mapLiterals_read read value]
    rfl
  | .new _ _ args => by
    simp only [unplaced, mapLiterals, mapLiterals_allRead read args]
    rfl

theorem mapLiterals_allRead {f : α → β} {g : β → Except ε γ} {h : α → γ}
    (read : ∀ a, g (f a) = .ok (h a)) : ∀ es : List (Expr α τ),
    mapAllLiterals g (allUnplaced f es) = .ok (allUnplaced h es)
  | [] => rfl
  | e :: es => by
    simp only [allUnplaced, mapAllLiterals, mapLiterals_read read e, mapLiterals_allRead read es]
    rfl

end

end Formulary.Expr
