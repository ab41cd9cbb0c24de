/-
Reading a check that has gone well.

A check is a sequence of smaller ones, and it goes well when all of them do. These are
the rules by which the success of a check is taken apart.

* `bind_ok`, `bind_error`, `pure_ok`, `fail_ok` — sequences, results and refusals.
* `typeName_ok`, `define_ok` — a type that is resolved, a variable that comes into scope.
* `nested_ok` — a statement under another one is checked by itself and is no declaration.
-/

import Formulary.Check
import Mathlib

namespace Formulary.Check

section Results

variable {ε α β : Type}

/-- A sequence of checks goes well exactly when both of them do. -/
theorem bind_ok {first : Except ε α} {next : α → Except ε β} {b : β} :
    first >>= next = .ok b ↔ ∃ a, first = .ok a ∧ next a = .ok b := by
  cases first with
  | error e =>
    constructor
    · intro h
      cases h
    · rintro ⟨_, h, _⟩
      cases h
  | ok a =>
    constructor
    · intro h
      exact ⟨a, rfl, h⟩
    · rintro ⟨_, h, h'⟩
      cases h
      exact h'

/-- It goes wrong exactly when one of them does, the first one before the second one. -/
theorem bind_error {first : Except ε α} {next : α → Except ε β} {e : ε} :
    first >>= next = .error e ↔ first = .error e ∨ ∃ a, first = .ok a ∧ next a = .error e := by
  cases first with
  | error e' =>
    constructor
    · intro h
      cases h
      exact .inl rfl
    · rintro (h | ⟨_, h, _⟩)
      · cases h
        rfl
      · cases h
  | ok a =>
    constructor
    · intro h
      exact .inr ⟨a, rfl, h⟩
    · rintro (h | ⟨_, h, h'⟩)
      · cases h
      · cases h
        exact h'

theorem pure_ok {a b : α} : (pure a : Except ε α) = .ok b ↔ a = b := by
  constructor
  · intro h
    cases h
    rfl
  · rintro rfl
    rfl

@[simp] theorem fail_ok {position : Position} {fault : CheckFault} {a : α} :
    (fail position fault : Except CheckError α) = .ok a ↔ False :=
  ⟨fun h => (nomatch h), False.elim⟩

end Results

variable {τ : Type} {context : Context τ}

/-- A type that is known already, or that its name resolves to. -/
def Resolved (context : Context τ) (type : TypeName Kind) : Prop :=
  context.resolve type.name = some type.resolved ∨
    ∃ note, context.known note = some type.resolved

theorem typeName_ok {type : TypeName τ} {resolved : TypeName Kind}
    (h : typeName context type = .ok resolved) : Resolved context resolved := by
  unfold typeName at h
  split at h
  · next kind found =>
    cases h
    cases known : context.known type.resolved with
    | some _ =>
      rw [known] at found
      exact .inr ⟨type.resolved, known.trans found⟩
    | none =>
      rw [known] at found
      exact .inl found
  · simp at h

theorem define_ok {scope after : Scope} {name : String} {kind : Kind}
    {position : Position} (h : define scope name kind position = .ok after) :
    after = (name, kind) :: scope ∧ inScope scope name = false := by
  unfold define at h
  split at h
  · simp at h
  · next fresh =>
    split at h
    · simp at h
    · cases h
      exact ⟨rfl, by simpa using fresh⟩

theorem nested_ok {scope : Scope} {inLoop : Bool} {inner : Stmt Value τ}
    {checked : CheckedStmt} (h : nested context scope inLoop inner = .ok checked) :
    refuseDeclaration inner = .ok () ∧
      ∃ after, statement context scope inLoop inner = .ok (checked, after) := by
  rw [nested] at h
  obtain ⟨_, allowed, h⟩ := bind_ok.mp h
  obtain ⟨⟨checked', after⟩, ok, h⟩ := bind_ok.mp h
  cases pure_ok.mp h
  exact ⟨allowed, after, ok⟩

end Formulary.Check
