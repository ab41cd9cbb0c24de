/-
How the variables of a run change.

A run changes its variables in two ways only: it assigns a value to a variable in
reach, and it declares a variable in the innermost block. Either way the value is one
that a cast or a conversion to the declared kind has given (`Kind.Takes`).

* `find?_setValue`, `find?_define` — what is found after each of the two.
* `Assigned` — a series of assignments; `Assigned.kind?` — it leaves every declared
  kind as it is.
* `Changed` — a series of assignments and declarations; `Changed.behind` — seen from
  outside of the innermost block it is a series of assignments.
-/

import Formulary.Proofs.Machine

namespace Formulary

/-! ### What is found -/

namespace Frame

theorem lookup_setValue (frame : Frame) (name other : String) (value : Value) :
    (frame.setValue name value).lookup other =
      if other = name then
        (frame.lookup name).map fun binding => { binding with value := some value }
      else frame.lookup other := by
  induction frame with
  | nil => simp [setValue]
  | cons first rest ih =>
    obtain ⟨key, binding⟩ := first
    by_cases hk : key = name
    · subst hk
      by_cases ho : other = key
      · subst ho
        simp [setValue]
      · have hne : (other == key) = false := by simpa using ho
        simp [setValue, List.lookup_cons, ho, hne]
    · by_cases ho : other = key
      · subst ho
        simp [setValue, hk]
      · have hne : (other == key) = false := by simpa using ho
        have hnk : (name == key) = false := by simpa using Ne.symm hk
        simp [setValue, List.lookup_cons, hk, hne, hnk, ih]

theorem lookup_define (frame : Frame) (name other : String) (binding : Binding) :
    (frame.define name binding).lookup other =
      if other = name then some binding else frame.lookup other := by
  induction frame with
  | nil =>
    by_cases ho : other = name
    · simp [define, ho]
    · have hne : (other == name) = false := by simpa using ho
      simp [define, List.lookup_cons, ho, hne]
  | cons first rest ih =>
    obtain ⟨key, old⟩ := first
    by_cases hk : key = name
    · subst hk
      by_cases ho : other = key
      · simp [define, ho]
      · have hne : (other == key) = false := by simpa using ho
        simp [define, List.lookup_cons, ho, hne]
    · by_cases ho : other = key
      · subst ho
        simp [define, hk]
      · have hne : (other == key) = false := by simpa using ho
        simp [define, List.lookup_cons, hk, hne, ih]

end Frame

namespace Environment

theorem find?_setValue (env : Environment) (name other : String) (value : Value) :
    (env.setValue name value).find? other =
      if other = name then
        (env.find? name).map fun binding => { binding with value := some value }
      else env.find? other := by
  induction env with
  | nil => simp [setValue, find?]
  | cons frame rest ih =>
    cases hf : frame.lookup name with
    | some binding =>
      have has : frame.has name = true := by simp [Frame.has, hf]
      simp only [setValue, has, if_true, find?, Frame.lookup_setValue, hf]
      by_cases ho : other = name
      · simp [ho]
      · simp [ho]
    | none =>
      have has : frame.has name = false := by simp [Frame.has, hf]
      have same : setValue name value (frame :: rest) = frame :: setValue name value rest := by
        simp [setValue, has]
      rw [same, find?, find?, find?, ih, hf]
      by_cases ho : other = name
      · subst ho
        simp [hf]
      · simp [ho]

theorem find?_define (env : Environment) (name other : String) (binding : Binding) :
    (env.define name binding).find? other =
      if other = name then some binding else env.find? other := by
  cases env with
  | nil =>
    by_cases ho : other = name
    · simp [define, find?, ho]
    · have hne : (other == name) = false := by simpa using ho
      simp [define, find?, List.lookup_cons, ho, hne]
  | cons frame rest =>
    simp only [define, find?, Frame.lookup_define]
    by_cases ho : other = name
    · simp [ho]
    · simp [ho]

/-- The declared kind of a variable. -/
def kind? (env : Environment) (name : String) : Option Kind :=
  (env.find? name).map (·.kind)

theorem kind?_setValue (env : Environment) (name other : String) (value : Value) :
    (env.setValue name value).kind? other = env.kind? other := by
  unfold kind?
  rw [find?_setValue]
  split
  · next h =>
    subst h
    cases env.find? other <;> rfl
  · rfl

theorem kind?_define (env : Environment) (name other : String) (binding : Binding) :
    (env.define name binding).kind? other =
      if other = name then some binding.kind else env.kind? other := by
  unfold kind?
  rw [find?_define]
  split <;> rfl

/-- A new block has no variables of its own. -/
@[simp] theorem kind?_block (env : Environment) (name : String) :
    kind? ([] :: env) name = env.kind? name := rfl

end Environment

/-! ### What variables take -/

/-- A value that a cast or a conversion to a kind has given. What stands in the place
of the operation may have been looked up in an earlier store. -/
inductive Kind.Takes (kind : Kind) (value : Value) : Prop
  | cast (looked before behind : Store) (input : Value)
      (given : (Dispatch.cast (kind.override? looked .cast) kind input).outcome before =
        (.ok value, behind)) : Takes kind value
  | convert (looked before behind : Store) (input : Value)
      (given : (Dispatch.convert (kind.override? looked .convert) kind input).outcome before =
        (.ok value, behind)) : Takes kind value

namespace Environment

/-- One assignment to a variable in reach. -/
inductive Assigns (env : Environment) : Environment → Prop
  | mk (name : String) (kind : Kind) (value : Value)
      (declared : env.kind? name = some kind) (taken : kind.Takes value) :
      Assigns env (env.setValue name value)

/-- One declaration in the innermost block. -/
inductive Declares (env : Environment) : Environment → Prop
  | mk (name : String) (kind : Kind) (value : Option Value)
      (taken : ∀ v, value = some v → kind.Takes v) :
      Declares env (env.define name ⟨kind, value⟩)

/-- A series of assignments. -/
def Assigned : Environment → Environment → Prop :=
  Relation.ReflTransGen Assigns

/-- A series of assignments and declarations. -/
def Changed : Environment → Environment → Prop :=
  Relation.ReflTransGen fun before behind => before.Assigns behind ∨ before.Declares behind

instance : IsPreorder Environment Assigned :=
  inferInstanceAs (IsPreorder _ (Relation.ReflTransGen _))

instance : IsPreorder Environment Changed :=
  inferInstanceAs (IsPreorder _ (Relation.ReflTransGen _))

theorem Assigned.changed {a b : Environment} (h : Assigned a b) : Changed a b :=
  Relation.ReflTransGen.mono (fun _ _ => Or.inl) _ _ h

/-- **Assignments leave every declared kind as it is.** -/
theorem Assigned.kind? {before behind : Environment} (h : Assigned before behind)
    (name : String) : behind.kind? name = before.kind? name := by
  induction h with
  | refl => rfl
  | tail _ last ih =>
    obtain ⟨other, _, value, _, _⟩ := last
    rw [kind?_setValue, ih]

/-- A declaration is one of the innermost block: the blocks around it stay. -/
theorem Declares.behind {frame : Frame} {env behind : Environment}
    (h : Declares (frame :: env) behind) : ∃ frame', behind = frame' :: env := by
  obtain ⟨name, kind, value, _⟩ := h
  exact ⟨_, rfl⟩

/-- An assignment is one to a variable of the innermost block or of the blocks around
it. -/
theorem Assigns.behind {frame : Frame} {env behind : Environment}
    (h : Assigns (frame :: env) behind) :
    ∃ frame' rest, behind = frame' :: rest ∧ Assigned env rest := by
  obtain ⟨name, kind, value, declared, taken⟩ := h
  by_cases has : frame.has name = true
  · exact ⟨frame.setValue name value, env, by simp [setValue, has], .refl⟩
  · have absent : frame.lookup name = none := by
      rwa [Frame.has, Bool.not_eq_true, Option.isSome_eq_false_iff,
        Option.isNone_iff_eq_none] at has
    have declared' : env.kind? name = some kind := by
      simpa [Environment.kind?, find?, absent] using declared
    exact ⟨frame, env.setValue name value, by simp [setValue, has],
      Relation.ReflTransGen.single ⟨name, kind, value, declared', taken⟩⟩

/-- **Seen from outside of the innermost block, all changes are assignments.** -/
theorem Changed.behind {frame : Frame} {env behind : Environment}
    (h : Changed (frame :: env) behind) :
    ∃ frame' rest, behind = frame' :: rest ∧ Assigned env rest := by
  induction h with
  | refl => exact ⟨frame, env, rfl, .refl⟩
  | tail _ last ih =>
    obtain ⟨frame₁, rest₁, rfl, assigned⟩ := ih
    rcases last with last | last
    · obtain ⟨frame₂, rest₂, rfl, further⟩ := last.behind
      exact ⟨frame₂, rest₂, rfl, Relation.ReflTransGen.trans assigned further⟩
    · obtain ⟨frame₂, rfl⟩ := last.behind
      exact ⟨frame₂, rest₁, rfl, assigned⟩

/-- A block that is left again leaves assignments behind. -/
theorem Changed.left {frame : Frame} {env behind : Environment}
    (h : Changed (frame :: env) behind) : Assigned env behind.tail := by
  obtain ⟨_, rest, rfl, assigned⟩ := h.behind
  exact assigned

end Environment

end Formulary
