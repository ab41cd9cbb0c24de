/-
Substitution in one sweep.

Every declaration makes a pass of its own over what the passes before it have written. As
long as no declared name is a run of an access, no pass finds anything in the text that an
earlier one has inserted, and all passes together change every run of the body once, by its
binding.

* `Signature.bind_find?` — the binding of a name is the first declaration of it.
* `Substitution.substitute_passes` — the passes as one change of runs.
* `Substitution.substitute_bindings` — the same by the table of bindings; the order of
  declarations of different names does not matter, and repeated ones do not either.
-/

import Formulary.Proofs.Runs
import Formulary.Substitution

namespace Formulary

/-! ### Bindings -/

namespace Signature

/-- The declaration of a name that is not taken is the first one among all. -/
theorem bindFresh_find? (taken : List (List Char)) (declarations : List Declaration)
    {name : List Char} (free : name ∉ taken) :
    (bindFresh taken declarations).find? (·.name == name) =
      declarations.find? (·.name == name) := by
  induction declarations generalizing taken with
  | nil => rfl
  | cons declaration rest ih =>
    rw [bindFresh]
    by_cases same : declaration.name = name
    · subst same
      have absent : ¬taken.contains declaration.name = true := by simpa using free
      rw [if_neg absent, List.find?_cons_of_pos (by simp), List.find?_cons_of_pos (by simp)]
    · have skip : ∀ others : List Declaration,
          (declaration :: others).find? (·.name == name) = others.find? (·.name == name) :=
        fun others => List.find?_cons_of_neg (by simpa using same)
      rw [skip]
      split
      · exact ih taken free
      · rw [skip]
        refine ih _ fun isTaken => ?_
        rcases List.mem_cons.mp isTaken with rfl | isTaken
        · exact same rfl
        · exact free isTaken

/-- **The binding of a name is the first declaration of it.** -/
theorem bind_find? (declarations : List Declaration) (name : List Char) :
    (bind declarations).find? (·.name == name) = declarations.find? (·.name == name) :=
  bindFresh_find? [] declarations List.not_mem_nil

theorem bindFresh_subset (taken : List (List Char)) (declarations : List Declaration) :
    bindFresh taken declarations ⊆ declarations := by
  induction declarations generalizing taken with
  | nil => exact List.Subset.refl _
  | cons declaration rest ih =>
    rw [bindFresh]
    split
    · exact List.subset_cons_of_subset _ (ih taken)
    · exact List.cons_subset_cons _ (ih _)

end Signature

namespace Substitution

open Text (Plain mapRuns runs)

variable {table : TypeTable} {argsName : List Char} {declarations : List Declaration}

/-! ### Passes -/

/-- What a run is changed into: the access of the first declaration of its name. -/
def changed (table : TypeTable) (argsName : List Char) (declarations : List Declaration)
    (run : List Char) : List Char :=
  match declarations.find? (·.name == run) with
  | some declaration => access table argsName declaration
  | none => run

theorem changed_congr {others : List Declaration} {run : List Char}
    (same : declarations.find? (·.name == run) = others.find? (·.name == run)) :
    changed table argsName declarations run = changed table argsName others run := by
  rw [changed, changed, same]

theorem changed_absent {run : List Char}
    (absent : ∀ declaration ∈ declarations, declaration.name ≠ run) :
    changed table argsName declarations run = run := by
  have none : declarations.find? (·.name == run) = none :=
    List.find?_eq_none.mpr fun declaration isIn => by simpa using absent declaration isIn
  rw [changed, none]

/-- Declarations whose names are without boundary characters, and none of them a run of an
access that is inserted. -/
structure Apart (table : TypeTable) (argsName : List Char)
    (declarations : List Declaration) : Prop where
  plain : ∀ declaration ∈ declarations, Plain declaration.name
  distinct : ∀ declaration ∈ declarations, ∀ inserted ∈ declarations,
    declaration.name ∉ runs (access table argsName inserted)

theorem Apart.subset {others : List Declaration} (apart : Apart table argsName declarations)
    (sub : others ⊆ declarations) : Apart table argsName others where
  plain declaration isIn := apart.plain declaration (sub isIn)
  distinct declaration isIn inserted isInserted :=
    apart.distinct declaration (sub isIn) inserted (sub isInserted)

/-- **The passes of all declarations change every run once.** -/
theorem substitute_passes (apart : Apart table argsName declarations) (body : List Char) :
    substitute table argsName declarations body =
      mapRuns (changed table argsName declarations) body := by
  induction declarations generalizing body with
  | nil => exact (Text.mapRuns_id body).symm
  | cons declaration rest ih =>
    have first : declaration ∈ declaration :: rest := List.mem_cons_self
    have pass : substitute table argsName (declaration :: rest) body =
        substitute table argsName rest
          (Text.replaceFree declaration.name (access table argsName declaration) body) := rfl
    rw [pass, ih (apart.subset (List.subset_cons_self _ _)),
      Text.replaceFree_eq_mapRuns _ (apart.plain declaration first), Text.mapRuns_mapRuns]
    refine Text.mapRuns_congr fun run isRun => ?_
    obtain ⟨nonempty, plain, _⟩ := Text.mem_runs.mp isRun
    by_cases same : run = declaration.name
    · subst same
      rw [if_pos rfl]
      -- No later pass finds a name in the access.
      have kept : mapRuns (changed table argsName rest) (access table argsName declaration) =
          access table argsName declaration := by
        refine Text.mapRuns_same fun run isRun => changed_absent fun other isIn => ?_
        rintro rfl
        exact apart.distinct other (List.mem_cons_of_mem _ isIn) declaration first isRun
      rw [kept, changed, List.find?_cons_of_pos (by simp)]
    · rw [if_neg same]
      rw [Text.mapRuns_word nonempty plain]
      exact changed_congr (List.find?_cons_of_neg (by simpa using Ne.symm same)).symm

/-- **Substitution in passes is substitution in one sweep by the bindings.** Every run of the
body that is bound is changed into the access of its binding, the first declaration of its
name, and every other character stays. So the order of declarations does not matter as long
as the first one of each name stays the first, and a repeated declaration changes nothing. -/
theorem substitute_bindings (apart : Apart table argsName declarations) (body : List Char) :
    substitute table argsName declarations body =
        mapRuns (changed table argsName (Signature.bind declarations)) body ∧
      (∀ reordered : List Declaration, reordered.Perm declarations →
        (∀ name, reordered.find? (·.name == name) = declarations.find? (·.name == name)) →
        substitute table argsName reordered body =
          substitute table argsName declarations body) ∧
      substitute table argsName (Signature.bind declarations) body =
        substitute table argsName declarations body := by
  have bound : ∀ run, changed table argsName (Signature.bind declarations) run =
      changed table argsName declarations run :=
    fun run => changed_congr (Signature.bind_find? declarations run)
  refine ⟨?_, fun reordered perm sameFirst => ?_, ?_⟩
  · rw [substitute_passes apart]
    exact Text.mapRuns_congr fun run _ => (bound run).symm
  · rw [substitute_passes apart, substitute_passes (apart.subset perm.subset)]
    exact Text.mapRuns_congr fun run _ => changed_congr (sameFirst run)
  · have sub : Signature.bind declarations ⊆ declarations :=
      Signature.bindFresh_subset [] declarations
    rw [substitute_passes apart, substitute_passes (apart.subset sub)]
    exact Text.mapRuns_congr fun run _ => bound run

/-- The parameters `double x, Integer y, long x`. -/
def repeatedName : List Declaration :=
  [⟨0, "x".toList, "double".toList⟩, ⟨1, "y".toList, "Integer".toList⟩,
    ⟨2, "x".toList, "long".toList⟩]

/-- The parameters `Integer y, double x, long x`, with the same places. -/
def repeatedNameReordered : List Declaration :=
  [⟨1, "y".toList, "Integer".toList⟩, ⟨0, "x".toList, "double".toList⟩,
    ⟨2, "x".toList, "long".toList⟩]

theorem repeatedName_substitute :
    Apart .standard "args".toList repeatedName ∧
      substitute .standard "args".toList repeatedName "x*y + xb.x[y]".toList =
        mapRuns (changed .standard "args".toList (Signature.bind repeatedName))
          "x*y + xb.x[y]".toList ∧
      mapRuns (changed .standard "args".toList (Signature.bind repeatedName))
          "x*y + xb.x[y]".toList =
        "((double) args[0])*(((Integer) args[1]).intValue()) + xb.x[y]".toList ∧
      substitute .standard "args".toList repeatedNameReordered "x*y + xb.x[y]".toList =
        substitute .standard "args".toList repeatedName "x*y + xb.x[y]".toList := by
  have apart : Apart .standard "args".toList repeatedName := by
    have only : ∀ declaration ∈ repeatedName, declaration = ⟨0, "x".toList, "double".toList⟩ ∨
        declaration = ⟨1, "y".toList, "Integer".toList⟩ ∨
        declaration = ⟨2, "x".toList, "long".toList⟩ := by simp [repeatedName]
    constructor
    · intro declaration isIn
      rcases only declaration isIn with rfl | rfl | rfl <;> decide
    · intro declaration isIn inserted isInserted
      rcases only declaration isIn with rfl | rfl | rfl <;>
        rcases only inserted isInserted with rfl | rfl | rfl <;> decide
  have perm : repeatedNameReordered.Perm repeatedName := List.Perm.swap _ _ _
  have sameFirst : ∀ name, repeatedNameReordered.find? (·.name == name) =
      repeatedName.find? (·.name == name) := by
    intro name
    by_cases isX : "x".toList = name
    · subst isX
      decide
    · have noX : ("x".toList == name) = false := beq_false_of_ne isX
      simp only [repeatedName, repeatedNameReordered, List.find?, noX]
  have all := substitute_bindings apart "x*y + xb.x[y]".toList
  exact ⟨apart, all.1, by decide, all.2.1 _ perm sameFirst⟩

end Substitution

end Formulary
