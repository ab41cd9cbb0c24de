/-
Runs that are carried over.

A transfer renames the references, marks and variables of a run, and lets the second run have
variables that the first one lacks: a piece of an environment that stands between the blocks that
both runs have entered and the variables from before. Neither run can tell, as long as no name of
its tree is one of those variables and the piece is not the innermost block.

* `Transfer.Environments` — the variables of the two runs; what is found, set and declared in them.
* `Transfer.States` — the states of the two runs.
* `Machine.Alike` — steps that come to the same from states of a transfer; the rules for the
  primitives of the machine and for sequences of steps.
-/

import Formulary.Eval.Statement
import Formulary.Proofs.Relabeling
import Formulary.Proofs.RenamedKinds
import Formulary.Proofs.Variables

namespace Formulary

/-- How a run is carried over: what is renamed, and the variables that only the second run has. -/
structure Transfer where
  renames : Renaming
  margin : Margin
  place : Position → Position
  ident : String → String
  ident_injective : Function.Injective ident
  extra : Environment

/-! ### What a transfer does to the parts of a state -/

/-- A variable with its kind and its value renamed. -/
def Binding.rename (σ : Renaming) (binding : Binding) : Binding :=
  ⟨binding.kind.rename σ, binding.value.map (·.rename σ)⟩

@[simp]
theorem Binding.kind_rename (σ : Renaming) (binding : Binding) :
    (binding.rename σ).kind = binding.kind.rename σ := rfl

@[simp]
theorem Binding.value_rename (σ : Renaming) (binding : Binding) :
    (binding.rename σ).value = binding.value.map (·.rename σ) := rfl

/-- The reason of a halt with the name of its variable changed. -/
def Halt.relabel (ident : String → String) : Halt → Halt
  | .failure (.unknownVariable name) => .failure (.unknownVariable (ident name))
  | .failure (.uninitialized name) => .failure (.uninitialized (ident name))
  | .failure .missingReturn => .failure .missingReturn
  | .failure .notVariable => .failure .notVariable
  | .fault cause => .fault cause
  | .outOfFuel => .outOfFuel
  | .strayJump => .strayJump

/-- A completion with the value that it returns renamed. -/
def Completion.rename (σ : Renaming) : Completion → Completion
  | .returned value => .returned (value.rename σ)
  | .normal => .normal
  | .broke => .broke
  | .continued => .continued

namespace Transfer

variable (T : Transfer)

/-- What a transfer does to checked trees. -/
def labels : Relabeling Value Value Kind Kind where
  place := T.place
  literal := Value.rename T.renames
  ident := T.ident
  type := Kind.rename T.renames

/-- A result of the first run as the second one has it. -/
def result {α β : Type} (f : α → β) : Except Halt α → Except Halt β
  | .ok a => .ok (f a)
  | .error halt => .error (halt.relabel T.ident)

/-- A variable as the second run has it. -/
def entry (named : String × Binding) : String × Binding :=
  (T.ident named.1, named.2.rename T.renames)

/-- The variables of a block as the second run has them. -/
def frame (frame : Frame) : Frame :=
  frame.map T.entry

/-- The variables of a first run with `depth` blocks around it, and those of the second one. -/
def Environments (depth : Nat) (E E' : Environment) : Prop :=
  ∃ top below, top.length = depth ∧ E = top ++ below ∧
    E' = top.map T.frame ++ (T.extra ++ below.map T.frame)

/-- Two states of the runs, `depth` blocks inside of where only the second one has variables. -/
structure States (depth : Nat) (s t : State) : Prop where
  environment : T.Environments depth s.environment t.environment
  store : Store.Alike T.renames T.margin s.store t.store

/-- A name that is none of a variable that only the second run has. -/
def Clear : Mention → Prop
  | .variable name => T.extra.find? (T.ident name) = none
  | .callee _ => True

/-- Variables can be declared: not into a block that only the second run has. -/
def Open (depth : Nat) : Prop :=
  depth = 0 → T.extra = []

theorem open_succ (depth : Nat) : T.Open (depth + 1) := fun same => by cases same

theorem clear_of_extra_nil (nothing : T.extra = []) (mention : Mention) : T.Clear mention := by
  cases mention with
  | «variable» name =>
    rw [Clear, nothing]
    rfl
  | callee name => trivial

end Transfer

/-! ### Frames and environments -/

namespace Environment

theorem find?_append (E F : Environment) (name : String) :
    find? (E ++ F) name = (find? E name <|> find? F name) := by
  induction E with
  | nil => simp [find?]
  | cons frame rest ih =>
    rw [List.cons_append, find?, find?, ih]
    cases List.lookup name frame <;> rfl

theorem setValue_append (E F : Environment) (name : String) (value : Value) :
    setValue name value (E ++ F) =
      if (find? E name).isSome then setValue name value E ++ F
      else E ++ setValue name value F := by
  induction E with
  | nil => rfl
  | cons frame rest ih =>
    cases here : List.lookup name frame with
    | some binding => simp [setValue, find?, Frame.has, here]
    | none =>
      by_cases further : (find? rest name).isSome <;>
        simp [setValue, find?, Frame.has, here, ih, further]

theorem setValue_absent {E : Environment} {name : String} (absent : find? E name = none)
    (value : Value) : setValue name value E = E := by
  have whole := setValue_append E [] name value
  rw [absent] at whole
  simpa [setValue] using whole

theorem define_append {E : Environment} (entered : E ≠ []) (F : Environment) (name : String)
    (binding : Binding) : define name binding (E ++ F) = define name binding E ++ F := by
  cases E with
  | nil => exact absurd rfl entered
  | cons frame rest => rfl

theorem length_setValue (E : Environment) (name : String) (value : Value) :
    (setValue name value E).length = E.length := by
  induction E with
  | nil => rfl
  | cons frame rest ih =>
    rw [setValue]
    split
    · rfl
    · rw [List.length_cons, ih, List.length_cons]

theorem length_define {E : Environment} (entered : E ≠ []) (name : String)
    (binding : Binding) : (define name binding E).length = E.length := by
  cases E with
  | nil => exact absurd rfl entered
  | cons frame rest => rfl

end Environment

namespace Transfer

variable (T : Transfer)

theorem lookup_frame (frame : Frame) (name : String) :
    (T.frame frame).lookup (T.ident name) =
      (frame.lookup name).map (·.rename T.renames) := by
  induction frame with
  | nil => rfl
  | cons first rest ih =>
    obtain ⟨other, binding⟩ := first
    have same : (T.ident name == T.ident other) = (name == other) := by
      rw [Bool.eq_iff_iff]
      simp [T.ident_injective.eq_iff]
    simp only [Transfer.frame, List.map_cons, entry, List.lookup_cons, same] at ih ⊢
    split
    · rfl
    · exact ih

theorem has_frame (frame : Frame) (name : String) :
    (T.frame frame).has (T.ident name) = frame.has name := by
  simp [Frame.has, lookup_frame]

theorem setValue_frame (frame : Frame) (name : String) (value : Value) :
    (T.frame frame).setValue (T.ident name) (value.rename T.renames) =
      T.frame (frame.setValue name value) := by
  induction frame with
  | nil => rfl
  | cons first rest ih =>
    obtain ⟨other, binding⟩ := first
    simp only [Transfer.frame, List.map_cons, entry, Frame.setValue,
      T.ident_injective.eq_iff] at ih ⊢
    split
    · rfl
    · rw [ih]
      rfl

theorem define_frame (frame : Frame) (name : String) (binding : Binding) :
    (T.frame frame).define (T.ident name) (binding.rename T.renames) =
      T.frame (frame.define name binding) := by
  induction frame with
  | nil => rfl
  | cons first rest ih =>
    obtain ⟨other, old⟩ := first
    simp only [Transfer.frame, List.map_cons, entry, Frame.define,
      T.ident_injective.eq_iff] at ih ⊢
    split
    · rfl
    · rw [ih]
      rfl

theorem find?_frames (E : Environment) (name : String) :
    Environment.find? (E.map T.frame) (T.ident name) =
      (E.find? name).map (·.rename T.renames) := by
  induction E with
  | nil => rfl
  | cons frame rest ih =>
    rw [List.map_cons, Environment.find?, Environment.find?, lookup_frame, ih]
    cases List.lookup name frame <;> rfl

theorem setValue_frames (E : Environment) (name : String) (value : Value) :
    Environment.setValue (T.ident name) (value.rename T.renames) (E.map T.frame) =
      (E.setValue name value).map T.frame := by
  induction E with
  | nil => rfl
  | cons frame rest ih =>
    simp only [List.map_cons, Environment.setValue, has_frame]
    split
    · rw [setValue_frame, List.map_cons]
    · rw [ih, List.map_cons]

theorem define_frames (E : Environment) (name : String) (binding : Binding) :
    Environment.define (T.ident name) (binding.rename T.renames) (E.map T.frame) =
      (E.define name binding).map T.frame := by
  cases E with
  | nil => rfl
  | cons frame rest =>
    rw [List.map_cons, Environment.define, define_frame]
    rfl

namespace Environments

variable {T} {depth : Nat} {E E' : Environment} (related : T.Environments depth E E')

include related

theorem find? {name : String} (clear : T.Clear (.variable name)) :
    E'.find? (T.ident name) = (E.find? name).map (·.rename T.renames) := by
  obtain ⟨top, below, -, rfl, rfl⟩ := related
  have absent : T.extra.find? (T.ident name) = none := clear
  rw [Environment.find?_append, Environment.find?_append, Environment.find?_append, absent,
    find?_frames, find?_frames]
  cases top.find? name <;> simp

theorem setValue {name : String} (clear : T.Clear (.variable name)) (value : Value) :
    T.Environments depth (E.setValue name value)
      (E'.setValue (T.ident name) (value.rename T.renames)) := by
  obtain ⟨top, below, size, rfl, rfl⟩ := related
  have absent : T.extra.find? (T.ident name) = none := clear
  rw [Environment.setValue_append, Environment.setValue_append, find?_frames,
    Option.isSome_map]
  split
  · refine ⟨top.setValue name value, below, ?_, rfl, ?_⟩
    · rw [Environment.length_setValue, size]
    · rw [setValue_frames]
  · refine ⟨top, below.setValue name value, size, rfl, ?_⟩
    rw [Environment.setValue_append, absent, setValue_frames]
    rfl

theorem define (isOpen : T.Open depth) (name : String) (binding : Binding) :
    T.Environments depth (E.define name binding)
      (E'.define (T.ident name) (binding.rename T.renames)) := by
  obtain ⟨top, below, rfl, rfl, rfl⟩ := related
  by_cases entered : top = []
  · subst entered
    rw [isOpen rfl]
    refine ⟨[], below.define name binding, rfl, rfl, ?_⟩
    simp only [List.map_nil, List.nil_append]
    rw [define_frames, isOpen rfl]
    rfl
  · have entered' : top.map T.frame ≠ [] := by simpa using entered
    rw [Environment.define_append entered, Environment.define_append entered', define_frames]
    exact ⟨top.define name binding, below, Environment.length_define entered _ _, rfl, rfl⟩

theorem block : T.Environments (depth + 1) ([] :: E) ([] :: E') := by
  obtain ⟨top, below, rfl, rfl, rfl⟩ := related
  exact ⟨[] :: top, below, rfl, rfl, rfl⟩

end Environments

theorem Environments.left {T : Transfer} {depth : Nat} {E E' : Environment}
    (related : T.Environments (depth + 1) E E') : T.Environments depth E.tail E'.tail := by
  obtain ⟨top, below, size, rfl, rfl⟩ := related
  cases top with
  | nil => cases size
  | cons frame rest => exact ⟨rest, below, Nat.succ.inj size, rfl, rfl⟩

end Transfer

/-! ### Steps that do the same -/

namespace Machine

variable {α β γ δ : Type} {T : Transfer} {depth : Nat}

/-- How many objects a step leaves. -/
def sizeBehind (step : Machine α) (state : State) : Nat :=
  (outcome step state).2.store.objects.size

/-- Two steps that come to the same up to a transfer, `depth` blocks inside. -/
structure Alike (T : Transfer) (depth : Nat) (f : α → β) (a : Machine α) (b : Machine β) :
    Prop where
  grows : ∀ s, s.store.objects.size ≤ sizeBehind a s
  maps : ∀ s t, T.States depth s t → sizeBehind a s ≤ T.margin.limit →
    (outcome b t).1 = T.result f (outcome a s).1 ∧
      T.States depth (outcome a s).2 (outcome b t).2

namespace Alike

theorem pure {f : α → β} {x : α} {y : β} (same : f x = y) :
    Alike T depth f (Pure.pure x) (Pure.pure y) where
  grows _ := Nat.le_refl _
  maps _ _ related _ := by
    subst same
    exact ⟨rfl, related⟩

theorem throw {f : α → β} {halt halt' : Halt} (same : halt.relabel T.ident = halt') :
    Alike T depth f (throw halt) (throw halt') where
  grows _ := Nat.le_refl _
  maps _ _ related _ := by
    subst same
    exact ⟨rfl, related⟩

/-- A sequence, whose second part is only looked at for what the first one can give. -/
theorem bindOf {P : α → Prop} {f : α → β} {g : γ → δ} {a : Machine α} {b : Machine β}
    {next : α → Machine γ} {next' : β → Machine δ} (first : Alike T depth f a b)
    (gives : ∀ s x behind, outcome a s = (.ok x, behind) → P x)
    (second : ∀ x, P x → Alike T depth g (next x) (next' (f x))) :
    Alike T depth g (a >>= next) (b >>= next') where
  grows s := by
    have grown := first.grows s
    unfold sizeBehind at grown ⊢
    rw [outcome_bind]
    rcases ended : outcome a s with ⟨halt | x, behind⟩
    · rw [ended] at grown
      exact grown
    · rw [ended] at grown
      exact grown.trans ((second x (gives s x behind ended)).grows behind)
  maps s t related bounded := by
    have firsts := first.maps s t related
    unfold sizeBehind at bounded firsts
    rw [outcome_bind] at bounded ⊢
    rw [outcome_bind]
    rcases ended : outcome a s with ⟨halt | x, behind⟩
    · rw [ended] at bounded firsts
      obtain ⟨same, related⟩ := firsts bounded
      rcases ended' : outcome b t with ⟨result, behind'⟩
      rw [ended'] at same related
      cases same
      exact ⟨rfl, related⟩
    · rw [ended] at bounded firsts
      have after := second x (gives s x behind ended)
      obtain ⟨same, related⟩ := firsts ((after.grows behind).trans bounded)
      rcases ended' : outcome b t with ⟨result, behind'⟩
      rw [ended'] at same related
      cases same
      exact after.maps behind behind' related bounded

theorem bind {f : α → β} {g : γ → δ} {a : Machine α} {b : Machine β}
    {next : α → Machine γ} {next' : β → Machine δ} (first : Alike T depth f a b)
    (second : ∀ x, Alike T depth g (next x) (next' (f x))) :
    Alike T depth g (a >>= next) (b >>= next') :=
  bindOf (P := fun _ => True) first (fun _ _ _ _ => trivial) fun x _ => second x

theorem act {f : α → β} {a : Action α} {b : Action β}
    (same : Action.Alike T.renames T.margin f a b) :
    Alike T depth f (Machine.act a) (Machine.act b) where
  grows s := by
    have grown := same.grows s.store
    rw [sizeBehind, outcome_act]
    rcases ended : a.outcome s.store with ⟨fault | x, behind⟩ <;>
      simpa only [ended] using grown
  maps s t related bounded := by
    have mapped := same.maps s.store t.store related.store
    rw [sizeBehind, outcome_act] at bounded
    rw [outcome_act, outcome_act]
    rcases ended : a.outcome s.store with ⟨fault | x, behind⟩
    · rw [ended] at bounded mapped
      obtain ⟨result, stores⟩ := mapped bounded
      rcases ended' : b.outcome t.store with ⟨result', behind'⟩
      rw [ended'] at result stores
      cases result
      exact ⟨rfl, related.environment, stores⟩
    · rw [ended] at bounded mapped
      obtain ⟨result, stores⟩ := mapped bounded
      rcases ended' : b.outcome t.store with ⟨result', behind'⟩
      rw [ended'] at result stores
      cases result
      exact ⟨rfl, related.environment, stores⟩

theorem ofExcept {f : α → β} {x : Except Fault α} {y : Except Fault β}
    (same : y = f <$> x) : Alike T depth f (Machine.ofExcept x) (Machine.ofExcept y) := by
  subst same
  cases x with
  | ok x => exact .pure rfl
  | error fault => exact .throw rfl

theorem changeEnvironment {change change' : Environment → Environment}
    (same : ∀ E E', T.Environments depth E E' →
      T.Environments depth (change E) (change' E')) :
    Alike T depth id (Machine.changeEnvironment change)
      (Machine.changeEnvironment change') where
  grows _ := Nat.le_refl _
  maps _ _ related _ := ⟨rfl, same _ _ related.environment, related.store⟩

theorem define (isOpen : T.Open depth) (name : String) (kind : Kind) (value : Option Value) :
    Alike T depth id (Machine.define name kind value)
      (Machine.define (T.ident name) (kind.rename T.renames)
        (value.map (·.rename T.renames))) :=
  .changeEnvironment fun _ _ related => related.define isOpen name ⟨kind, value⟩

theorem binding {name : String} (clear : T.Clear (.variable name)) :
    Alike T depth (Binding.rename T.renames) (Machine.binding name)
      (Machine.binding (T.ident name)) where
  grows s := by
    rw [sizeBehind, outcome_binding]
    split <;> exact Nat.le_refl _
  maps s t related _ := by
    rw [outcome_binding, outcome_binding, related.environment.find? clear]
    cases s.environment.find? name with
    | none => exact ⟨rfl, related⟩
    | some found => exact ⟨rfl, related⟩

theorem valueOf {name : String} (clear : T.Clear (.variable name)) :
    Alike T depth (Value.rename T.renames) (Machine.valueOf name)
      (Machine.valueOf (T.ident name)) := by
  refine .bind (binding clear) fun found => ?_
  obtain ⟨kind, value⟩ := found
  cases value with
  | none => exact .throw rfl
  | some value => exact .pure rfl

theorem inBlock {f : α → β} {a : Machine α} {b : Machine β}
    (inside : Alike T (depth + 1) f a b) :
    Alike T depth f (Machine.inBlock a) (Machine.inBlock b) where
  grows s := inside.grows s.block
  maps s t related bounded := by
    have entered : T.States (depth + 1) s.block t.block :=
      ⟨related.environment.block, related.store⟩
    obtain ⟨same, behind⟩ := inside.maps s.block t.block entered bounded
    rw [outcome_inBlock, outcome_inBlock]
    exact ⟨same, behind.environment.left, behind.store⟩

end Alike

end Machine

end Formulary
