/-
Calls in a row.

Calls share what a store has set on types, classes, functions and modules, and the empty tuple;
everything else that one of them leaves is out of reach for those behind it. A call that finds the shared
part as a fresh process has it ends as it would end there: its objects have other places, and its results
that are no numbers other marks.

* `Datum`, `Call` — arguments that cannot be changed, and calls with them.
* `Call.run_alike`, `Store.behind_alike` — calls from stores that are alike.
* `Store.behind_closed` — calls leave no reference to a place that there is not.
* `Store.Pristine` — the shared part as a fresh process has it.
* `Call.isolated` — a call behind other ones.
-/

import Formulary.Function
import Formulary.Proofs.CompiledTrees
import Formulary.Proofs.Gaps

namespace Formulary

variable {σ : Renaming}

/-! ### Arguments -/

/-- A value that is no object and leads to none. What is no number has no mark of its own. -/
def Value.isPlain : Value → Bool
  | .null | .bool _ | .int _ | .long _ | .fraction _ | .char _ | .str _ => true
  | .double x | .single x => !x.isNaN || x == .freshNaN
  | _ => false

theorem Value.rename_of_isPlain {value : Value} (plain : value.isPlain = true) :
    value.rename σ = value := by
  have kept {x : Double} (proper : (!x.isNaN || x == .freshNaN) = true) : x.rename σ = x := by
    cases x with
    | signed negative index => rfl
    | nan mark =>
      have fresh : Double.nan mark = .freshNaN := by simpa [Double.isNaN] using proper
      rw [fresh, Double.rename_freshNaN]
  cases value with
  | double x => exact congrArg Value.double (kept plain)
  | single x => exact congrArg Value.single (kept plain)
  | object kind ref => cases plain
  | method receiver name => cases plain
  | _ => rfl

/-- An argument that cannot be changed: a plain value or a tuple of such arguments. -/
inductive Datum where
  | plain (value : Value) (isPlain : value.isPlain = true)
  | tuple (parts : List Datum)

namespace Datum

mutual

/-- Makes an argument. -/
def load : Datum → Action Value
  | .plain value _ => Action.settle value
  | .tuple parts => do Action.newTuple (← loadAll parts).toArray

/-- Makes arguments, the first one first. -/
def loadAll : List Datum → Action (List Value)
  | [] => pure []
  | datum :: rest => do return (← load datum) :: (← loadAll rest)

end

variable {margin : Margin}

mutual

theorem load_alike : ∀ datum : Datum,
    Action.Alike σ margin (Value.rename σ) datum.load datum.load
  | .plain value isPlain => by
    have settled : Action.Alike σ margin (Value.rename σ) (Action.settle value)
        (Action.settle (value.rename σ)) := .settle value
    rw [Value.rename_of_isPlain isPlain] at settled
    rw [load]
    exact settled
  | .tuple parts => by
    rw [load]
    refine .bind (loadAll_alike parts) fun values => ?_
    rw [← List.map_toArray]
    exact .newTuple values.toArray

theorem loadAll_alike : ∀ parts : List Datum,
    Action.Alike σ margin (List.map (Value.rename σ)) (loadAll parts) (loadAll parts)
  | [] => .pure rfl
  | datum :: rest => by
    rw [loadAll]
    exact .bind (load_alike datum) fun _ => .bind (loadAll_alike rest) fun _ => .pure rfl

end

end Datum

/-! ### Calls -/

/-- A call of a function that the backend has compiled without names of the caller. -/
structure Call where
  program : Program
  compiled : ∃ request, Program.backend [] request = .ok program
  fuel : Nat
  arguments : List Datum
  /-- Whether the arguments are passed in a tuple; they are passed in a list otherwise. -/
  inTuple : Bool

namespace Call

/-- Makes the arguments of a call. -/
def load (call : Call) : Action Value := do
  let values ← Datum.loadAll call.arguments
  if call.inTuple then Action.newTuple values.toArray else Action.newList values.toArray

/-- Makes the arguments of a call and runs its function on them. -/
def run (call : Call) (store : Store) : Except Halt Value × Store :=
  match call.load.outcome store with
  | (.ok args, made) => call.program.run call.fuel args made
  | (.error fault, made) => (.error (.fault fault), made)

variable {margin : Margin} {s t : Store}

theorem load_alike (call : Call) :
    Action.Alike σ margin (Value.rename σ) call.load call.load := by
  refine .bind (Datum.loadAll_alike call.arguments) fun values => ?_
  split
  · rw [← List.map_toArray]
    exact .newTuple values.toArray
  · rw [← List.map_toArray]
    exact .newList values.toArray

/-- A call takes no object away. -/
theorem run_grows (call : Call) (store : Store) :
    store.objects.size ≤ (call.run store).2.objects.size := by
  have same : Action.Alike .identity ⟨0, store⟩ (Value.rename .identity) call.load call.load :=
    call.load_alike
  have loaded := same.grows store
  unfold run
  rcases made : call.load.outcome store with ⟨fault | args, behind⟩
  · rw [made] at loaded
    exact loaded
  · rw [made] at loaded
    exact loaded.trans (call.program.run_grows call.fuel args behind)

/-- **Calls from stores that are alike** end alike and leave stores that are alike. -/
theorem run_alike (call : Call) (alike : Store.Alike σ margin s t)
    (bounded : (call.run s).2.objects.size ≤ margin.limit) :
    (call.run t).1 = Value.rename σ <$> (call.run s).1 ∧
      Store.Alike σ margin (call.run s).2 (call.run t).2 := by
  obtain ⟨request, compiled⟩ := call.compiled
  let T : Transfer := .around σ margin []
  have steady : call.program.relabel T = call.program :=
    Program.compile_steady ⟨rfl, rfl⟩ σ.spares_nil compiled
  have same : Action.Alike σ margin (Value.rename σ) call.load call.load := call.load_alike
  have loads := same.maps s t alike
  unfold run at bounded ⊢
  rcases made : call.load.outcome s with ⟨fault | args, behind⟩
  · rw [made] at bounded loads
    obtain ⟨same, alike⟩ := loads bounded
    rcases made' : call.load.outcome t with ⟨result, behind'⟩
    rw [made'] at same alike
    cases same
    exact ⟨rfl, alike⟩
  · rw [made] at bounded loads
    obtain ⟨same, alike⟩ :=
      loads ((call.program.run_grows call.fuel args behind).trans bounded)
    rcases made' : call.load.outcome t with ⟨result, behind'⟩
    rw [made'] at same alike
    cases same
    obtain ⟨result, behind⟩ := Program.run_renamed (T := T) rfl call.program call.fuel args
      alike bounded
    rw [steady] at result behind
    exact ⟨result.trans (Transfer.result_around _ _), behind⟩

end Call

/-! ### Sequences of calls -/

namespace Store

/-- The store behind a sequence of calls. -/
def behind (store : Store) (calls : List Call) : Store :=
  calls.foldl (fun store call => (call.run store).2) store

theorem behind_grows (calls : List Call) (store : Store) :
    store.objects.size ≤ (store.behind calls).objects.size := by
  induction calls generalizing store with
  | nil => exact Nat.le_refl _
  | cons call rest ih => exact (call.run_grows store).trans (ih _)

variable {margin : Margin} {s t : Store}

theorem behind_alike (calls : List Call) (alike : Alike σ margin s t)
    (bounded : (s.behind calls).objects.size ≤ margin.limit) :
    Alike σ margin (s.behind calls) (t.behind calls) := by
  induction calls generalizing s t with
  | nil => exact alike
  | cons call rest ih =>
    have within := (behind_grows rest (call.run s).2).trans bounded
    exact ih (call.run_alike alike within).2 bounded

theorem initial_closed : Store.initial.Closed where
  proper := by decide
  entity r := by
    rw [entity_initial]
    split
    · simp [Entity.Below]
    · trivial
  setting _ _ _ found := nomatch found
  opened _ _ _ := rfl

/-- **Calls in a fresh process leave a closed store.** -/
theorem behind_closed (calls : List Call) : (Store.initial.behind calls).Closed := by
  have grown := behind_grows calls .initial
  have proper := Nat.lt_of_lt_of_le initial_closed.proper grown
  have start := initial_closed.alike proper grown
  exact Alike.closed proper initial_closed grown
    (behind_alike calls start (Nat.le_refl _)) rfl

end Store

/-! ### The shared part of a store -/

/-- The part of a store that all calls share, as a fresh process has it: the empty tuple is
empty, and nothing is set on what is no object. -/
structure Store.Pristine (store : Store) : Prop where
  empty : store.entity 0 = .items #[]
  unset : ∀ holder : Value, holder.Below 1 → ∀ name, store.setting? holder name = none

/-- A place moved, but for the first one. -/
def moved (places r : Nat) : Nat := if r = 0 then 0 else r + places

theorem moved_strictMono (places : Nat) : StrictMono (moved places) := by
  intro a b less
  unfold moved
  split <;> split <;> omega

/-- The renaming that moves all places behind the first one and all marks that are not
reserved. -/
def Renaming.shift (places marks : Nat) : Renaming where
  ref := moved places
  mark m := if m ≤ Double.freshMark then m else m + marks
  ref_strictMono := moved_strictMono places
  ref_zero := if_pos rfl
  mark_injective a b same := by
    dsimp only at same
    split at same <;> split at same <;> omega
  mark_reserved _ reserved := if_pos reserved

section Shift

variable {places marks : Nat}

theorem Renaming.shift_ref (r : Nat) : (shift places marks).ref (1 + r) = 1 + r + places :=
  if_neg (by omega)

theorem Renaming.shift_mark (m : Nat) :
    (shift places marks).mark (Double.freshMark + 1 + m) = Double.freshMark + 1 + m + marks :=
  if_neg (by omega)

/-- A renamed value refers to no place, to the first one, or to one behind those that are moved
over. -/
theorem Value.below_one_or_behind (value : Value) :
    (value.rename (.shift places marks)).Below 1 ∨
      ¬(value.rename (.shift places marks)).Below (1 + places) := by
  induction value with
  | object kind ref =>
    rcases Nat.eq_zero_or_pos ref with rfl | behind
    · exact .inl Nat.one_pos
    · obtain ⟨r, rfl⟩ := Nat.exists_eq_add_of_le behind
      refine .inr ?_
      rw [rename, Renaming.shift_ref, Below]
      exact Nat.not_lt.mpr (Nat.add_le_add_right (Nat.le_add_right 1 r) places)
  | method receiver name ih => exact ih
  | _ => exact .inl trivial

end Shift

namespace Store

/-- **A store whose shared part is that of a fresh process is like a fresh store**, with places
and marks moved. -/
theorem Pristine.alike {store : Store} (pristine : store.Pristine) (closed : store.Closed)
    (marked : Double.freshMark < store.nextMark) (limit : Nat) :
    Alike (.shift (store.objects.size - 1) (store.nextMark - (Double.freshMark + 1)))
      ⟨limit, store⟩ .initial store := by
  obtain ⟨places, size⟩ := Nat.exists_eq_add_of_le closed.proper
  obtain ⟨marks, next⟩ := Nat.exists_eq_add_of_le marked
  replace size : store.objects.size = 1 + places := size
  replace next : store.nextMark = Double.freshMark + 1 + marks := next
  rw [size, next, Nat.add_sub_cancel_left, Nat.add_sub_cancel_left]
  have initial_size : Store.initial.objects.size = 1 := rfl
  have initial_next : Store.initial.nextMark = Double.freshMark + 1 := rfl
  refine ⟨⟨?_, ?_⟩, ?_, ?_, ?_, fun _ _ => rfl, fun _ _ _ => rfl⟩
  · intro r
    rcases Nat.eq_zero_or_pos r with rfl | behind
    · simp [Renaming.ref_zero, pristine.empty, entity_initial, Entity.rename]
    · obtain ⟨r, rfl⟩ := Nat.exists_eq_add_of_le behind
      have outside : store.objects.size ≤ 1 + r + places := by omega
      rw [Renaming.shift_ref, entity_outside outside, entity_outside (Nat.le_add_right 1 r)]
      rfl
  · intro holder name
    rcases holder.below_one_or_behind with below | behind
    · exact pristine.unset _ below name
    · by_contra set
      obtain ⟨value, found⟩ := Option.ne_none_iff_exists'.mp set
      have inside := (closed.setting _ name value found).1
      rw [size] at inside
      exact behind inside
  · intro r
    rw [size, initial_size]
    rcases Nat.eq_zero_or_pos r with rfl | behind
    · rw [Renaming.ref_zero]
      exact iff_of_true (Nat.lt_add_right places Nat.one_pos) Nat.one_pos
    · obtain ⟨r, rfl⟩ := Nat.exists_eq_add_of_le behind
      rw [Renaming.shift_ref]
      exact Nat.add_lt_add_iff_right
  · intro i _
    rw [size, initial_size, Renaming.shift_ref, Nat.add_right_comm]
  · intro i
    rw [next, initial_next, Renaming.shift_mark, Nat.add_right_comm]

/-- **Marks behind calls are fresh**: were one reserved, moving the others would leave a gap
behind it. -/
theorem behind_nextMark (calls : List Call) :
    Double.freshMark < (Store.initial.behind calls).nextMark := by
  let later : Store := { Store.initial with nextMark := Store.initial.nextMark + 1 }
  have closed : later.Closed := ⟨initial_closed.proper, initial_closed.entity,
    initial_closed.setting, initial_closed.opened⟩
  have pristine : later.Pristine := ⟨rfl, fun _ _ _ => rfl⟩
  have marks : ∀ i, (Renaming.shift 0 1).mark ((Store.initial.behind calls).nextMark + i) =
      (later.behind calls).nextMark + i :=
    (behind_alike calls (pristine.alike closed (by decide) _) (Nat.le_refl _)).marks
  by_contra reserved
  have within := Nat.not_lt.mp reserved
  obtain ⟨i, last⟩ := Nat.exists_eq_add_of_le within
  -- The mark that is there is kept, but the one behind the reserved ones is not.
  have first : (Store.initial.behind calls).nextMark = (later.behind calls).nextMark :=
    ((Renaming.shift 0 1).mark_reserved _ within).symm.trans (marks 0)
  have second := marks (i + 1)
  rw [← first, ← Nat.add_assoc, ← last] at second
  exact absurd second (by decide)

end Store

/-! ### Isolated calls -/

namespace Call

/-- A request for a source without parameters. -/
def requestOf (source : String) : CompileRequest where
  source := source.toList
  returnType := "Object".toList
  entryPoint := .object
  bindings := []
  functionString := []
  argsName := "args".toList

theorem tokens_givesArguments : Lexer.tokens (requestOf "return args;").source =
    .ok [⟨.keyword .returnWord, ⟨1, 1⟩⟩, ⟨.name "args", ⟨1, 8⟩⟩,
      ⟨.symbol .semicolon, ⟨1, 12⟩⟩] := by
  decide +kernel

/-- `return args;`, called with a number and a tuple. -/
def givesArguments : Call where
  program := ⟨[.returns ⟨1, 1⟩ (some (.name ⟨1, 8⟩ "args"))], "args", .core .object⟩
  compiled := ⟨requestOf "return args;", by
    rw [Program.backend, Program.compile, readBody, parseSource, tokens_givesArguments]
    cbv⟩
  fuel := 1
  arguments := [.plain (.int 1) rfl, .tuple [.plain (.int 2) rfl, .plain .null rfl]]
  inTuple := false

theorem tokens_stepsConstant : Lexer.tokens (requestOf "return Math.PI++;").source =
    .ok [⟨.keyword .returnWord, ⟨1, 1⟩⟩, ⟨.name "Math", ⟨1, 8⟩⟩, ⟨.symbol .dot, ⟨1, 12⟩⟩,
      ⟨.name "PI", ⟨1, 13⟩⟩, ⟨.symbol (.step .increment), ⟨1, 15⟩⟩,
        ⟨.symbol .semicolon, ⟨1, 17⟩⟩] := by
  decide +kernel

/-- `return Math.PI++;`. -/
def stepsConstant : Call where
  program := ⟨[.returns ⟨1, 1⟩ (some (.step ⟨1, 8⟩ .increment (.field ⟨1, 13⟩
    (.typeName ⟨1, 8⟩ ⟨⟨1, 8⟩, "Math", .view "Math" .math⟩) "PI") false))], "args",
      .core .object⟩
  compiled := ⟨requestOf "return Math.PI++;", by
    rw [Program.backend, Program.compile, readBody, parseSource, tokens_stepsConstant]
    cbv⟩
  fuel := 1
  arguments := []
  inTuple := false

end Call

end Formulary
