/-
Two ways to go over a container.

The `for`-each over a list or a tuple and the loop that asks an iterator of it end alike and leave
the same, from every closed state. At first about checked loops, then about loops as they are
read: where the check accepts the one it accepts the other.

* `IteratorLoop.peeks_beginning` — the states in front of the first rounds.
* `IteratorLoop.forEach_alike` — the two checked loops.
* `Check.iteratorLoop` — the check of the second loop goes well where that of the first one does.
* `Eval.forEach_sameOutcome` — the two loops as they are read.
-/

import Formulary.Proofs.Checking
import Formulary.Proofs.CompiledTrees
import Formulary.Proofs.IteratorRounds
import Formulary.Proofs.Mentions

namespace Formulary

open Eval

namespace IteratorLoop

/-! ### The beginning of both loops -/

section Beginning

variable {state : State} {E : CheckedExpr}

theorem labels_identity (margin : Margin) (extra : Environment) :
    (Transfer.around .identity margin extra).labels = .identity := by
  have values : Value.rename .identity = id := funext Value.rename_identity
  have kinds : Kind.rename .identity = id := funext Kind.rename_identity
  simp [Transfer.labels, Transfer.around, Relabeling.identity, values, kinds]

theorem frames_identity (margin : Margin) (extra E : Environment) :
    E.map (Transfer.around .identity margin extra).frame = E := by
  have entry (named : String × Binding) :
      (Transfer.around .identity margin extra).entry named = named := by
    obtain ⟨name, kind, value⟩ := named
    cases value <;> simp [Transfer.entry, Transfer.around, Binding.rename]
  exact map_eq_self.mpr fun frame _ => map_eq_self.mpr fun named _ => entry named

/-- A state is like itself in a new block. -/
theorem states_block (state : State) (limit : Nat) :
    Transfer.States (.around .identity ⟨limit, state.store⟩ [[]]) 0 state state.block := by
  have frames := frames_identity ⟨limit, state.store⟩ [[]] state.environment
  exact ⟨⟨[], state.environment, rfl, rfl, congrArg (List.cons []) frames.symm⟩,
    Store.alike_identity _ _⟩

/-- What an expression gives in a new block: the same, with a store that holds the same. -/
theorem expression_block {value : Value} {behind : State}
    (gives : Machine.outcome (expression E) state = (.ok value, behind)) :
    ∃ store, Machine.outcome (expression E) state.block =
        (.ok value, { environment := [] :: behind.environment, store }) ∧
      Store.Alike .identity ⟨behind.store.objects.size, state.store⟩ behind.store store := by
  let T : Transfer := .around .identity ⟨behind.store.objects.size, state.store⟩ [[]]
  have clear (m : Mention) : T.Clear m := by
    cases m <;> simp [T, Transfer.around, Transfer.Clear, Environment.find?]
  have alike : Machine.Alike T 0 (Value.rename .identity) (expression E)
      (expression (E.relabel T.labels)) := expression_alike E fun m _ => clear m
  have labels : T.labels = .identity := labels_identity _ _
  rw [labels, Expr.relabel_identity] at alike
  have size : Machine.sizeBehind (expression E) state = behind.store.objects.size := by
    rw [Machine.sizeBehind, gives]
  obtain ⟨same, states⟩ := alike.maps state state.block (states_block state _)
    (Nat.le_of_eq size)
  rw [gives] at same states
  rcases ended : Machine.outcome (expression E) state.block with ⟨result, after⟩
  rw [ended] at same states
  obtain ⟨top, below, empty, whole, moved⟩ := states.environment
  rw [List.length_eq_zero_iff.mp empty] at whole moved
  have frames := frames_identity ⟨behind.store.objects.size, state.store⟩ [[]] below
  have kept : after.environment = [] :: behind.environment := by
    rw [whole]
    exact moved.trans (congrArg (List.cons []) frames)
  have result_eq : result = .ok value := by
    have renamed : result = .ok (value.rename .identity) := same
    rw [renamed, Value.rename_identity]
  refine ⟨after.store, ?_, states.store⟩
  rw [result_eq, ← kept]

/-- The beginning of the second loop makes the iterator, behind all objects that evaluating the
container has left. -/
theorem outcome_enter (plain : ¬IsType E) {kind : ObjectKind}
    (sequence : kind = .list ∨ kind = .tuple) {ref : Ref} {it : String} {after : State}
    {store : Store} (gives : Machine.outcome (expression E) state.block =
      (.ok (.object kind ref), { environment := [] :: after.environment, store }))
    (unset : ∀ name, store.setting? (.object kind ref) name = none)
    (p : Nat → Position) (iterator : TypeName Kind) (resolved : iterator.resolved = .iterators) :
    Machine.outcome (enter (.declaration (p 1) iterator
        [⟨p 2, it, some (.methodCall (p 3) E "iterator" [])⟩])) state.block =
      (.ok (), { environment := extra it store.objects.size ++ after.environment
                 store := (store.add (.iterator
                   ⟨.object kind ref, 0, 0, (store.items ref).size, .underWay⟩ none)).2 }) := by
  have called : Machine.outcome (expression (.methodCall (p 3) E "iterator" [])) state.block =
      (.ok (.object .iterator store.objects.size),
        { environment := [] :: after.environment
          store := (store.add (.iterator
            ⟨.object kind ref, 0, 0, (store.items ref).size, .underWay⟩ none)).2 }) := by
    rw [expression_methodCall plain, Machine.outcome_bind_ok gives, expressions, pure_bind,
      Machine.outcome_act, Method.invoke_iterator sequence unset]
  have found : Machine.outcome (Machine.act (Dispatch.find .iterators .convert)) state.block =
      (.ok none, state.block) := rfl
  rw [enter, resolved, declare, Machine.outcome_bind_ok found, Machine.outcome_bind_ok called]
  rfl

/-- **The states before the first round** are alike but for the iterator. -/
theorem peeks_beginning {behind : State} (closed : behind.Closed) {rest store : Store}
    {limit : Nat} (same : Store.Alike .identity ⟨limit, rest⟩ behind.store store)
    {cursor : Cursor} (below : cursor.source.Below behind.store.objects.size)
    (bound : Nat) (it : String) :
    Peeks behind.store.objects.size closed.store.proper bound it cursor behind
      { environment := extra it store.objects.size ++ behind.environment
        store := (store.add (.iterator cursor none)).2 } := by
  have entity (r : Ref) : store.entity r = behind.store.entity r :=
    (same.entity r).trans (Entity.rename_identity _)
  have setting := same.setting_eq
  have size : store.objects.size = behind.store.objects.size := congrArg Array.size same.objects_eq
  have moved := closed.store.alike closed.store.proper (Nat.le_refl _)
  have cursor_eq : cursor.rename (.gap _ closed.store.proper) = cursor := by
    rw [Cursor.rename, Value.rename_gap.mpr below]
  have next : store.nextMark = behind.store.nextMark := (same.marks 0).symm
  have elsewhere (r : Ref) : (store.add (.iterator cursor none)).2.entity
      ((Renaming.gap _ closed.store.proper).ref r) =
        behind.store.entity ((Renaming.gap _ closed.store.proper).ref r) := by
    rw [Store.entity_add, size, if_neg (Renaming.gap_ne closed.store.proper r), entity]
  rw [size]
  refine ⟨⟨⟨[], behind.environment, rfl, rfl, ?_⟩, ?_⟩, ?_, ?_⟩
  · exact congrArg (extra it _ ++ ·) (Transfer.frames_gap.mpr closed.environment).symm
  · exact {
      entity := fun r => (elsewhere r).trans (moved.entity r)
      setting := fun holder name => (setting _ name).trans (moved.setting holder name)
      bound := fun r => by
        rw [Store.size_add, size]
        exact Renaming.gap_lt_succ closed.store.proper r
      fresh := fun i _ => by
        rw [Store.size_add, size]
        exact Renaming.gap_add closed.store.proper i
      marks := fun i => congrArg (· + i) next.symm
      besideEntity := fun _ _ => rfl
      besideSetting := fun _ _ _ => rfl }
  · rw [Store.entity_add, if_pos size.symm, cursor_eq]
  · intro name
    refine (setting _ name).trans ?_
    by_contra some
    obtain ⟨value, found⟩ := Option.ne_none_iff_exists'.mp some
    have below := (closed.store.setting _ name value found).1
    exact Nat.lt_irrefl _ below

end Beginning

/-- Evaluating an expression takes no object away. -/
theorem expression_grows (E : CheckedExpr) (state : State) :
    state.store.objects.size ≤ Machine.sizeBehind (expression E) state := by
  let T : Transfer := .around .identity ⟨0, state.store⟩ []
  have alike : Machine.Alike T 0 (Value.rename T.renames) (expression E)
      (expression (E.relabel T.labels)) :=
    expression_alike E fun m _ => T.clear_of_extra_nil rfl m
  exact alike.grows state

/-- A `for`-each over a list or a tuple is its rounds, from where the container has been
evaluated. -/
theorem outcome_forEach {E : CheckedExpr} {state behind : State} {kind : ObjectKind}
    (sequence : kind = .list ∨ kind = .tuple) {ref : Ref}
    (gives : Machine.outcome (expression E) state = (.ok (.object kind ref), behind))
    (fuel : Nat) (q : Position) (type : TypeName Kind) (x : String) (S : CheckedStmt) :
    Machine.outcome (statement fuel (.forEach q type x E S)) state =
      Machine.outcome (loopOver (round fuel type.resolved x S) fuel
        ⟨.object kind ref, 0, 0, (behind.store.items ref).size, .underWay⟩) behind := by
  have started : Machine.outcome (startIteration (.object kind ref)) behind =
      (.ok ⟨.object kind ref, 0, 0, (behind.store.items ref).size, .underWay⟩, behind) := by
    rw [outcome_startIteration, if_neg (by simp)]
    rcases sequence with rfl | rfl <;> rfl
  rw [statement_forEach, Machine.outcome_bind_ok gives, Machine.outcome_bind_ok started]

/-- The second loop over a list or a tuple is its rounds, from where it has made its iterator. -/
theorem outcome_iteratorLoop {E : CheckedExpr} {state after : State} {it : String}
    {p : Nat → Position} {iterator : TypeName Kind}
    (entered : Machine.outcome (enter (.declaration (p 1) iterator
      [⟨p 2, it, some (.methodCall (p 3) E "iterator" [])⟩])) state.block = (.ok (), after))
    (fuel : Nat) (type : TypeName Kind) (x : String) (S : CheckedStmt) :
    Machine.outcome (statement fuel (.iteratorLoop p iterator type x it E S)) state =
      let ended := Machine.outcome (loop (condition (.callOn (p 4) (p 5) it "hasNext"))
        (statement fuel (.taking p type x it S)) (effects []) fuel) after
      (ended.1, ended.2.left) := by
  rw [Stmt.iteratorLoop, statement, Machine.outcome_inBlock, Machine.outcome_bind_ok entered]
  rfl

/-- **Evaluating an expression keeps a state closed**, and gives a reference to a place of the
store if it gives one. -/
theorem expression_closed {E : CheckedExpr} {state behind : State} {value : Value}
    (closed : state.Closed)
    (steady : ∀ n proper margin, state.store.objects.size ≤ n →
      E.relabel (Transfer.around (.gap n proper) margin []).labels = E)
    (gives : Machine.outcome (expression E) state = (.ok value, behind)) :
    behind.Closed ∧ value.Below behind.store.objects.size ∧
      state.store.objects.size ≤ behind.store.objects.size := by
  have size : Machine.sizeBehind (expression E) state = behind.store.objects.size := by
    rw [Machine.sizeBehind, gives]
  have grown : state.store.objects.size ≤ behind.store.objects.size :=
    size ▸ expression_grows E state
  have proper := Nat.lt_of_lt_of_le closed.store.proper grown
  let T : Transfer :=
    .around (.gap behind.store.objects.size proper) ⟨behind.store.objects.size, state.store⟩ []
  have evaluated : Machine.Alike T 0 (Value.rename (.gap behind.store.objects.size proper))
      (expression E) (expression (E.relabel T.labels)) :=
    expression_alike E fun m _ => T.clear_of_extra_nil rfl m
  rw [steady _ proper _ grown] at evaluated
  obtain ⟨closed', kept⟩ := evaluated.closed closed size
  rw [gives] at closed' kept
  have same : value.rename (.gap behind.store.objects.size proper) = value :=
    Except.ok.inj kept
  exact ⟨closed', Value.rename_gap.mp same, grown⟩

/-- **A `for`-each over a list or a tuple and the loop that asks an iterator** have the same
outcome from a closed state. -/
theorem forEach_alike {E : CheckedExpr} {S : CheckedStmt} {type iterator : TypeName Kind}
    {x it : String} {q : Position} {p : Nat → Position} {state behind : State}
    (closed : state.Closed) (resolved : iterator.resolved = .iterators)
    (steady : ∀ n proper margin extra, state.store.objects.size ≤ n →
      (Stmt.forEach q type x E S).relabel
        (Transfer.around (.gap n proper) margin extra).labels = .forEach q type x E S)
    (clear : ∀ m ∈ S.mentions, m ≠ .variable it) (plain : ¬IsType E) {kind : ObjectKind}
    (sequence : kind = .list ∨ kind = .tuple) {ref : Ref}
    (gives : Machine.outcome (expression E) state = (.ok (.object kind ref), behind))
    (fuel : Nat) :
    SameOutcome state (statement fuel (.forEach q type x E S))
      (statement fuel (.iteratorLoop p iterator type x it E S)) := by
  have parts n proper margin extra (le : state.store.objects.size ≤ n) :=
    Stmt.forEach.inj (steady n proper margin extra le)
  obtain ⟨closed', below, grown⟩ := expression_closed closed
    (fun n proper margin le => (parts n proper margin [] le).2.2.2.1) gives
  have trees (margin : Margin) (extra : Environment) :=
    parts _ closed'.store.proper margin extra grown
  have sameType : type.relabel
      (Transfer.around (.gap _ closed'.store.proper) ⟨0, .initial⟩ []).labels = type :=
    (trees _ _).2.1
  have sameKind : type.resolved.rename (.gap _ closed'.store.proper) = type.resolved :=
    congrArg TypeName.resolved sameType
  -- In its own block the second loop evaluates the container alike, and then makes its iterator.
  obtain ⟨store, givesBlock, same⟩ := expression_block gives
  have shut : (Value.object kind ref).isOpen = false := by
    rcases sequence with rfl | rfl <;> rfl
  have unset (name : String) : store.setting? (.object kind ref) name = none := by
    have set := same.setting (.object kind ref) name
    rw [Value.rename_identity, closed'.store.opened _ name shut] at set
    exact set
  have items : (store.items ref).size = (behind.store.items ref).size := by
    have renamed : store.items ref = (behind.store.items ref).map (·.rename .identity) :=
      same.toRenamed.items ref
    rw [renamed, Array.size_map]
  let cursor : Cursor :=
    ⟨.object kind ref, 0, 0, (behind.store.items ref).size, .underWay⟩
  have entered : Machine.outcome (enter (.declaration (p 1) iterator
      [⟨p 2, it, some (.methodCall (p 3) E "iterator" [])⟩])) state.block =
        (.ok (), { environment := extra it store.objects.size ++ behind.environment
                   store := (store.add (.iterator cursor none)).2 }) := by
    rw [show cursor = ⟨.object kind ref, 0, 0, (store.items ref).size, .underWay⟩ by rw [items]]
    exact outcome_enter plain sequence givesBlock unset p iterator resolved
  have container : cursor.OverContainer := by
    intro other iterates
    rcases sequence with rfl | rfl <;> cases iterates
  obtain ⟨result, rest, states⟩ : Ends behind.store.objects.size closed'.store.proper
      (Machine.sizeBehind (loopOver (round fuel type.resolved x S) fuel cursor) behind) it
      (Machine.outcome (loopOver (round fuel type.resolved x S) fuel cursor) behind)
      (Machine.outcome (loop (condition (.callOn (p 4) (p 5) it "hasNext"))
        (statement fuel (.taking p type x it S)) (effects []) fuel) _) :=
    rounds_alike sameKind (fun _ => (trees _ _).2.2.2.2) clear p fuel
      cursor container behind _ (peeks_beginning closed' same below _ it) (Nat.le_refl _)
  rw [SameOutcome, outcome_forEach sequence gives, outcome_iteratorLoop entered]
  obtain ⟨top, outer, empty, whole, moved⟩ := states.environment
  rw [List.length_eq_zero_iff.mp empty] at whole moved
  refine ⟨.gap _ closed'.store.proper, fun r less => ?_, rfl, result, ?_, states.store.toRenamed⟩
  · exact Renaming.gap_of_lt (Nat.lt_of_lt_of_le less grown)
  · -- The block of the second loop holds the iterator only.
    have left := congrArg List.tail moved
    rw [whole]
    exact left

end IteratorLoop

/-! ### Loops as they are read -/

/-- The name of the type of iterators in a loop that is read. -/
def TypeName.iterator (position : Position) : TypeName Unit :=
  ⟨position, "java.util.Iterator", ()⟩

theorem Resolver.resolve_iterator {names : Namespace}
    (builtin : names.lookup "java.util.Iterator" = none) (store : Store) :
    resolve store names "java.util.Iterator" = some .iterators := by
  have primitive : Primitive.ofName? "java.util.Iterator" = none := by decide
  have listed : Kind.builtins.lookup "java.util.Iterator" = some .iterators := by decide
  rw [resolve, primitive, builtin, listed]

namespace Check

variable {context : Context Unit} {scope after : Scope} {inLoop : Bool} {q : Position}
  {type : TypeName Unit} {x it : String} {E : Expr Value Unit} {S : ParsedStmt}

theorem define_of_free {kind : Kind} {position : Position}
    (absent : inScope scope x = false) (free : reservedWords.contains x = false) :
    define scope x kind position = .ok ((x, kind) :: scope) := by
  simp only [define, absent, free]
  rfl

theorem free_of_define {kind : Kind} {position : Position}
    (h : define scope x kind position = .ok after) : reservedWords.contains x = false := by
  unfold define at h
  split at h
  · simp at h
  · split at h
    · simp at h
    · next free => exact Bool.eq_false_iff.mpr free

/-- The parts of a checked `for`-each. -/
theorem forEach_ok {checked : CheckedStmt}
    (h : statement context scope inLoop (.forEach q type x E S) = .ok (checked, after)) :
    ∃ type' E' S', checked = .forEach q type' x E' S' ∧ after = scope ∧
      expression context scope E = .ok E' ∧ typeName context type = .ok type' ∧
        (inScope scope x = false ∧ reservedWords.contains x = false) ∧
          nested context ((x, type'.resolved) :: scope) true S = .ok S' := by
  rw [statement] at h
  obtain ⟨E', iterable, h⟩ := bind_ok.mp h
  obtain ⟨type', resolved, h⟩ := bind_ok.mp h
  obtain ⟨inner, defined, h⟩ := bind_ok.mp h
  obtain ⟨same, absent⟩ := define_ok defined
  rw [same] at h
  obtain ⟨S', body, h⟩ := bind_ok.mp h
  cases h
  exact ⟨type', E', S', rfl, rfl, iterable, resolved, ⟨absent, free_of_define defined⟩, body⟩

/-- A variable that a statement does not mention may come into scope around it. -/
theorem statement_beside {inner : Scope} {kind kind' : Kind} {S' : CheckedStmt}
    (fresh : ∀ m ∈ S.mentions, m ≠ .variable it ∧ m ≠ .callee it)
    (h : statement context ((x, kind) :: scope) inLoop S = .ok (S', inner)) :
    ∃ inner', statement context ((x, kind) :: (it, kind') :: scope) inLoop S =
      .ok (S', inner') := by
  let T : Transfer := .around .identity ⟨0, .initial⟩ []
  have carried : Carried T context context := by
    have kinds : Kind.rename T.renames = id := funext Kind.rename_identity
    exact ⟨fun _ => by rw [kinds, Option.map_id]; rfl, fun _ => by rw [kinds, Option.map_id]; rfl⟩
  have fits (m : Mention) (isIn : m ∈ S.mentions) :
      Fits T ((x, kind) :: scope) ((x, kind) :: (it, kind') :: scope) m := by
    obtain ⟨notVariable, notCallee⟩ := fresh m isIn
    cases m with
    | «variable» name =>
      have other : (name == it) = false := beq_false_of_ne fun same =>
        notVariable (congrArg _ same)
      simp [Fits, T, Transfer.around, other]
    | callee name =>
      have other : (name == it) = false := beq_false_of_ne fun same =>
        notCallee (congrArg _ same)
      simp [Fits, T, Transfer.around, other]
  have labels : T.labels = .identity := IteratorLoop.labels_identity _ _
  have parsedLabels : T.parsedLabels = .identity := by
    have values : Value.rename T.renames = id := funext Value.rename_identity
    rw [Transfer.parsedLabels, values]
    rfl
  have ends : Alike T _ (statement context ((x, kind) :: scope) inLoop S) _ :=
    statement_alike carried S fits
  rw [parsedLabels, Stmt.relabel_identity, h] at ends
  generalize statement context ((x, kind) :: (it, kind') :: scope) inLoop S = out at ends
  cases ends with
  | @ok _ out related =>
    obtain ⟨S'', inner'⟩ := out
    have same : S'' = S'.relabel T.labels := related.1
    rw [same, labels, Stmt.relabel_identity]
    exact ⟨inner', rfl⟩

/-- A name that a statement can take for a new variable: neither in scope nor reserved, and not
mentioned by the statement. -/
structure Fresh (scope : Scope) (stmt : ParsedStmt) (name : String) : Prop where
  absent : inScope scope name = false
  free : reservedWords.contains name = false
  unmentioned : ∀ m ∈ stmt.mentions, m ≠ .variable name ∧ m ≠ .callee name

/-- **Where a `for`-each is accepted, so is the loop that asks an iterator** under a fresh
name. -/
theorem iteratorLoop_ok (resolves : context.resolve "java.util.Iterator" = some .iterators)
    (unknown : context.known () = none) (new : Fresh scope (.forEach q type x E S) it)
    (p : Nat → Position) {type' : TypeName Kind} {E' : CheckedExpr} {S' : CheckedStmt}
    (h : statement context scope inLoop (.forEach q type x E S) =
      .ok (.forEach q type' x E' S', after)) :
    statement context scope inLoop (.iteratorLoop p (.iterator (p 11)) type x it E S) =
      .ok (.iteratorLoop p ⟨p 11, "java.util.Iterator", .iterators⟩ type' x it E' S',
        scope) := by
  obtain ⟨_, _, _, same, rfl, iterable, resolved, ⟨absent', free'⟩, body⟩ := forEach_ok h
  cases same
  obtain ⟨absent, free, unmentioned⟩ := new
  obtain ⟨-, inside⟩ := List.forall_mem_append.mp unmentioned
  obtain ⟨declared, fresh⟩ := List.forall_mem_cons.mp inside
  have other : x ≠ it := fun same => declared.1 (congrArg _ same)
  obtain ⟨-, inner, body⟩ := nested_ok body
  obtain ⟨inner', body⟩ : ∃ inner', statement context
      ((x, type'.resolved) :: (it, .iterators) :: after) true S = .ok (S', inner') :=
    statement_beside fresh body
  have iterator : typeName context (.iterator (p 11)) =
      .ok ⟨p 11, "java.util.Iterator", .iterators⟩ := by
    simp only [typeName, TypeName.iterator, unknown, resolves]
    rfl
  have named (q : Position) :
      freeChain? ((it, .iterators) :: after) (.name q it : Expr Value Unit) = none := by
    simp [freeChain?, chain?, Option.filter]
  have absent'' : inScope ((it, .iterators) :: after) x = false := by
    rw [inScope_cons, absent', beq_false_of_ne other]
    rfl
  have taking : nested context ((it, .iterators) :: after) true (.taking p type x it S) =
      .ok (.taking p type' x it S') := by
    simp only [nested, Stmt.taking, Expr.callOn, refuseDeclaration, statement, statements,
      declarators, expression?, expression, expressions, named, resolved, body,
      define_of_free absent'' free', bind, Except.bind, pure, Except.pure]
  simp only [Stmt.iteratorLoop, Expr.callOn, statement, forInit, declarators, expression?,
    expression, expressions, iterable, iterator, named, define_of_free absent free, taking, bind,
    Except.bind, pure, Except.pure]

end Check

namespace Eval

/-- **A `for`-each over a list or a tuple and the loop that asks an iterator of it**: where the
check accepts the first, it accepts the second, and both have the same outcome from every closed
state in which the container is a list or a tuple. The container must not be the bare name of a
type or of a host object, since the call `iterator()` would be one of a static method. -/
theorem forEach_iteratorLoop {names : Namespace}
    (builtin : names.lookup "java.util.Iterator" = none) {source : SourceStmt} {q : Position}
    {type : TypeName Unit} {x it : String} {E : Expr Value Unit} {S : ParsedStmt}
    (read : source.mapLiterals Literal.value = .ok (.forEach q type x E S))
    {scope after : Scope} {inLoop : Bool} {checked : CheckedStmt}
    (accepted : Check.statement (Program.context .initial names) scope inLoop
      (.forEach q type x E S) = .ok (checked, after))
    (new : Check.Fresh scope (.forEach q type x E S) it) {container : CheckedExpr}
    (evaluated : Check.expression (Program.context .initial names) scope E = .ok container)
    (plain : ¬IsType container) {state behind : State} (closed : state.Closed)
    (given : ∀ entry ∈ names, entry.2.Below state.store.objects.size) {kind : ObjectKind}
    (sequence : kind = .list ∨ kind = .tuple) {ref : Ref}
    (gives : Machine.outcome (expression container) state = (.ok (.object kind ref), behind))
    (p : Nat → Position) :
    ∃ loop, Check.statement (Program.context .initial names) scope inLoop
        (.iteratorLoop p (.iterator (p 11)) type x it E S) = .ok (loop, after) ∧
      ∀ fuel, SameOutcome state (statement fuel checked) (statement fuel loop) := by
  obtain ⟨type', E', S', rfl, rfl, iterable, -, -, body⟩ := Check.forEach_ok accepted
  cases iterable.symm.trans evaluated
  have resolves := Resolver.resolve_iterator builtin .initial
  refine ⟨_, Check.iteratorLoop_ok resolves rfl new p accepted, fun fuel => ?_⟩
  refine IteratorLoop.forEach_alike closed rfl ?_ ?_ plain sequence gives fuel
  · -- Behind the objects of the state a gap is not noticed by the checked tree.
    intro n proper margin extra le
    have quiet : (Transfer.around (.gap n proper) margin extra).Quiet := ⟨rfl, rfl⟩
    have spares : Renaming.Spares (.gap n proper) names := fun entry isIn =>
      Value.rename_gap.mpr ((given entry isIn).mono le)
    exact Check.statement_steady quiet spares (Check.parsed_steady quiet read) accepted
  · obtain ⟨-, inside⟩ := List.forall_mem_append.mp new.unmentioned
    obtain ⟨-, fresh⟩ := List.forall_mem_cons.mp inside
    exact Check.nested_mentions S (fun m isIn => (fresh m isIn).1) S' body

/-- `for (Object v : container) body`, with what is known of the type. -/
def elementsOf {τ : Type} (object : τ) (container : Expr Value τ) (body : Stmt Value τ) :
    Stmt Value τ :=
  .forEach ⟨1, 1⟩ ⟨⟨1, 6⟩, "Object", object⟩ "v" container body

/-- The variable `l` holds a list, whose elements are a number and a list, and a class may hold
that list for its value. -/
def listed (settings : List ((Value × String) × Value)) : State where
  environment := [[("l", ⟨.core .object, some (.object .list 1)⟩)]]
  store := ⟨#[.items #[], .items #[.int 1, .object .list 2], .items #[.int 2]], settings,
    Double.freshMark + 1⟩

theorem listed_closed : (listed []).Closed where
  store := {
    proper := by decide
    entity := fun r => by
      match r with
      | 0 => simp [listed, Store.entity, Entity.Below]
      | 1 => simp [listed, Store.entity, Entity.Below, Value.Below]
      | 2 => simp [listed, Store.entity, Entity.Below, Value.Below]
      | r + 3 => trivial
    setting := fun _ _ _ found => nomatch found
    opened := fun _ _ _ => rfl }
  environment := by
    simp [listed, Environment.Below, Binding.Below, Kind.Below, Value.Below]

/-- `for (Object v : l) l.add(v);` goes round for ever, like the loop that asks an iterator. -/
theorem growing_forEach_iteratorLoop :
    ∃ loop, Check.statement (Program.context .initial []) [("l", .core .object)] false
        (.iteratorLoop (fun _ => ⟨1, 1⟩) (.iterator ⟨1, 1⟩) ⟨⟨1, 6⟩, "Object", ()⟩ "v" "it"
          (.name ⟨1, 17⟩ "l") (.expression ⟨1, 20⟩
            (.methodCall ⟨1, 20⟩ (.name ⟨1, 20⟩ "l") "add" [.name ⟨1, 26⟩ "v"]))) =
          .ok (loop, [("l", .core .object)]) ∧
      ∀ fuel, SameOutcome (listed [])
        (statement fuel (elementsOf (.core .object) (.name ⟨1, 17⟩ "l")
          (.expression ⟨1, 20⟩
            (.methodCall ⟨1, 20⟩ (.name ⟨1, 20⟩ "l") "add" [.name ⟨1, 26⟩ "v"]))))
        (statement fuel loop) := by
  have new : Check.Fresh [("l", .core .object)] (elementsOf () (.name ⟨1, 17⟩ "l")
      (.expression ⟨1, 20⟩
        (.methodCall ⟨1, 20⟩ (.name ⟨1, 20⟩ "l") "add" [.name ⟨1, 26⟩ "v"]))) "it" :=
    ⟨by decide, by decide, by
      simp [elementsOf, Stmt.mentions, Expr.mentions, Expr.mentionsOfAll]⟩
  have read : Stmt.mapLiterals Literal.value (.forEach ⟨1, 1⟩ ⟨⟨1, 6⟩, "Object", ()⟩ "v"
      (.name ⟨1, 17⟩ "l") (.expression ⟨1, 20⟩
        (.methodCall ⟨1, 20⟩ (.name ⟨1, 20⟩ "l") "add" [.name ⟨1, 26⟩ "v"]))) =
      .ok (elementsOf () (.name ⟨1, 17⟩ "l") (.expression ⟨1, 20⟩
        (.methodCall ⟨1, 20⟩ (.name ⟨1, 20⟩ "l") "add" [.name ⟨1, 26⟩ "v"]))) := rfl
  exact forEach_iteratorLoop rfl read (by cbv) new rfl (by rintro ⟨_, _, ⟨⟩⟩)
    listed_closed (List.forall_mem_nil _) (.inl rfl) rfl _

/-- The name `Object` in the place of a value. -/
def objectNamed : CheckedExpr := .typeName ⟨1, 17⟩ ⟨⟨1, 17⟩, "Object", .core .object⟩

/-- A state in which `Object` stands for the value `l.pop()`. -/
def popping : State :=
  listed [((.type .object, "as_value"), .method (.object .list 1) "pop")]

/-- `for (Object v : Object) ;` goes over the list that the type gives for its value; a call
`Object.iterator()` is one of a static method, which there is not. -/
theorem typeContainer_differs :
    Check.statement (Program.context .initial []) [("l", .core .object)] false
        (elementsOf () (.name ⟨1, 17⟩ "Object") (.empty ⟨1, 25⟩)) =
      .ok (elementsOf (.core .object) objectNamed (.empty ⟨1, 25⟩),
        [("l", .core .object)]) ∧
    Check.Fresh [("l", .core .object)]
      (elementsOf () (.name ⟨1, 17⟩ "Object") (.empty ⟨1, 25⟩)) "it" ∧
    (Machine.outcome (expression objectNamed) popping).1 = .ok (.object .list 2) ∧
    Check.statement (Program.context .initial []) [("l", .core .object)] false
        (.iteratorLoop (fun _ => ⟨1, 1⟩) (.iterator ⟨1, 1⟩) ⟨⟨1, 6⟩, "Object", ()⟩ "v" "it"
          (.name ⟨1, 17⟩ "Object") (.empty ⟨1, 25⟩)) =
      .ok (.iteratorLoop (fun _ => ⟨1, 1⟩) ⟨⟨1, 1⟩, "java.util.Iterator", .iterators⟩
        ⟨⟨1, 6⟩, "Object", .core .object⟩ "v" "it" objectNamed (.empty ⟨1, 25⟩),
          [("l", .core .object)]) ∧
    ¬SameOutcome popping
      (statement 3 (elementsOf (.core .object) objectNamed (.empty ⟨1, 25⟩)))
      (statement 3 (.iteratorLoop (fun _ => ⟨1, 1⟩)
        ⟨⟨1, 1⟩, "java.util.Iterator", .iterators⟩ ⟨⟨1, 6⟩, "Object", .core .object⟩ "v" "it"
          objectNamed (.empty ⟨1, 25⟩))) := by
  refine ⟨by cbv, ⟨by decide, by decide, ?_⟩, by cbv, by cbv, ?_⟩
  · simp [elementsOf, Stmt.mentions, Expr.mentions]
  · rintro ⟨σ, -, -, same, -⟩
    have goesRound : (Machine.outcome (statement 3
        (elementsOf (.core .object) objectNamed (.empty ⟨1, 25⟩))) popping).1 =
          .ok .normal := by cbv
    have fails : (Machine.outcome (statement 3 (.iteratorLoop (fun _ => ⟨1, 1⟩)
        ⟨⟨1, 1⟩, "java.util.Iterator", .iterators⟩ ⟨⟨1, 6⟩, "Object", .core .object⟩ "v" "it"
          objectNamed (.empty ⟨1, 25⟩))) popping).1 =
        .error (.fault (.evaluation (.noStaticMethod "Object" "iterator"))) := by cbv
    rw [goesRound, fails] at same
    cases same

end Eval

end Formulary
