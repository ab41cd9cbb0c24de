/-
What a compiled tree refers to.

The objects that a checked tree refers to are those that the names of the caller lead to: its
literals refer to none, and neither do the built-in types and the modules of the host. A renaming that leaves
the objects of the caller where they are leaves the tree as it is.

* `Resolver.resolve_rename` — what a name stands for.
* `Program.carried_context` — looking names up commutes with a renaming.
* `Check.statement_steady`, `Program.compile_steady` — what checking and compiling give.
-/

import Formulary.Proofs.RelabeledChecking
import Formulary.Proofs.RenamedRuns

namespace Formulary

/-- A renaming that leaves the objects that the caller gives names to where they are. -/
def Renaming.Spares (σ : Renaming) (names : Namespace) : Prop :=
  ∀ entry ∈ names, entry.2.rename σ = entry.2

theorem Renaming.spares_nil (σ : Renaming) : σ.Spares [] := List.forall_mem_nil _

/-! ### What names stand for -/

theorem Store.entity_initial (r : Ref) :
    Store.initial.entity r = if r = 0 then .items #[] else .bare := by
  cases r <;> rfl

/-- The store that holds the empty tuple alone stays what it is. -/
theorem Store.renamed_initial (σ : Renaming) : Store.Renamed σ .initial .initial where
  entity r := by
    have first : σ.ref r = 0 ↔ r = 0 := by
      constructor
      · intro same
        exact σ.ref_strictMono.injective (same.trans σ.ref_zero.symm)
      · rintro rfl
        exact σ.ref_zero
    simp only [entity_initial, first]
    split
    · simp [Entity.rename]
    · rfl
  setting _ _ := rfl

namespace Resolver

variable {σ : Renaming}

theorem follow_rename (value : Value) (members : List String) :
    follow .initial (value.rename σ) members =
      (follow .initial value members).map (·.rename σ) := by
  induction members generalizing value with
  | nil => rfl
  | cons name rest ih =>
    rw [follow, follow, (Store.renamed_initial σ).member?]
    cases Store.initial.member? value name with
    | none => rfl
    | some next => exact ih next

theorem imported?_rename {name : String} {target : Value}
    (h : imported? .initial name = some target) : target.rename σ = target := by
  have steady (start : Value) (members : List String) (same : start.rename σ = start)
      (h : follow .initial start members = some target) : target.rename σ = target := by
    have followed : follow .initial (start.rename σ) members =
        (follow .initial start members).map (·.rename σ) := follow_rename start members
    rw [same, h, Option.map_some, Option.some_inj] at followed
    exact followed.symm
  unfold imported? at h
  split at h
  · exact steady _ _ rfl h
  · exact steady _ _ rfl h
  · cases h

end Resolver

/-- A kind that stands for no object of the store. -/
def Kind.isFixed : Kind → Bool
  | .core _ | .number | .host _ (.hostClass _) _ => true
  | .host .. => false

theorem Kind.rename_of_isFixed {σ : Renaming} {kind : Kind} (fixed : kind.isFixed = true) :
    kind.rename σ = kind := by
  cases kind with
  | host name target isAbstract =>
    cases target with
    | hostClass cls => rfl
    | _ => cases fixed
  | _ => rfl

theorem Kind.builtins_isFixed : Kind.builtins.all (·.2.isFixed) = true := by decide

theorem Kind.rename_ofHost {σ : Renaming} {target : Value} (same : target.rename σ = target)
    (name : String) : (Kind.ofHost name target).rename σ = .ofHost name target := by
  cases target <;> simp_all [Kind.ofHost, Kind.rename]

theorem mem_of_lookup {α : Type} {name : String} {entry : α} {entries : List (String × α)}
    (h : entries.lookup name = some entry) : (name, entry) ∈ entries := by
  induction entries with
  | nil => cases h
  | cons first rest ih =>
    obtain ⟨other, value⟩ := first
    rw [List.lookup_cons] at h
    split at h
    · next same =>
      cases h
      rw [eq_of_beq same]
      exact List.mem_cons_self
    · exact List.mem_cons_of_mem _ (ih h)

/-- **What a name stands for refers to nothing but objects of the caller.** -/
theorem Resolver.resolve_rename {σ : Renaming} {names : Namespace} (spares : σ.Spares names)
    {name : String} {kind : Kind} (h : resolve .initial names name = some kind) :
    kind.rename σ = kind := by
  unfold resolve at h
  split at h
  · cases h
    rfl
  · split at h
    · next target found =>
      cases h
      exact Kind.rename_ofHost (spares _ (mem_of_lookup found)) name
    · split at h
      · next found =>
        cases h
        exact Kind.rename_of_isFixed (List.all_eq_true.mp Kind.builtins_isFixed _
          (mem_of_lookup found))
      · split at h
        · obtain ⟨target, found, rfl⟩ := Option.map_eq_some_iff.mp h
          exact Kind.rename_ofHost (imported?_rename found) name
        · cases h

/-! ### Checked trees -/

/-- A transfer that changes neither positions nor names. -/
structure Transfer.Quiet (T : Transfer) : Prop where
  place : T.place = id
  ident : T.ident = id

namespace Program

variable {T : Transfer} {names : Namespace}

theorem carried_context (spares : T.renames.Spares names) :
    Check.Carried T (context .initial names) (context .initial names) where
  resolve name := by
    cases found : (context .initial names).resolve name with
    | none => rfl
    | some kind => exact congrArg some (Resolver.resolve_rename spares found).symm
  known _ := rfl

end Program

namespace Check

variable {T : Transfer} (quiet : T.Quiet)

include quiet

theorem fits_self (scope : Scope) (m : Mention) : Fits T scope scope m := by
  cases m <;> simp [Fits, quiet.ident]

theorem parsedLabels_eq : T.parsedLabels =
    (Relabeling.identity : Relabeling Lexeme Lexeme Unit Unit).reading
      (Value.rename T.renames) := by
  simp [Relabeling.reading, Relabeling.identity, Transfer.parsedLabels, quiet.place,
    quiet.ident]

/-- A statement whose literals have been read stays what it is. -/
theorem parsed_steady {source : SourceStmt} {parsed : ParsedStmt}
    (read : source.mapLiterals Literal.value = .ok parsed) :
    parsed.relabel T.parsedLabels = parsed := by
  have commutes : (source.relabel .identity).mapLiterals Literal.value =
      Stmt.relabel (Relabeling.identity.reading (Value.rename T.renames)) <$>
        source.mapLiterals Literal.value :=
    Stmt.mapLiterals_relabel (Literal.value_rename T.renames) source
  rw [Stmt.relabel_identity, read, ← parsedLabels_eq quiet] at commutes
  exact (Except.ok.inj commutes).symm

theorem allParsed_steady {source : List SourceStmt} {parsed : List ParsedStmt}
    (read : Stmt.mapAllLiterals Literal.value source = .ok parsed) :
    Stmt.relabelAll T.parsedLabels parsed = parsed := by
  have commutes : Stmt.mapAllLiterals Literal.value (Stmt.relabelAll .identity source) =
      Stmt.relabelAll (Relabeling.identity.reading (Value.rename T.renames)) <$>
        Stmt.mapAllLiterals Literal.value source :=
    Stmt.mapAllLiterals_relabel (Literal.value_rename T.renames) source
  rw [Stmt.relabelAll_identity, read, ← parsedLabels_eq quiet] at commutes
  exact (Except.ok.inj commutes).symm

variable {names : Namespace} (spares : T.renames.Spares names)

include spares

/-- **A checked statement stays what it is**, if the objects of the caller stay where they
are. -/
theorem statement_steady {scope after : Scope} {inLoop : Bool} {parsed : ParsedStmt}
    {checked : CheckedStmt} (same : parsed.relabel T.parsedLabels = parsed)
    (h : statement (Program.context .initial names) scope inLoop parsed =
      .ok (checked, after)) : checked.relabel T.labels = checked := by
  have ends : Alike T _ (statement (Program.context .initial names) scope inLoop parsed)
      (statement (Program.context .initial names) scope inLoop
        (parsed.relabel T.parsedLabels)) :=
    statement_alike (Program.carried_context spares) parsed fun m _ => fits_self quiet scope m
  rw [same, h] at ends
  cases ends with
  | ok ended => exact ended.1.symm

theorem body_steady {argsName : String} {parsed : List ParsedStmt}
    {checked : List CheckedStmt} (same : Stmt.relabelAll T.parsedLabels parsed = parsed)
    (h : body (Program.context .initial names) argsName parsed = .ok checked) :
    Stmt.relabelAll T.labels checked = checked := by
  have kept : T.ident argsName = argsName := by rw [quiet.ident, id]
  have ends := body_alike (T := T) (Program.carried_context spares) (congrArg _ kept) parsed
    fun m _ => kept.symm ▸ fits_self quiet _ m
  rw [same, kept, h] at ends
  cases ends with
  | ok ended => exact ended.symm

end Check

/-- **A compiled program stays what it is**, if the objects of the caller stay where they
are. -/
theorem Program.compile_steady {T : Transfer} (quiet : T.Quiet) {names : Namespace}
    (spares : T.renames.Spares names) {argsName returnType : String} {source : List Char}
    {program : Program} (h : compile names argsName returnType source = .ok program) :
    program.relabel T = program := by
  unfold compile at h
  split at h
  · cases h
  · next parsed read =>
    have same : Stmt.relabelAll T.parsedLabels parsed = parsed := by
      unfold readBody at read
      split at read
      · cases read
      · next tree _ =>
        split at read
        · cases read
        · cases literals : Stmt.mapAllLiterals Literal.value tree with
          | error error =>
            rw [literals] at read
            cases read
          | ok values =>
            rw [literals] at read
            cases read
            exact Check.allParsed_steady quiet literals
    unfold ofBody at h
    split at h
    · cases h
    · cases h
    · next returnKind resolved =>
      have kind : returnKind.rename T.renames = returnKind := by
        unfold Resolver.resolveAny at resolved
        split at resolved
        · next found =>
          cases resolved
          exact Resolver.resolve_rename spares found
        · split at resolved <;> cases resolved
      split at h
      · cases h
      · next checked ok =>
        cases h
        have body := Check.body_steady quiet spares same ok
        simp only [relabel, quiet.ident, id, body, kind]

end Formulary
