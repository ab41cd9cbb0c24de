/-
Reading the literals of relabelled trees.

Reading literals and changing labels can be done in either order, if the spellings that a
relabeling leads to are read as the values that it leads to.
-/

import Formulary.Proofs.Relabeling
import Formulary.Proofs.RenamedHosts
import Formulary.Syntax.Literal

namespace Formulary

variable {α β γ δ τ κ ε : Type}

/-- The relabeling behind the reading of literals, which changes no other labels. -/
def Relabeling.reading (g : Relabeling α γ τ κ) (literal : β → δ) : Relabeling β δ τ κ :=
  ⟨g.place, literal, g.ident, g.type⟩

@[simp]
theorem TypeName.relabel_reading (g : Relabeling α γ τ κ) (literal : β → δ)
    (type : TypeName τ) : type.relabel (g.reading literal) = type.relabel g := rfl

section Literals

variable {f : α → Except ε β} {f' : γ → Except ε δ} {g : Relabeling α γ τ κ}
  {literal : β → δ}

namespace Expr

mutual

/-- **Reading the literals of a relabelled expression.** -/
theorem mapLiterals_relabel (reads : ∀ a, f' (g.literal a) = literal <$> f a) :
    ∀ e : Expr α τ,
    (e.relabel g).mapLiterals f' = relabel (g.reading literal) <$> e.mapLiterals f
  | .literal p value => by
    simp only [relabel, mapLiterals, reads, map_bind, bind_map_left]
    rfl
  | .name .. | .typeName .. => rfl
  | .field _ receiver _ => by
    simp only [relabel, mapLiterals, mapLiterals_relabel reads receiver, map_bind, bind_map_left]
    rfl
  | .methodCall _ receiver _ args => by
    simp only [relabel, mapLiterals, mapLiterals_relabel reads receiver,
      mapAllLiterals_relabel reads args, map_bind, bind_map_left]
    rfl
  | .call _ _ args => by
    simp only [relabel, mapLiterals, mapAllLiterals_relabel reads args, map_bind, bind_map_left]
    rfl
  | .index _ container place => by
    simp only [relabel, mapLiterals, mapLiterals_relabel reads container,
      mapLiterals_relabel reads place, map_bind, bind_map_left]
    rfl
  | .unary _ _ operand => by
    simp only [relabel, mapLiterals, mapLiterals_relabel reads operand, map_bind, bind_map_left]
    rfl
  | .step _ _ target _ => by
    simp only [relabel, mapLiterals, mapLiterals_relabel reads target, map_bind, bind_map_left]
    rfl
  | .binary _ _ left right => by
    simp only [relabel, mapLiterals, mapLiterals_relabel reads left, mapLiterals_relabel reads right,
      map_bind, bind_map_left]
    rfl
  | .logical _ _ left right => by
    simp only [relabel, mapLiterals, mapLiterals_relabel reads left, mapLiterals_relabel reads right,
      map_bind, bind_map_left]
    rfl
  | .conditional _ test thenValue elseValue => by
    simp only [relabel, mapLiterals, mapLiterals_relabel reads test,
      mapLiterals_relabel reads thenValue, mapLiterals_relabel reads elseValue, map_bind, bind_map_left]
    rfl
  | .assign _ _ target value => by
    simp only [relabel, mapLiterals, mapLiterals_relabel reads target, mapLiterals_relabel reads value,
      map_bind, bind_map_left]
    rfl
  | .cast _ _ operand => by
    simp only [relabel, mapLiterals, mapLiterals_relabel reads operand, map_bind, bind_map_left]
    rfl
  | .instanceOf _ value _ => by
    simp only [relabel, mapLiterals, mapLiterals_relabel reads value, map_bind, bind_map_left]
    rfl
  | .new _ _ args => by
    simp only [relabel, mapLiterals, mapAllLiterals_relabel reads args, map_bind, bind_map_left]
    rfl

theorem mapAllLiterals_relabel (reads : ∀ a, f' (g.literal a) = literal <$> f a) :
    ∀ es : List (Expr α τ),
    mapAllLiterals f' (relabelAll g es) =
      relabelAll (g.reading literal) <$> mapAllLiterals f es
  | [] => rfl
  | e :: rest => by
    simp only [relabelAll, mapAllLiterals, mapLiterals_relabel reads e,
      mapAllLiterals_relabel reads rest, map_bind, bind_map_left]
    rfl

end

theorem mapLiterals?_relabel (reads : ∀ a, f' (g.literal a) = literal <$> f a)
    (value : Option (Expr α τ)) :
    mapLiterals? f' (value.map (·.relabel g)) =
      Option.map (·.relabel (g.reading literal)) <$> mapLiterals? f value := by
  cases value with
  | none => rfl
  | some e =>
    simp only [Option.map_some, mapLiterals?, mapLiterals_relabel reads e]
    cases e.mapLiterals f <;> rfl

end Expr

/-- Reading relabelled parts one after the other. -/
theorem mapM_relabel {ι ι' υ υ' : Type} {k : ι → Except ε υ} {l : ι' → Except ε υ'}
    {g : ι → ι'} {h : υ → υ'}
    (same : ∀ part, l (g part) = h <$> k part) (parts : List ι) :
    (parts.map g).mapM l = List.map h <$> parts.mapM k := by
  induction parts with
  | nil => rfl
  | cons part rest ih =>
    simp only [List.map_cons, List.mapM_cons, same, ih, map_bind, bind_map_left, map_pure]

theorem Declarator.mapLiterals_relabel
    (reads : ∀ a, f' (g.literal a) = literal <$> f a) (declarator : Declarator α τ) :
    (declarator.relabel g).mapLiterals f' =
      relabel (g.reading literal) <$> declarator.mapLiterals f := by
  simp only [Declarator.mapLiterals, relabel, Expr.mapLiterals?_relabel reads,
    map_bind, bind_map_left]
  rfl

theorem ForInit.mapLiterals_relabel (reads : ∀ a, f' (g.literal a) = literal <$> f a)
    (init : ForInit α τ) :
    (init.relabel g).mapLiterals f' =
      relabel (g.reading literal) <$> init.mapLiterals f := by
  cases init with
  | none => rfl
  | declaration p type names =>
    simp only [relabel, mapLiterals,
      mapM_relabel (Declarator.mapLiterals_relabel reads) names, map_bind, bind_map_left]
    rfl
  | expressions values =>
    have all := mapM_relabel
      (k := fun value : Position × Expr α τ => do return (value.1, ← value.2.mapLiterals f))
      (l := fun value => do return (value.1, ← value.2.mapLiterals f'))
      (g := relabelPlaced g) (h := relabelPlaced (g.reading literal))
      (fun value => by
        simp only [relabelPlaced, Expr.mapLiterals_relabel reads, map_bind, bind_map_left]
        rfl) values
    simp only [relabel, mapLiterals, all, map_bind, bind_map_left]
    rfl

namespace Stmt

mutual

/-- **Reading the literals of a relabelled statement.** -/
theorem mapLiterals_relabel (reads : ∀ a, f' (g.literal a) = literal <$> f a) :
    ∀ stmt : Stmt α τ,
    (stmt.relabel g).mapLiterals f' = relabel (g.reading literal) <$> stmt.mapLiterals f
  | .block _ inner => by
    simp only [relabel, mapLiterals, mapAllLiterals_relabel reads inner, map_bind,
      bind_map_left]
    rfl
  | .empty _ | .breaks _ | .continues _ => rfl
  | .declaration _ _ names => by
    simp only [relabel, mapLiterals,
      mapM_relabel (Declarator.mapLiterals_relabel reads) names, map_bind, bind_map_left]
    rfl
  | .expression _ value => by
    simp only [relabel, mapLiterals, Expr.mapLiterals_relabel reads value, map_bind,
      bind_map_left]
    rfl
  | .ifThen _ test thenBranch => by
    simp only [relabel, mapLiterals, Expr.mapLiterals_relabel reads test,
      mapLiterals_relabel reads thenBranch, map_bind, bind_map_left]
    rfl
  | .ifThenElse _ test thenBranch elseBranch => by
    simp only [relabel, mapLiterals, Expr.mapLiterals_relabel reads test,
      mapLiterals_relabel reads thenBranch, mapLiterals_relabel reads elseBranch, map_bind,
      bind_map_left]
    rfl
  | .whileLoop _ test body => by
    simp only [relabel, mapLiterals, Expr.mapLiterals_relabel reads test,
      mapLiterals_relabel reads body, map_bind, bind_map_left]
    rfl
  | .doLoop _ body test => by
    simp only [relabel, mapLiterals, Expr.mapLiterals_relabel reads test,
      mapLiterals_relabel reads body, map_bind, bind_map_left]
    rfl
  | .forLoop _ init test update body => by
    simp only [relabel, mapLiterals, ForInit.mapLiterals_relabel reads init,
      Expr.mapLiterals?_relabel reads test, Expr.mapAllLiterals_relabel reads update,
      mapLiterals_relabel reads body, map_bind, bind_map_left]
    rfl
  | .forEach _ _ _ iterable body => by
    simp only [relabel, mapLiterals, Expr.mapLiterals_relabel reads iterable,
      mapLiterals_relabel reads body, map_bind, bind_map_left]
    rfl
  | .returns _ value => by
    simp only [relabel, mapLiterals, Expr.mapLiterals?_relabel reads value, map_bind,
      bind_map_left]
    rfl

theorem mapAllLiterals_relabel (reads : ∀ a, f' (g.literal a) = literal <$> f a) :
    ∀ stmts : List (Stmt α τ),
    mapAllLiterals f' (relabelAll g stmts) =
      relabelAll (g.reading literal) <$> mapAllLiterals f stmts
  | [] => rfl
  | stmt :: rest => by
    simp only [relabelAll, mapAllLiterals, mapLiterals_relabel reads stmt,
      mapAllLiterals_relabel reads rest, map_bind, bind_map_left]
    rfl

end

end Stmt

end Literals

/-! ### Trees that stay what they are -/

/-- The relabeling that changes nothing. -/
def Relabeling.identity : Relabeling α α τ τ := ⟨id, id, id, id⟩

theorem TypeName.relabel_identity (type : TypeName τ) :
    type.relabel (.identity : Relabeling α α τ τ) = type := rfl

namespace Expr

mutual

theorem relabel_identity : ∀ e : Expr α τ, e.relabel .identity = e
  | .literal .. | .name .. | .typeName .. => rfl
  | .field _ receiver _ => by rw [relabel, relabel_identity receiver]; rfl
  | .methodCall _ receiver _ args => by
    rw [relabel, relabel_identity receiver, relabelAll_identity args]
    rfl
  | .call _ _ args => by rw [relabel, relabelAll_identity args]; rfl
  | .index _ container place => by
    rw [relabel, relabel_identity container, relabel_identity place]
    rfl
  | .unary _ _ operand => by rw [relabel, relabel_identity operand]; rfl
  | .step _ _ target _ => by rw [relabel, relabel_identity target]; rfl
  | .binary _ _ left right => by
    rw [relabel, relabel_identity left, relabel_identity right]
    rfl
  | .logical _ _ left right => by
    rw [relabel, relabel_identity left, relabel_identity right]
    rfl
  | .conditional _ test thenValue elseValue => by
    rw [relabel, relabel_identity test, relabel_identity thenValue,
      relabel_identity elseValue]
    rfl
  | .assign _ _ target value => by
    rw [relabel, relabel_identity target, relabel_identity value]
    rfl
  | .cast _ _ operand => by rw [relabel, relabel_identity operand]; rfl
  | .instanceOf _ value _ => by rw [relabel, relabel_identity value]; rfl
  | .new _ _ args => by rw [relabel, relabelAll_identity args]; rfl

theorem relabelAll_identity : ∀ es : List (Expr α τ), relabelAll .identity es = es
  | [] => rfl
  | e :: rest => by rw [relabelAll, relabel_identity e, relabelAll_identity rest]

end

end Expr

theorem Declarator.relabel_identity (declarator : Declarator α τ) :
    declarator.relabel .identity = declarator := by
  obtain ⟨position, name, value⟩ := declarator
  cases value with
  | none => rfl
  | some value =>
    rw [relabel, Option.map_some, Expr.relabel_identity]
    rfl

theorem ForInit.relabel_identity (init : ForInit α τ) : init.relabel .identity = init := by
  cases init with
  | none => rfl
  | declaration p type names =>
    rw [relabel, List.map_congr_left fun name _ => Declarator.relabel_identity name, List.map_id']
    rfl
  | expressions values =>
    have same (value : Position × Expr α τ) : relabelPlaced .identity value = value := by
      rw [relabelPlaced, Expr.relabel_identity]
      rfl
    rw [relabel, List.map_congr_left fun value _ => same value, List.map_id']

theorem Expr.relabel?_identity (value : Option (Expr α τ)) :
    value.map (·.relabel .identity) = value := by
  cases value with
  | none => rfl
  | some e => rw [Option.map_some, relabel_identity]

namespace Stmt

mutual

theorem relabel_identity : ∀ stmt : Stmt α τ, stmt.relabel .identity = stmt
  | .block _ inner => by rw [relabel, relabelAll_identity inner]; rfl
  | .empty _ | .breaks _ | .continues _ => rfl
  | .declaration _ _ names => by
    rw [relabel, List.map_congr_left fun name _ => Declarator.relabel_identity name, List.map_id']
    rfl
  | .expression _ value => by rw [relabel, Expr.relabel_identity value]; rfl
  | .ifThen _ test thenBranch => by
    rw [relabel, Expr.relabel_identity test, relabel_identity thenBranch]
    rfl
  | .ifThenElse _ test thenBranch elseBranch => by
    rw [relabel, Expr.relabel_identity test, relabel_identity thenBranch,
      relabel_identity elseBranch]
    rfl
  | .whileLoop _ test body => by
    rw [relabel, Expr.relabel_identity test, relabel_identity body]
    rfl
  | .doLoop _ body test => by
    rw [relabel, relabel_identity body, Expr.relabel_identity test]
    rfl
  | .forLoop _ init test update body => by
    rw [relabel, ForInit.relabel_identity init, Expr.relabel?_identity test,
      Expr.relabelAll_identity update, relabel_identity body]
    rfl
  | .forEach _ _ _ iterable body => by
    rw [relabel, Expr.relabel_identity iterable, relabel_identity body]
    rfl
  | .returns _ value => by rw [relabel, Expr.relabel?_identity value]; rfl

theorem relabelAll_identity : ∀ stmts : List (Stmt α τ), relabelAll .identity stmts = stmts
  | [] => rfl
  | stmt :: rest => by rw [relabelAll, relabel_identity stmt, relabelAll_identity rest]

end

end Stmt

/-! ### Values of literals -/

namespace Literal

variable (σ : Renaming)

theorem integer_rename (spelling : List Char) :
    Value.rename σ <$> integer spelling = integer spelling := by
  have sized (p : Prop) [Decidable p] (i j : Int) :
      (if p then Value.long i else .int j).rename σ = if p then .long i else .int j := by
    split <;> rfl
  dsimp only [integer]
  split <;> simp only [map_bind, map_pure, sized]

theorem floating_rename (spelling : List Char) :
    (floating spelling).rename σ = floating spelling := by
  unfold floating
  extract_lets numeral value
  have kept : value.rename σ = value := by
    have read := Double.rename_ofText? σ (codesOf numeral)
    cases found : Double.ofText? (codesOf numeral) with
    | none => simp [value, found]
    | some x =>
      rw [found, Option.map_some, Option.some_inj] at read
      simp [value, found, read]
  split
  · rw [Value.rename, ← Double.toSingle_rename, kept]
  · rw [Value.rename, kept]

/-- **A literal refers to no object** and is no result that could be told apart from another. -/
theorem value_rename (lexeme : Lexeme) :
    value lexeme = Value.rename σ <$> value lexeme := by
  cases lexeme with
  | integer spelling => exact (integer_rename σ spelling).symm
  | floating spelling => exact congrArg Except.ok (floating_rename σ spelling).symm
  | string spelling =>
    simp only [value, map_bind, map_pure, Value.rename]
  | character spelling =>
    simp only [value, map_bind, map_pure, Value.rename]
  | keyword word => cases word <;> rfl
  | _ => rfl

end Literal

end Formulary
