/-
What stands for a parameter in the finished source.

A body that is the name of a parameter becomes the access to the argument at the first place
that has the name. The access is an expression, so the finished source casts it to the return
type and returns it.

* `Bindable` — parameters whose names no pass of the substitution finds in an access.
* `substitute_name` — the body that is a name.
* `ofText_name` — the request that a backend is given for it.
-/

import Formulary.Function
import Formulary.Proofs.FreeWords
import Formulary.Proofs.Splitting
import Formulary.Proofs.Substitution

namespace Formulary.Substitution

open Signature (Parameter IsWord declarations firstPlace functionText)
open Text (Plain runs)

/-! ### Runs of an access -/

/-- The place of an argument in the array. -/
def slotText (argsName : List Char) (index : Nat) : List Char :=
  argsName ++ '[' :: (Nat.toDigits 10 index ++ [']'])

/-- The method that unboxes a primitive. -/
def unboxing (primitive : List Char) : List Char :=
  primitive ++ "Value".toList

theorem digits_plain (n : Nat) : Plain (Nat.toDigits 10 n) := by
  intro c isIn
  have digit := Nat.isDigit_of_mem_toDigits (by decide) (by decide) isIn
  simp only [Char.isDigit, Bool.and_eq_true, decide_eq_true_eq] at digit
  obtain ⟨low, high⟩ := digit
  have outside : Text.boundaryChars.all (fun b => !(48 ≤ b.toNat && b.toNat ≤ 57)) = true := by
    decide
  rw [Text.isBoundary, List.contains_eq_mem, decide_eq_false_iff_not]
  intro isBoundary
  have apart := List.all_eq_true.mp outside c isBoundary
  have inside : 48 ≤ c.toNat ∧ c.toNat ≤ 57 := ⟨low, high⟩
  simp [inside] at apart

theorem slotText_plain {argsName : List Char} (plain : Plain argsName) (index : Nat) :
    Plain (slotText argsName index) := by
  intro c isIn
  simp only [slotText, List.mem_append, List.mem_cons, List.not_mem_nil, or_false] at isIn
  rcases isIn with isIn | rfl | isDigit | rfl
  · exact plain c isIn
  · decide
  · exact digits_plain index c isDigit
  · decide

/-- The access to an argument of a type that the table does not know as boxed. -/
theorem access_plain {table : TypeTable} {declaration : Declaration}
    (other : table.primitiveName? declaration.typeName = none) (argsName : List Char) :
    access table argsName declaration =
      '(' :: '(' :: (declaration.typeName ++
        ')' :: ' ' :: (slotText argsName declaration.index ++ [')'])) := by
  simp [access, other, slotText]

/-- The access to an argument of a boxed type. -/
theorem access_boxed {table : TypeTable} {declaration : Declaration} {primitive : List Char}
    (boxed : table.primitiveName? declaration.typeName = some primitive)
    (argsName : List Char) :
    access table argsName declaration =
      '(' :: '(' :: '(' :: (declaration.typeName ++
        ')' :: ' ' :: (slotText argsName declaration.index ++
          ')' :: '.' :: (unboxing primitive ++ ['(', ')', ')']))) := by
  simp [access, boxed, slotText, unboxing]

/-- The runs of an access are its type, its slot and the method that unboxes it. -/
theorem mem_runs_access {table : TypeTable} {argsName : List Char} {declaration : Declaration}
    (plain : Plain argsName) (typed : Plain declaration.typeName)
    (some : declaration.typeName ≠ [])
    (methods : ∀ primitive, table.primitiveName? declaration.typeName = .some primitive →
      Plain (unboxing primitive))
    {run : List Char} (isRun : run ∈ runs (access table argsName declaration)) :
    run = declaration.typeName ∨ run = slotText argsName declaration.index ∨
      ∃ primitive, table.primitiveName? declaration.typeName = .some primitive ∧
        run = unboxing primitive := by
  have slot := slotText_plain plain declaration.index
  have someSlot : slotText argsName declaration.index ≠ [] := by simp [slotText]
  cases boxed : table.primitiveName? declaration.typeName with
  | none =>
    rw [access_plain boxed, Text.runs_boundary (by decide), Text.runs_boundary (by decide),
      Text.runs_run some typed (by rfl), Text.runs_boundary (by decide),
      Text.runs_boundary (by decide), Text.runs_run someSlot slot (by rfl),
      Text.runs_boundary (by decide)] at isRun
    rcases List.mem_cons.mp isRun with isType | isRun
    · exact .inl isType
    · exact .inr (.inl (List.mem_singleton.mp isRun))
  | some primitive =>
    have someMethod : unboxing primitive ≠ [] := by simp [unboxing]
    rw [access_boxed boxed, Text.runs_boundary (by decide), Text.runs_boundary (by decide),
      Text.runs_boundary (by decide), Text.runs_run some typed (by rfl),
      Text.runs_boundary (by decide), Text.runs_boundary (by decide),
      Text.runs_run someSlot slot (by rfl), Text.runs_boundary (by decide),
      Text.runs_boundary (by decide), Text.runs_run someMethod (methods primitive boxed) (by rfl),
      Text.runs_boundary (by decide), Text.runs_boundary (by decide),
      Text.runs_boundary (by decide)] at isRun
    rcases List.mem_cons.mp isRun with isType | isRun
    · exact .inl isType
    · rcases List.mem_cons.mp isRun with isSlot | isRun
      · exact .inr (.inl isSlot)
      · exact .inr (.inr ⟨primitive, rfl, List.mem_singleton.mp isRun⟩)

/-! ### Parameters that can be bound -/

/-- The types of arguments: any object, or one that is unboxed. -/
def argumentTypes : List (List Char) :=
  Signature.defaultReturnType :: TypeTable.standard.pairs.map Prod.snd

/-- Parameters whose names are words of their own: without blanks, brackets and boundary
characters, and none of them a type of the list or a method that unboxes. -/
structure Bindable (parameters : List Parameter) : Prop where
  typed : ∀ parameter ∈ parameters, parameter.typeName ∈ argumentTypes
  some : ∀ parameter ∈ parameters, parameter.name ≠ []
  solid : ∀ parameter ∈ parameters, ∀ c ∈ parameter.name, Text.isBlank c = false
  noBracket : ∀ parameter ∈ parameters, '[' ∉ parameter.name
  plain : ∀ parameter ∈ parameters, Plain parameter.name
  noType : ∀ parameter ∈ parameters, ∀ other ∈ parameters, parameter.name ≠ other.typeName
  noMethod : ∀ parameter ∈ parameters, ∀ pair ∈ TypeTable.standard.pairs,
    parameter.name ≠ unboxing pair.1

theorem argumentTypes_isWord : ∀ type ∈ argumentTypes, IsWord type ∧ Plain type := by
  decide +kernel

theorem primitiveName_mem {table : TypeTable} {boxed primitive : List Char}
    (h : table.primitiveName? boxed = some primitive) : (primitive, boxed) ∈ table.pairs := by
  obtain ⟨pair, found, rfl⟩ := Option.map_eq_some_iff.mp h
  have same : pair.2 = boxed := by simpa using List.find?_some found
  rw [← same]
  exact List.mem_reverse.mp (List.mem_of_find?_eq_some found)

theorem unboxing_plain : ∀ pair ∈ TypeTable.standard.pairs, Plain (unboxing pair.1) := by
  decide +kernel

variable {parameters : List Parameter} {argsName : List Char}

theorem Bindable.isPlain (bindable : Bindable parameters) :
    ∀ parameter ∈ parameters, parameter.IsPlain := by
  intro parameter isIn
  have marks : Signature.marks.all Text.isBoundary = true := by decide
  refine ⟨(argumentTypes_isWord _ (bindable.typed parameter isIn)).1,
    ⟨bindable.some parameter isIn, bindable.solid parameter isIn⟩, fun c inName isMark => ?_⟩
  have plain := bindable.plain parameter isIn c inName
  rw [List.all_eq_true.mp marks c isMark] at plain
  cases plain

theorem mem_declarations {declaration : Declaration} {index : Nat}
    (h : declaration ∈ declarations parameters index) :
    ∃ parameter ∈ parameters, declaration.name = parameter.name ∧
      declaration.typeName = parameter.typeName := by
  obtain ⟨⟨parameter, place⟩, isIn, rfl⟩ := List.mem_map.mp h
  exact ⟨parameter, List.fst_mem_of_mem_zipIdx isIn, rfl, rfl⟩

/-- The runs of the access to an argument of one of the types. -/
theorem mem_runs_argument {declaration : Declaration} (plain : Plain argsName)
    (typed : declaration.typeName ∈ argumentTypes) {run : List Char}
    (isRun : run ∈ runs (access .standard argsName declaration)) :
    run = declaration.typeName ∨ run = slotText argsName declaration.index ∨
      ∃ pair ∈ TypeTable.standard.pairs, run = unboxing pair.1 := by
  obtain ⟨⟨⟨some, -⟩, -⟩, plainType⟩ := argumentTypes_isWord _ typed
  have cases := mem_runs_access plain plainType some
    (fun _ boxed => unboxing_plain _ (primitiveName_mem boxed)) isRun
  rcases cases with isType | isSlot | ⟨primitive, boxed, isMethod⟩
  · exact .inl isType
  · exact .inr (.inl isSlot)
  · exact .inr (.inr ⟨_, primitiveName_mem boxed, isMethod⟩)

theorem Bindable.apart (bindable : Bindable parameters) (plain : Plain argsName) :
    Apart .standard argsName (declarations parameters 0) where
  plain declaration isIn := by
    obtain ⟨parameter, isParameter, name, -⟩ := mem_declarations isIn
    rw [name]
    exact bindable.plain parameter isParameter
  distinct declaration isIn inserted isInserted isRun := by
    obtain ⟨parameter, isParameter, name, -⟩ := mem_declarations isIn
    obtain ⟨other, isOther, -, type⟩ := mem_declarations isInserted
    rw [name] at isRun
    have typed : inserted.typeName ∈ argumentTypes := type ▸ bindable.typed other isOther
    rcases mem_runs_argument plain typed isRun with isType | isSlot | ⟨pair, isPair, isMethod⟩
    · exact bindable.noType parameter isParameter other isOther (isType.trans type)
    · refine bindable.noBracket parameter isParameter ?_
      simp [isSlot, slotText]
    · exact bindable.noMethod parameter isParameter pair isPair isMethod

/-! ### The finished source -/

/-- The declaration that a name is bound to. -/
def bound (parameters : List Parameter) (name : List Char)
    (h : firstPlace parameters name < parameters.length) : Declaration :=
  ⟨firstPlace parameters name, name, parameters[firstPlace parameters name].typeName⟩

theorem firstPlace_lt {name : List Char} (h : name ∈ parameters.map Parameter.name) :
    firstPlace parameters name < parameters.length := by
  obtain ⟨parameter, isIn, rfl⟩ := List.mem_map.mp h
  exact List.findIdx_lt_length_of_exists ⟨parameter, isIn, by simp⟩

/-- **A body that is a name** becomes the access to the first argument of the name. -/
theorem substitute_name (bindable : Bindable parameters) (plain : Plain argsName)
    {name : List Char} (declared : name ∈ parameters.map Parameter.name) :
    substitute .standard argsName (declarations parameters 0) name =
      access .standard argsName (bound parameters name (firstPlace_lt declared)) := by
  obtain ⟨parameter, isIn, rfl⟩ := List.mem_map.mp declared
  rw [substitute_passes (bindable.apart plain),
    Text.mapRuns_word (bindable.some parameter isIn) (bindable.plain parameter isIn), changed,
    Signature.find?_declarations 0 (firstPlace_lt declared)]
  simp only [bound, Nat.zero_add]

/-- An access does not return by itself. -/
theorem access_noReturn {declaration : Declaration} (plain : Plain argsName)
    (typed : declaration.typeName ∈ argumentTypes) :
    Text.containsFree Source.returnWord (access .standard argsName declaration) = false := by
  rw [← Bool.not_eq_true]
  intro free
  have isRun := (Text.containsFree_iff (by decide) (by decide) _).mp free
  rcases mem_runs_argument plain typed isRun with isType | isSlot | ⟨pair, isPair, isMethod⟩
  · have noType : Source.returnWord ∉ argumentTypes := by decide
    exact noType (isType ▸ typed)
  · have bracket : '[' ∈ Source.returnWord := by simp [isSlot, slotText]
    revert bracket
    decide
  · have noMethod : ∀ pair ∈ TypeTable.standard.pairs,
        Source.returnWord ≠ unboxing pair.1 := by decide
    exact noMethod pair isPair isMethod

/-- The source that casts an access to `Object` and returns it. -/
def sourceText (argsName : List Char) (declaration : Declaration) : List Char :=
  "return (".toList ++ Signature.defaultReturnType ++ ")(".toList ++
    access .standard argsName declaration ++ ");".toList

/-- **The request** for a function that returns one of its arguments. -/
theorem ofText_name (bindable : Bindable parameters) (plain : Plain argsName)
    {name : List Char} (declared : name ∈ parameters.map Parameter.name) :
    let text := functionText Signature.defaultReturnType parameters name
    CompileRequest.ofText .standard argsName text = .ok {
      source := sourceText argsName (bound parameters name (firstPlace_lt declared))
      returnType := Signature.defaultReturnType
      entryPoint := .object
      bindings := Signature.bind (declarations parameters 0)
      functionString := text
      argsName := argsName } := by
  intro text
  have some : parameters ≠ [] := by
    rintro rfl
    cases declared
  have returns : IsWord Signature.defaultReturnType := by decide
  have typed : (bound parameters name (firstPlace_lt declared)).typeName ∈ argumentTypes :=
    bindable.typed _ (List.getElem_mem _)
  have split : Signature.split text = .ok _ :=
    Signature.split_written returns some bindable.isPlain
  simp only [CompileRequest.ofText, split, Signature.declare_written bindable.isPlain,
    substitute_name bindable plain declared, bind, Except.bind, Source.ofBody,
    access_noReturn plain typed]
  rfl

end Formulary.Substitution
