/-
The live entry point.

A function is called through the methods of seven entry points. Its return type selects one entry
point, and the methods of all others are refused. A table that has a primitive without a method
selects an entry point that no method is for, and then no method is live.

* `Use.methodNames` — the names of the methods.
* `ParsedFunction.call?` — what a call by a name runs.
* `EntryPoint.IsServed` — the entry points that there is a method for.
* `call_method` — which methods are live, and what the others answer.
* `entryPoint_live` — the calls of a function that has been parsed.
* `letter_dead` — a function without a live method.
-/

import Formulary.Function
import Mathlib.Logic.ExistsUnique

namespace Formulary

/-- The names of the methods of functions, apart from `evaluate`. -/
def Use.methodNames : List (List Char) :=
  ["evaluate_to_double".toList, "evaluate_to_float".toList, "evaluate_to_int".toList,
    "evaluate_to_long".toList, "evaluate_to_boolean".toList, "evaluate_to_short".toList,
    "evaluate_to_object".toList]

/-- What a call of a function by a name runs; nothing where functions have no such method. -/
def ParsedFunction.call? {ρ : Type} (function : ParsedFunction ρ) (name : List Char) :
    Option (Except UnsupportedOperation ρ) :=
  (Use.ofName? name).map function.select

/-- Whether there is a method for an entry point. -/
def EntryPoint.IsServed (entry : EntryPoint) : Prop :=
  entry.name ∈ Use.methodNames

namespace Use

theorem entryPoints_names : entryPoints.map EntryPoint.name = methodNames := by
  decide

/-- Each method is found under its name. -/
theorem ofName_entry : ∀ entry ∈ entryPoints, ofName? entry.name = some (.method entry) := by
  decide

theorem ofName_evaluate : ofName? "evaluate".toList = ofName? "evaluate_to_object".toList := by
  decide

theorem ofName_call : ofName? "call".toList = some .whole := by
  decide

end Use

namespace ParsedFunction

variable {ρ ε : Type} (function : ParsedFunction ρ)

/-- **One method is live at most**: the one with the name of the selected entry point. All others
are refused. -/
theorem call_method {entry : EntryPoint} (isMethod : entry ∈ Use.entryPoints) :
    function.call? entry.name =
      if entry.name = function.entryPoint.name then some (.ok function.executable)
      else some (.error ⟨entry, function.functionString, function.entryPoint⟩) := by
  rw [call?, Use.ofName_entry entry isMethod, Option.map_some, select]
  split <;> rfl

/-- A name calls the executable through a method exactly if it is that of the selected entry
point. -/
theorem call_live {name : List Char} (isName : name ∈ Use.methodNames) :
    function.call? name = some (.ok function.executable) ↔ name = function.entryPoint.name := by
  rw [← Use.entryPoints_names] at isName
  obtain ⟨entry, isMethod, rfl⟩ := List.mem_map.mp isName
  rw [call_method function isMethod]
  split
  · next same => exact iff_of_true rfl same
  · next other => exact iff_of_false nofun other

/-- Exactly one method is live if there is one for the selected entry point, and none else. -/
theorem existsUnique_live :
    (∃! name, name ∈ Use.methodNames ∧ function.call? name = some (.ok function.executable)) ↔
      function.entryPoint.IsServed := by
  constructor
  · rintro ⟨name, ⟨isName, live⟩, -⟩
    rw [(call_live function isName).mp live] at isName
    exact isName
  · intro served
    refine ⟨_, ⟨served, (call_live function served).mpr rfl⟩, ?_⟩
    rintro name ⟨isName, live⟩
    exact (call_live function isName).mp live

/-- The function that a text becomes selects its entry point by the declared return type. -/
theorem ofText_entryPoint {backend : CompileRequest → Except ε ρ} {table : TypeTable}
    {argsName text : List Char} {function : ParsedFunction ρ}
    (parsed : ofText backend table argsName text = .ok function) :
    function.functionString = text ∧ ∃ signature, Signature.split text = .ok signature ∧
      function.entryPoint = .ofReturnType table signature.returnType := by
  rw [ofText, CompileRequest.ofText] at parsed
  cases isSplit : Signature.split text with
  | error error => simp [isSplit, bind, Except.bind] at parsed
  | ok signature =>
    cases declared : Signature.declare signature.parameters with
    | error error => simp [isSplit, declared, bind, Except.bind] at parsed
    | ok declarations =>
      simp only [isSplit, declared, bind, Except.bind, pure, Except.pure] at parsed
      split at parsed
      · cases parsed
      · cases parsed
        exact ⟨rfl, signature, rfl, rfl⟩

end ParsedFunction

theorem EntryPoint.object_served : object.IsServed := by
  rw [IsServed]
  decide

/-- There is a method for the selected entry point unless the return type is a primitive that only
the table has. -/
theorem EntryPoint.ofReturnType_served {table : TypeTable} {returnType : List Char} :
    (ofReturnType table returnType).IsServed ↔
      (table.isPrimitive returnType = true → (EntryPoint.primitive returnType).IsServed) := by
  rw [ofReturnType]
  split
  · next isPrimitive => exact ⟨fun served _ => served, fun served => served isPrimitive⟩
  · next other => exact iff_of_true object_served fun isPrimitive => absurd isPrimitive other

namespace ParsedFunction

variable {ρ ε : Type}

/-- **The live entry point.** Of the methods of a function that has been parsed, the one that its
entry point names runs the executable, and all others are refused. There is such a method, and it is
the only one, unless the return type is a primitive that only the table has. To evaluate a function
is to call the method for objects, and the function itself can always be called. -/
theorem entryPoint_live {backend : CompileRequest → Except ε ρ} {table : TypeTable}
    {argsName text : List Char} {function : ParsedFunction ρ}
    (parsed : ofText backend table argsName text = .ok function) :
    (∃ signature, Signature.split text = .ok signature ∧
      function.entryPoint = .ofReturnType table signature.returnType ∧
      ((∃! name, name ∈ Use.methodNames ∧
          function.call? name = some (.ok function.executable)) ↔
        (table.isPrimitive signature.returnType = true →
          (EntryPoint.primitive signature.returnType).IsServed))) ∧
    (∀ entry ∈ Use.entryPoints, function.call? entry.name =
      if entry.name = function.entryPoint.name then some (.ok function.executable)
      else some (.error ⟨entry, text, function.entryPoint⟩)) ∧
    function.call? "evaluate".toList = function.call? "evaluate_to_object".toList ∧
    function.call? "call".toList = some (.ok function.executable) := by
  obtain ⟨sameText, signature, isSplit, entry⟩ := ofText_entryPoint parsed
  refine ⟨⟨signature, isSplit, entry, ?_⟩, fun other isMethod => ?_, ?_, ?_⟩
  · rw [existsUnique_live, entry, EntryPoint.ofReturnType_served]
  · rw [call_method function isMethod, sameText]
  · rw [call?, call?, Use.ofName_evaluate]
  · rw [call?, Use.ofName_call]
    rfl

/-- A backend that keeps the source. -/
def keeping (request : CompileRequest) : Except CompileError (List Char) :=
  .ok request.source

/-- The sum of two integers, with its source as what would be run. -/
def summing : ParsedFunction (List Char) where
  functionString := "int(int a, b)->a+b".toList
  parameterNames := ["a".toList, "b".toList]
  entryPoint := .primitive "int".toList
  executable := "return (int)(((int) o7[0])+((int) o7[1]));".toList

/-- The method for an `int` is live, and the one for a `long` is refused. -/
theorem summing_live :
    ofText keeping .standard "o7".toList "int(int a, b)->a+b".toList = .ok summing ∧
      (∃! name, name ∈ Use.methodNames ∧
        summing.call? name = some (.ok summing.executable)) ∧
      summing.call? "evaluate_to_int".toList = some (.ok summing.executable) ∧
      summing.call? "evaluate_to_long".toList =
        some (.error ⟨.primitive "long".toList, summing.functionString, summing.entryPoint⟩) := by
  have parsed : ofText keeping .standard "o7".toList "int(int a, b)->a+b".toList = .ok summing :=
    rfl
  obtain ⟨⟨signature, isSplit, -, unique⟩, methods, -, -⟩ := entryPoint_live parsed
  have isInt : signature.returnType = "int".toList := by
    have split : Signature.split "int(int a, b)->a+b".toList =
        .ok ⟨"int".toList, ["int a".toList, "b".toList], [], "a+b".toList⟩ :=
      rfl
    cases split.symm.trans isSplit
    rfl
  refine ⟨parsed, unique.mpr fun _ => ?_, ?_, ?_⟩
  · rw [isInt, EntryPoint.IsServed]
    decide
  · exact methods (.primitive "int".toList) (by decide)
  · exact methods (.primitive "long".toList) (by decide)

/-- A table with a primitive that functions have no method for. -/
def letters : TypeTable where
  pairs := [("char".toList, "Character".toList)]

/-- A function with such a return type has no live method. -/
theorem letter_dead :
    ∃ function, ofText keeping letters "o7".toList "char(Character c)->c".toList = .ok function ∧
      function.entryPoint.name = "evaluate_to_char".toList ∧
      ∀ name ∈ Use.methodNames, function.call? name ≠ some (.ok function.executable) := by
  refine ⟨⟨"char(Character c)->c".toList, ["c".toList], .primitive "char".toList,
    "return (char)((((Character) o7[0]).charValue()));".toList⟩, rfl, rfl, ?_⟩
  intro name isName live
  rw [(call_live _ isName).mp live] at isName
  revert isName
  decide

end ParsedFunction

end Formulary
