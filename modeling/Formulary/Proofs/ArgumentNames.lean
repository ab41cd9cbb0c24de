/-
The name of the arguments.

The name under which a function finds its arguments is made up anew for every function. Whatever
name is made up, the same functions come out, as long as it is not in the function string and no
string of the finished source holds it: substitution writes the name into strings, too, and what
stands there can be seen.

* `Slots.Apart.compile` — a filled row is compiled to programs that differ in the name.
* `Interchangeable` — results of parsing that cannot be told apart.
* `argsName_irrelevant` — whatever the name is.
* `argsName_quoted` — a name that a string holds is seen.
-/

import Formulary.Function
import Formulary.Proofs.CompiledTrees
import Formulary.Proofs.FilledTrees
import Formulary.Proofs.Gaps
import Formulary.Proofs.Quotes

namespace Formulary

open Slots (IsArgsName exchange exchanging Unquoted)

/-! ### Compiling -/

/-- What can be told of a function string that is refused, its message apart. -/
inductive Refusal where
  | signature (error : SignatureError)
  | compilation
  | host (fault : Fault)
deriving DecidableEq, Repr

/-- What can be told of a body that does not become a program. -/
def CompileError.refusal : CompileError → Refusal
  | .host fault => .host fault
  | .read _ | .check _ => .compilation

/-- What can be told of a function string that does not become a function. -/
def FunctionError.refusal : FunctionError CompileError → Refusal
  | .signature error => .signature error
  | .compilation error _ => error.refusal

theorem Slots.IsArgsName.unreserved {name : List Char} (isArgs : IsArgsName name) :
    Check.reservedWords.contains (String.ofList name) = false := by
  obtain ⟨clock, rfl⟩ := isArgs
  exact argsAt_unreserved clock

namespace Slots

variable {first second : List Char}

/-- Names that stay are in scope with the one name where what they become is with the other. -/
theorem Stays.fits {m : Mention} (stays : Stays first second m)
    (unreserved : Check.reservedWords.contains (String.ofList first) = false)
    (unreserved' : Check.reservedWords.contains (String.ofList second) = false)
    (place : Position → Position) (margin : Margin) :
    Check.Fits (exchanging first second place margin) [(String.ofList first, .core .object)]
      [(exchange first second (String.ofList first), .core .object)] m := by
  -- What keeps its name is looked up as without the arguments.
  have kept {m : Mention} (fits : Check.Fits (exchanging first second place margin) [] [] m) :=
    Check.keeps_cons (String.ofList first) (.core .object) (.core .object) [] [] m fits
  cases m with
  | «variable» text =>
    rcases stays with rfl | same
    · refine ⟨?_, ?_, ?_⟩
      · simp [exchanging, Check.inScope]
      · exact (congrArg _ (exchange_first first second)).trans (unreserved'.trans unreserved.symm)
      · simp [Check.inScope]
    · exact kept ⟨rfl, congrArg _ same, fun _ => same⟩
  | callee text => exact kept ⟨rfl, stays⟩

/-- A body is checked with either name. -/
theorem body_exchanged {body : List ParsedStmt}
    (stay : ∀ m ∈ Stmt.mentionsOfAll body, Stays first second m) (isArgs : IsArgsName first)
    (isArgs' : IsArgsName second) (names : Namespace) (place : Position → Position)
    (margin : Margin) :
    Check.Alike (exchanging first second place margin)
      (fun checked checked' =>
        checked' = Stmt.relabelAll (exchanging first second place margin).labels checked)
      (Check.body (Program.context .initial names) (String.ofList first) body)
      (Check.body (Program.context .initial names) (String.ofList second)
        (Stmt.relabelAll (exchanging first second place margin).parsedLabels body)) := by
  have spares : (exchanging first second place margin).renames.Spares names :=
    fun entry _ => Value.rename_identity entry.2
  have becomes : (exchanging first second place margin).ident (String.ofList first) =
      String.ofList second := exchange_first first second
  rw [← becomes]
  refine Check.body_alike (Program.carried_context spares) ?_ body fun m isIn => ?_
  · rw [becomes, isArgs.unreserved, isArgs'.unreserved]
  · exact (stay m isIn).fits isArgs.unreserved isArgs'.unreserved place margin

/-- Compiling with either of two names comes to the same: to programs of which the other one is the
one relabelled, or to errors that cannot be told apart. -/
inductive CompiledAlike (first second : List Char) (margin : Margin) :
    Except CompileError Program → Except CompileError Program → Prop
  | programs {program : Program} (place : Position → Position) :
      CompiledAlike first second margin (.ok program)
        (.ok (program.relabel (exchanging first second place margin)))
  | refused {error error' : CompileError} (same : error'.refusal = error.refusal) :
      CompiledAlike first second margin (.error error) (.error error')

/-- **Compiling a row with the other name.** -/
theorem Apart.compile {cells : List Cell} {parts : List Part}
    (apart : Apart first second cells parts) (isArgs : IsArgsName first)
    (isArgs' : IsArgsName second) (names : Namespace) (returnType : String) (margin : Margin) :
    CompiledAlike first second margin
      (Program.compile names (String.ofList first) returnType (fill first cells))
      (Program.compile names (String.ofList second) returnType (fill second cells)) := by
  unfold Program.compile
  rcases apart.readBody margin with ⟨body, place, read, read', stay⟩ | ⟨e, e', read, read'⟩
  · rw [read, read']
    simp only [Program.ofBody]
    cases Resolver.resolveAny Store.initial names returnType with
    | error fault => exact .refused rfl
    | ok kind? =>
      cases kind? with
      | none => exact .refused rfl
      | some kind =>
        have ends := body_exchanged stay isArgs isArgs' names place margin
        generalize Check.body (Program.context .initial names) (String.ofList first) body = checks
          at ends ⊢
        generalize Check.body _ (String.ofList second) _ = checks' at ends ⊢
        cases ends with
        | @ok checked checked' same =>
          have relabelled : Program.relabel (exchanging first second place margin)
              ⟨checked, String.ofList first, kind⟩ = ⟨checked', String.ofList second, kind⟩ := by
            rw [Program.relabel, ← same]
            simp only [exchanging, exchange_first, Kind.rename_identity]
          dsimp only
          rw [← relabelled]
          exact .programs place
        | error _ => exact .refused rfl
  · rw [read, read']
    exact .refused rfl

/-- **Compiling a row with either of two names**, where no string holds the first one. -/
theorem compile_fill {cells : List Cell} (isArgs : IsArgsName first) (isArgs' : IsArgsName second)
    (absent : ¬plain first <:+: cells) (absent' : ¬plain second <:+: cells)
    (unquoted : Unquoted first (fill first cells)) (names : Namespace) (returnType : String)
    (margin : Margin) :
    CompiledAlike first second margin
      (Program.compile names (String.ofList first) returnType (fill first cells))
      (Program.compile names (String.ofList second) returnType (fill second cells)) := by
  rcases lexemes_fill cells with fails | ⟨parts, reads, lexes⟩
  · have refused {name : List Char} (isArgs : IsArgsName name) : ∃ e,
        Program.compile names (String.ofList name) returnType (fill name cells) =
          .error (.read e) := by
      obtain ⟨e, isError⟩ := fails name Position.start isArgs
      exact ⟨_, by rw [Program.compile, readBody, parseSource, tokens_error isError]⟩
    obtain ⟨e, isError⟩ := refused isArgs
    obtain ⟨e', isError'⟩ := refused isArgs'
    rw [isError, isError']
    exact .refused rfl
  · have apart : Apart first second cells parts :=
      ⟨reads, fun inner => unquoted.no_slot (lexes first _ isArgs), absent, absent',
        lexes first _ isArgs, lexes second _ isArgs'⟩
    exact apart.compile isArgs isArgs' names returnType margin

end Slots

/-! ### Functions -/

/-- Runs that end alike: with the same value, or for reasons in which only the names of variables
differ; and they leave the same objects, settings and marks. -/
structure SameRuns (ident : String → String) (run run' : Except Halt Value × Store) : Prop where
  result : run'.1 = run.1.mapError (Halt.relabel ident)
  objects : run'.2.objects = run.2.objects
  settings : ∀ holder name, run'.2.setting? holder name = run.2.setting? holder name
  marks : run'.2.nextMark = run.2.nextMark

/-- Functions that cannot be told apart. -/
structure SameFunctions (ident : String → String) (f f' : ParsedFunction Program) : Prop where
  functionString : f'.functionString = f.functionString
  parameterNames : f'.parameterNames = f.parameterNames
  entryPoint : f'.entryPoint = f.entryPoint
  runs : ∀ fuel args store,
    SameRuns ident (f.executable.run fuel args store) (f'.executable.run fuel args store)

/-- Results of parsing that cannot be told apart, the messages of errors left out. -/
inductive Interchangeable (ident : String → String) :
    Except (FunctionError CompileError) (ParsedFunction Program) →
      Except (FunctionError CompileError) (ParsedFunction Program) → Prop
  | functions {f f' : ParsedFunction Program} (same : SameFunctions ident f f') :
      Interchangeable ident (.ok f) (.ok f')
  | refused {error error' : FunctionError CompileError} (same : error'.refusal = error.refusal) :
      Interchangeable ident (.error error) (.error error')

/-- **Runs of a program and of the one with the other name.** -/
theorem Program.run_exchanged (program : Program) (first second : List Char)
    (place : Position → Position) (margin : Margin) (fuel : Nat) (args : Value) (store : Store) :
    SameRuns (exchange first second) (program.run fuel args store)
      ((program.relabel (exchanging first second place margin)).run fuel args store) := by
  let around : Margin := ⟨(program.run fuel args store).2.objects.size, store⟩
  obtain ⟨result, alike⟩ := Program.run_renamed (T := exchanging first second place around) rfl
    program fuel args (store.alike_identity around.limit) (Nat.le_refl _)
  have same : args.rename .identity = args := Value.rename_identity args
  have programs : program.relabel (exchanging first second place around) =
      program.relabel (exchanging first second place margin) := rfl
  rw [show (exchanging first second place around).renames = .identity from rfl, same,
    programs] at result alike
  refine ⟨?_, alike.objects_eq, alike.setting_eq, (alike.marks 0).symm⟩
  rw [result]
  cases (program.run fuel args store).1 with
  | ok value => exact congrArg Except.ok (Value.rename_identity value)
  | error halt => rfl

/-- **The name of the arguments does not count**, where no string holds it. -/
theorem argsName_irrelevant (names : Namespace) (text : List Char) (first second : Nat)
    (absent : ¬argsAt first <:+: text) (absent' : ¬argsAt second <:+: text)
    (unquoted : ∀ request, CompileRequest.ofText .standard (argsAt first) text = .ok request →
      Unquoted (argsAt first) request.source) :
    Interchangeable (exchange (argsAt first) (argsAt second))
      (ParsedFunction.ofText (Program.backend names) .standard (argsAt first) text)
      (ParsedFunction.ofText (Program.backend names) .standard (argsAt second) text) := by
  have isArgs : IsArgsName (argsAt first) := ⟨first, rfl⟩
  have isArgs' : IsArgsName (argsAt second) := ⟨second, rfl⟩
  unfold ParsedFunction.ofText
  rcases Slots.ofText_fill text with ⟨error, fails⟩ | ⟨returnType, bindings, cells, filled⟩
  · rw [fails, fails]
    exact .refused rfl
  obtain ⟨requested, free⟩ := filled _ isArgs absent
  obtain ⟨requested', free'⟩ := filled _ isArgs' absent'
  have compiles := Slots.compile_fill isArgs isArgs' free free' (unquoted _ requested) names
    (String.ofList returnType) ⟨0, .initial⟩
  rw [requested, requested']
  dsimp only [Program.backend]
  generalize Program.compile names (String.ofList (argsAt first)) (String.ofList returnType)
    (Slots.fill (argsAt first) cells) = compiled at compiles ⊢
  generalize Program.compile names (String.ofList (argsAt second)) (String.ofList returnType)
    (Slots.fill (argsAt second) cells) = compiled' at compiles ⊢
  cases compiles with
  | programs place =>
    refine .functions ⟨rfl, rfl, rfl, fun fuel args store => ?_⟩
    exact Program.run_exchanged _ _ _ place _ fuel args store
  | refused same => exact .refused same

/-- A function with a string in which its parameter does not stand free. -/
def summing : List Char := "String(Integer x, y)->\"sum: \" + (x + y)".toList

/-- One of the names begins with the other one. -/
theorem summing_irrelevant :
    ¬argsAt 1 <:+: summing ∧ ¬argsAt 12 <:+: summing ∧
      Interchangeable (exchange (argsAt 1) (argsAt 12))
        (ParsedFunction.ofText (Program.backend []) .standard (argsAt 1) summing)
        (ParsedFunction.ofText (Program.backend []) .standard (argsAt 12) summing) := by
  have absent : ¬argsAt 1 <:+: summing := by decide
  have absent' : ¬argsAt 12 <:+: summing := by decide
  refine ⟨absent, absent', argsName_irrelevant [] summing 1 12 absent absent' ?_⟩
  intro request requested tokens lexes token isIn literal isString
  have strings : (do
      let request ← (CompileRequest.ofText .standard (argsAt 1) summing).toOption
      let tokens ← (Lexer.tokens request.source).toOption
      return tokens.filterMap fun token => Lexer.literal? token.lexeme) =
        some ["\"sum: \"".toList] := by decide +kernel
  rw [requested] at strings
  simp only [Except.toOption, lexes, Option.pure_def, Option.bind_eq_bind, Option.bind_some,
    Option.some.injEq] at strings
  have isLiteral : literal ∈ tokens.filterMap fun token => Lexer.literal? token.lexeme :=
    List.mem_filterMap.mpr ⟨token, isIn, by rw [isString]; rfl⟩
  rw [strings, List.mem_singleton] at isLiteral
  rw [isLiteral]
  decide

/-- A function that is a string in which its parameter stands free. -/
def quoting : List Char := "Object(Integer x)->".toList ++ inQuotes "a x b".toList

/-- What becomes of its string. -/
def quotedAccess (clock : Nat) : List Char :=
  "a (((Integer) ".toList ++ argsAt clock ++ "[0]).intValue()) b".toList

theorem quoting_returns {clock : Nat} (unescaped : Unescaped (quotedAccess clock))
    (substituted : Substitution.substitute .standard (argsAt clock)
      [⟨0, "x".toList, "Integer".toList⟩] (inQuotes "a x b".toList) = inQuotes (quotedAccess clock))
    (noReturn : Text.containsFree Source.returnWord (inQuotes (quotedAccess clock)) = false) :
    ∃ function, ParsedFunction.ofText (Program.backend []) .standard (argsAt clock) quoting =
        .ok function ∧
      (function.executable.run 0 .null .initial).1 = .ok (.str (codesOf (quotedAccess clock))) := by
  have typed : ("Object".toList, .core .object) ∈ Printing.textTypes := List.mem_cons_self
  obtain ⟨p, q, r, s, compiled⟩ := compile_quoted typed unescaped clock
  have isSplit : Signature.split quoting =
      .ok ⟨"Object".toList, ["Integer x".toList], [], inQuotes "a x b".toList⟩ := by rfl
  have declared : Signature.declare ["Integer x".toList] =
      .ok [⟨0, "x".toList, "Integer".toList⟩] := by rfl
  have source : Source.ofBody (inQuotes (quotedAccess clock)) "Object".toList =
      ⟨"return (".toList ++ "Object".toList ++ ")(".toList ++ inQuotes (quotedAccess clock) ++
        ");".toList, false⟩ := by
    rw [Source.ofBody, noReturn]
    rfl
  refine ⟨⟨quoting, ["x".toList], .object,
    returningText p q r s (String.ofList (argsAt clock)) "Object".toList (quotedAccess clock)
      (.core .object)⟩, ?_, ?_⟩
  · simp only [ParsedFunction.ofText, CompileRequest.ofText, isSplit, declared, substituted, source,
      bind, Except.bind, pure, Except.pure, Program.backend, compiled]
    rfl
  · rw [run_returningText typed p q r s _ 0 .null fun _ => rfl]

/-- **A name that a string holds is seen**: the function returns it. -/
theorem argsName_quoted :
    ¬argsAt 1 <:+: quoting ∧ ¬argsAt 2 <:+: quoting ∧
      ¬∃ ident, Interchangeable ident
        (ParsedFunction.ofText (Program.backend []) .standard (argsAt 1) quoting)
        (ParsedFunction.ofText (Program.backend []) .standard (argsAt 2) quoting) := by
  refine ⟨by decide, by decide, ?_⟩
  rintro ⟨ident, alike⟩
  obtain ⟨f, parsed, returns⟩ := @quoting_returns 1 ⟨by decide, by decide, by decide⟩ (by decide)
    (by decide)
  obtain ⟨f', parsed', returns'⟩ := @quoting_returns 2 ⟨by decide, by decide, by decide⟩
    (by decide) (by decide)
  rw [parsed, parsed'] at alike
  cases alike with
  | functions same =>
    have result := (same.runs 0 .null .initial).result
    rw [returns, returns'] at result
    have same : codesOf (quotedAccess 2) = codesOf (quotedAccess 1) :=
      Value.str.inj (Except.ok.inj result)
    exact absurd same (by decide)

end Formulary
