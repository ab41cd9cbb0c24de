/-
Substitution around quoted texts.

The passes of a substitution look at characters and know nothing of quotes. A literal stays what
it is all the same when no declared name stands free in it: a name has no quotes, so that what
stands at either end of the literal is never a name, and what stands within it is none by
assumption. A name that does stand free in a literal is replaced there as anywhere else.

* `mapRuns_quoted` — a change of runs around a quoted text.
* `substitute_quoted` — all passes around a quoted text.
* `tokens_quoted` — a literal of a text is a quoted part of it.
* `readBody_quoted` — the source that returns a literal is read as it.
* `quoted_unchanged` — literals of bodies, and functions that are a single literal.
-/

import Formulary.Proofs.Arguments

namespace Formulary

/-! ### Changes around a quote -/

namespace Text

variable {change : List Char → List Char}

/-- The character that opens and closes a string or a character literal. -/
def IsQuote (c : Char) : Prop := c = '"' ∨ c = '\''

theorem IsQuote.plain {q : Char} (isQuote : IsQuote q) : isBoundary q = false := by
  rcases isQuote with rfl | rfl <;> decide

theorem plain_nil : Plain [] :=
  List.forall_mem_nil _

/-- The last part of a text without boundary characters. -/
theorem split_lastRun (text : List Char) :
    ∃ front run, text = front ++ run ∧ Plain run ∧ bounds front.getLast? = true := by
  induction text with
  | nil => exact ⟨[], [], rfl, plain_nil, rfl⟩
  | cons c rest ih =>
    obtain ⟨front, run, rfl, plain, ends⟩ := ih
    cases front with
    | cons d front => exact ⟨c :: d :: front, run, rfl, plain, by rwa [List.getLast?_cons_cons]⟩
    | nil =>
      cases isB : isBoundary c with
      | true => exact ⟨[c], run, rfl, plain, isB⟩
      | false =>
        refine ⟨[], c :: run, rfl, fun d isIn => ?_, rfl⟩
        rcases List.mem_cons.mp isIn with rfl | isIn
        · exact isB
        · exact plain d isIn

/-- The first part of a text without boundary characters. -/
theorem split_firstRun (text : List Char) :
    ∃ run back, text = run ++ back ∧ Plain run ∧ bounds back.head? = true := by
  induction text with
  | nil => exact ⟨[], [], rfl, plain_nil, rfl⟩
  | cons c rest ih =>
    cases isB : isBoundary c with
    | true => exact ⟨[], c :: rest, rfl, plain_nil, isB⟩
    | false =>
      obtain ⟨run, back, rfl, plain, ends⟩ := ih
      refine ⟨c :: run, back, rfl, fun d isIn => ?_, ends⟩
      rcases List.mem_cons.mp isIn with rfl | isIn
      · exact isB
      · exact plain d isIn

/-- A change that leaves every run with a quote in it as it is works on what stands in front of
a quote and on what stands behind it. -/
theorem mapRuns_quote {q : Char} (isQuote : IsQuote q)
    (keeps : ∀ run, q ∈ run → change run = run) (front back : List Char) :
    ∃ front' back', mapRuns change (front ++ q :: back) = front' ++ q :: back' ∧
      mapRuns change (front ++ [q]) = front' ++ [q] ∧
      mapRuns change (q :: back) = q :: back' := by
  obtain ⟨front, before, rfl, plainBefore, starts⟩ := split_lastRun front
  obtain ⟨behind, back, rfl, plainBehind, ends⟩ := split_firstRun back
  -- The quote and the characters beside it that are no boundaries are one run.
  have around (before behind back : List Char) (plainBefore : Plain before)
      (plainBehind : Plain behind) (ends : bounds back.head? = true) :
      mapRuns change ((before ++ q :: behind) ++ back) =
        before ++ q :: behind ++ mapRuns change back := by
    have plain : Plain (before ++ q :: behind) := by
      intro c isIn
      rcases List.mem_append.mp isIn with isIn | isIn
      · exact plainBefore c isIn
      · rcases List.mem_cons.mp isIn with rfl | isIn
        · exact isQuote.plain
        · exact plainBehind c isIn
    rw [mapRuns_run (by simp) plain ends, keeps _ (by simp)]
  have whole := around before behind back plainBefore plainBehind ends
  have first := around before [] [] plainBefore plain_nil rfl
  have last := around [] behind back plain_nil plainBehind ends
  refine ⟨mapRuns change front ++ before, behind ++ mapRuns change back, ?_, ?_, ?_⟩
  · rw [show front ++ before ++ q :: (behind ++ back) =
      front ++ (before ++ q :: behind ++ back) by simp, mapRuns_append (.inl starts), whole]
    simp
  · rw [show front ++ before ++ [q] = front ++ (before ++ [q] ++ []) by simp,
      mapRuns_append (.inl starts), first]
    simp
  · simpa using last

/-- A text between two quotes of a kind. -/
def Quoted (text : List Char) : Prop :=
  ∃ q inner, IsQuote q ∧ text = q :: (inner ++ [q])

/-- **A change of runs around a quoted text** that it leaves as it is. -/
theorem mapRuns_quoted {text : List Char} (quoted : Quoted text)
    (keeps : ∀ q, IsQuote q → ∀ run, q ∈ run → change run = run)
    (same : mapRuns change text = text) (front back : List Char) :
    ∃ front' back', mapRuns change (front ++ text ++ back) = front' ++ text ++ back' := by
  obtain ⟨q, inner, isQuote, rfl⟩ := quoted
  obtain ⟨front', rest, whole, -, isRest⟩ :=
    mapRuns_quote isQuote (keeps q isQuote) front (inner ++ q :: back)
  obtain ⟨inside, back', isRest', isInside, -⟩ :=
    mapRuns_quote isQuote (keeps q isQuote) (q :: inner) back
  have inside_eq : inside = q :: inner := by
    have both : inside ++ [q] = (q :: inner) ++ [q] := isInside.symm.trans same
    exact List.append_cancel_right both
  have rest_eq : q :: rest = q :: (inner ++ [q] ++ back') := by
    rw [← isRest, ← List.cons_append, isRest', inside_eq]
    simp
  refine ⟨front', back', ?_⟩
  rw [show front ++ q :: (inner ++ [q]) ++ back = front ++ q :: (inner ++ q :: back) by simp,
    whole, rest_eq]
  simp

theorem replaceFrom_absent {word text : List Char} {before : Option Char} {offset : Nat}
    (absent : occurrencesFrom word 0 before offset text = []) (replacement : List Char) :
    replaceFrom word replacement 0 before text = text := by
  induction text generalizing before offset with
  | nil => rfl
  | cons c rest ih =>
    rw [occurrencesFrom] at absent
    rw [replaceFrom]
    split at absent
    · cases absent
    · next bound => rw [if_neg bound, ih absent]

/-- A word that stands free nowhere is replaced nowhere. -/
theorem replaceFree_absent {word text : List Char} (absent : containsFree word text = false)
    (replacement : List Char) : replaceFree word replacement text = text := by
  have none : occurrences word text = [] := by
    simpa [containsFree, List.isEmpty_iff] using absent
  rw [occurrences] at none
  rw [replaceFree]
  split
  · rfl
  · next given =>
    rw [if_neg given] at none
    exact replaceFrom_absent none replacement

end Text

/-! ### All passes around a quoted text -/

namespace Substitution

open Text

variable {table : TypeTable} {argsName : List Char} {declarations : List Declaration}

/-- A word that is made up as a name is. -/
def Wordlike (word : List Char) : Prop :=
  ∀ c ∈ word, Lexer.isNamePart c = true

theorem Wordlike.plain {word : List Char} (wordlike : Wordlike word) : Plain word := by
  have apart : boundaryChars.all (!Lexer.isNamePart ·) = true := by decide
  intro c isIn
  cases isB : isBoundary c with
  | false => rfl
  | true =>
    have noPart := List.all_eq_true.mp apart c (List.contains_iff_mem.mp isB)
    rw [wordlike c isIn] at noPart
    cases noPart

theorem Wordlike.unquoted {word : List Char} (wordlike : Wordlike word) {q : Char}
    (isQuote : IsQuote q) : q ∉ word := by
  intro isIn
  have part := wordlike q isIn
  rcases isQuote with rfl | rfl <;> revert part <;> decide

theorem substitute_cons (declaration : Declaration) (rest : List Declaration)
    (body : List Char) :
    substitute table argsName (declaration :: rest) body =
      substitute table argsName rest
        (replaceFree declaration.name (access table argsName declaration) body) := rfl

/-- Declarations whose names stand free nowhere in a text change nothing in it. -/
theorem substitute_absent {text : List Char}
    (absent : ∀ declaration ∈ declarations, containsFree declaration.name text = false) :
    substitute table argsName declarations text = text := by
  induction declarations with
  | nil => rfl
  | cons declaration rest ih =>
    rw [substitute_cons, replaceFree_absent (absent _ List.mem_cons_self)]
    exact ih fun other isIn => absent other (List.mem_cons_of_mem _ isIn)

/-- **The passes leave a quoted text** in which no declared name stands free as it is, whatever
stands around it. -/
theorem substitute_quoted {text : List Char} (quoted : Quoted text)
    (names : ∀ declaration ∈ declarations, Wordlike declaration.name)
    (absent : ∀ declaration ∈ declarations, containsFree declaration.name text = false)
    (front back : List Char) :
    ∃ front' back',
      substitute table argsName declarations (front ++ text ++ back) =
        front' ++ text ++ back' := by
  induction declarations generalizing front back with
  | nil => exact ⟨front, back, rfl⟩
  | cons declaration rest ih =>
    have first : declaration ∈ declaration :: rest := List.mem_cons_self
    have wordlike := names declaration first
    have same := replaceFree_absent (absent declaration first)
      (access table argsName declaration)
    rw [replaceFree_eq_mapRuns _ wordlike.plain] at same
    have keeps (q : Char) (isQuote : IsQuote q) (run : List Char) (isIn : q ∈ run) :
        (if run = declaration.name then access table argsName declaration else run) = run := by
      refine if_neg ?_
      rintro rfl
      exact wordlike.unquoted isQuote isIn
    obtain ⟨front', back', pass⟩ := mapRuns_quoted quoted keeps same front back
    rw [substitute_cons, replaceFree_eq_mapRuns _ wordlike.plain, pass]
    exact ih (fun other isIn => names other (List.mem_cons_of_mem _ isIn))
      (fun other isIn => absent other (List.mem_cons_of_mem _ isIn)) front' back'

end Substitution

/-! ### Literals of a text -/

namespace Lexer

open Text (Quoted)

/-- The spelling of a string or a character literal. -/
def literal? : Lexeme → Option (List Char)
  | .string spelling | .character spelling => some spelling
  | _ => none

theorem stringRest_quoted {text : List Char} {length : Nat} (h : stringRest? text = some length) :
    ∃ inner back, text = inner ++ '"' :: back ∧ length = inner.length + 1 := by
  induction text using stringRest?.induct generalizing length with
  | case1 text =>
    cases h
    exact ⟨[], text, rfl, rfl⟩
  | case2 text => simp [stringRest?] at h
  | case3 text => simp [stringRest?] at h
  | case4 c text isEnd ih =>
    simp only [stringRest?, isEnd, if_false] at h
    obtain ⟨length, isLength, rfl⟩ := Option.map_eq_some_iff.mp h
    obtain ⟨inner, back, rfl, rfl⟩ := ih isLength
    exact ⟨'\\' :: c :: inner, back, rfl, rfl⟩
  | case5 => simp [stringRest?] at h
  | case6 c text noQuote noEnd noEscape noBackslash ih =>
    rw [stringRest_plain noQuote noEnd (ne_backslash noEscape noBackslash)] at h
    obtain ⟨length, isLength, rfl⟩ := Option.map_eq_some_iff.mp h
    obtain ⟨inner, back, rfl, rfl⟩ := ih isLength
    exact ⟨c :: inner, back, rfl, rfl⟩
  | case7 => simp [stringRest?] at h

theorem stringLength_quoted {text : List Char} {length : Nat}
    (h : stringLength? text = some length) : Quoted (text.take length) := by
  unfold stringLength? at h
  split at h
  · obtain ⟨length, isLength, rfl⟩ := Option.map_eq_some_iff.mp h
    obtain ⟨inner, back, rfl, rfl⟩ := stringRest_quoted isLength
    exact ⟨'"', inner, .inl rfl, by simp [List.take_append]⟩
  · cases h

theorem closedAfter_quoted {text : List Char} {before length : Nat}
    (h : closedAfter before text = some length) :
    length = before + 1 ∧ text.take length = text.take before ++ ['\''] := by
  unfold closedAfter at h
  split at h
  · next rest same =>
    cases h
    refine ⟨rfl, ?_⟩
    rw [List.take_add_one, ← List.head?_drop, same]
    rfl
  · cases h

theorem escapedRest_quoted {text : List Char} {length : Nat} (h : escapedRest? text = some length) :
    ∃ inner, text.take length = inner ++ ['\''] := by
  have closes {before : Nat} (h : closedAfter before text = some length) :
      ∃ inner, text.take length = inner ++ ['\''] := ⟨_, (closedAfter_quoted h).2⟩
  unfold escapedRest? at h
  simp only [Option.orElse_eq_orElse, Option.orElse_eq_or, Option.or_eq_some_iff] at h
  rcases h with unicode | ⟨-, octal | ⟨-, single⟩⟩
  · split at unicode
    · split at unicode
      · exact closes unicode
      · cases unicode
    · cases unicode
  · split at octal
    · cases octal
    · exact closes octal
  · split at single
    · split at single
      · cases single
      · exact closes single
    · cases single

theorem characterLength_quoted {text : List Char} {length : Nat}
    (h : characterLength? text = some length) : Quoted (text.take length) := by
  unfold characterLength? at h
  split at h
  · obtain ⟨length, isLength, rfl⟩ := Option.map_eq_some_iff.mp h
    obtain ⟨inner, closed⟩ := escapedRest_quoted isLength
    exact ⟨'\'', '\\' :: inner, .inr rfl, by simp [closed]⟩
  · split at h
    · cases h
    · obtain ⟨length, isLength, rfl⟩ := Option.map_eq_some_iff.mp h
      obtain ⟨rfl, closed⟩ := closedAfter_quoted isLength
      exact ⟨'\'', [_], .inr rfl, by simp [closed]; rfl⟩
  · cases h

/-- A literal is the quoted text at the start of what is scanned. -/
theorem scan_literal {text spelling : List Char} {lexeme : Lexeme} {length : Nat}
    (h : scan text = some (some lexeme, length)) (isLiteral : literal? lexeme = some spelling) :
    spelling = text.take length ∧ Quoted spelling := by
  have word (letters : List Char) : literal? (wordLexeme letters) = none := by
    unfold wordLexeme
    dsimp only
    split <;> rfl
  unfold scan at h
  dsimp only at h
  split at h
  · cases h
    cases isLiteral
  · split at h
    · cases h
    · split at h
      · cases h
        cases isLiteral
      · split at h
        · next isLength =>
          cases h
          cases isLiteral
          exact ⟨rfl, stringLength_quoted isLength⟩
        · split at h
          · next isLength =>
            cases h
            cases isLiteral
            exact ⟨rfl, characterLength_quoted isLength⟩
          · split at h
            · cases h
              rw [word] at isLiteral
              cases isLiteral
            · obtain ⟨symbol, -, same⟩ := Option.map_eq_some_iff.mp h
              cases same
              cases isLiteral

/-- **A literal among the tokens of a text** is a quoted part of the text. -/
theorem tokensFrom_literal {text spelling : List Char} {skip : Nat} {p : Position}
    {tokens : List Token} (h : tokensFrom skip p text = .ok tokens) {token : Token}
    (isIn : token ∈ tokens) (isLiteral : literal? token.lexeme = some spelling) :
    Quoted spelling ∧ spelling <:+: text := by
  induction text generalizing skip p tokens with
  | nil =>
    cases skip <;> cases h <;> cases isIn
  | cons c rest ih =>
    have later {skip : Nat} {p : Position} {tokens : List Token}
        (h : tokensFrom skip p rest = .ok tokens) (isIn : token ∈ tokens) :
        Quoted spelling ∧ spelling <:+: c :: rest :=
      (ih h isIn).imp_right (·.trans (List.suffix_cons c rest).isInfix)
    cases skip with
    | succ skip => exact later h isIn
    | zero =>
      rw [tokensFrom] at h
      split at h
      · cases h
      · exact later h isIn
      · next lexeme length isScan =>
        cases others : tokensFrom (length - 1) (p.advance c) rest with
        | error e => simp [others, Except.map] at h
        | ok more =>
          obtain rfl : ⟨lexeme, p⟩ :: more = tokens := by simpa [others, Except.map] using h
          rcases List.mem_cons.mp isIn with rfl | isIn
          · obtain ⟨rfl, quoted⟩ := scan_literal isScan isLiteral
            exact ⟨quoted, (List.take_prefix _ _).isInfix⟩
          · exact later others isIn

end Lexer

/-! ### A literal that is returned -/

/-- A text in double quotes. -/
def inQuotes (text : List Char) : List Char :=
  '"' :: (text ++ ['"'])

/-- A text that is written in double quotes as it is. -/
structure Unescaped (text : List Char) : Prop where
  noQuote : '"' ∉ text
  noEscape : '\\' ∉ text
  noEnd : '\n' ∉ text

namespace Unescaped

variable {text : List Char}

theorem tail {c : Char} (h : Unescaped (c :: text)) :
    (c ≠ '"' ∧ c ≠ '\\' ∧ c ≠ '\n') ∧ Unescaped text := by
  obtain ⟨noQuote, noEscape, noEnd⟩ := h
  simp only [List.mem_cons, not_or] at noQuote noEscape noEnd
  exact ⟨⟨Ne.symm noQuote.1, Ne.symm noEscape.1, Ne.symm noEnd.1⟩, noQuote.2, noEscape.2,
    noEnd.2⟩

/-- Its closing quote is the first one. -/
theorem closed (h : Unescaped text) :
    Lexer.stringLength? (inQuotes text) = some (inQuotes text).length := by
  have rest : Lexer.stringRest? (text ++ ['"']) = some (text.length + 1) := by
    induction text with
    | nil => rfl
    | cons c text ih =>
      obtain ⟨⟨noQuote, noEscape, noEnd⟩, others⟩ := h.tail
      rw [List.cons_append, Lexer.stringRest_plain noQuote noEnd noEscape, ih others]
      rfl
  simp [inQuotes, Lexer.stringLength?, rest]

/-- It denotes its own characters. -/
theorem denotes (h : Unescaped text) :
    Literal.quoted (inQuotes text) = .ok (codesOf text) := by
  have inner : ((inQuotes text).drop 1).dropLast = text := by simp [inQuotes]
  rw [Literal.quoted, inner]
  induction text with
  | nil => rfl
  | cons c text ih =>
    obtain ⟨⟨-, noEscape, -⟩, others⟩ := h.tail
    rw [Literal.codesFrom, if_neg noEscape, ih others (by simp [inQuotes])]
    rfl

end Unescaped

namespace Printing

open Lexer Substitution

variable {type text : List Char}

/-- The types that any text is an instance of. -/
def textTypes : List (List Char × Kind) :=
  [("Object".toList, .core .object), ("String".toList, .core .string)]

theorem textTypes_named : ∀ type ∈ textTypes, IsIdentifier (String.ofList type.1) ∧
    nameParts (String.ofList type.1) = [String.ofList type.1] ∧
      Primitive.ofName? (String.ofList type.1) = none ∧
      Resolver.resolve Store.initial [] (String.ofList type.1) = some type.2 := by
  decide +kernel

/-- The literal of a text. -/
def textLiteral (unescaped : Unescaped text) : Spelled :=
  ⟨.string (inQuotes text), .str (codesOf text), .string unescaped.closed unescaped.denotes⟩

/-- The literal of a text, cast to a type. -/
def castLiteral (type : List Char) (unescaped : Unescaped text) : PrintedExpr :=
  .cast Position.start (typeNamed type) (.literal Position.start (textLiteral unescaped))

/-- The lexemes of a literal in parentheses behind the type of a cast. -/
def castLexemes (type text : List Char) : List Lexeme :=
  .castType (String.ofList type) :: parenthesized [.string (inQuotes text)]

theorem cut_castLexemes {kind : Kind} (typed : (type, kind) ∈ textTypes)
    (unescaped : Unescaped text) :
    Cut (.keyword .returnWord ::
        ((castLexemes type text).flatMap writtenOut ++ [.symbol .semicolon]))
      ("return (".toList ++ type ++ ")(".toList ++ inQuotes text ++ ");".toList) := by
  obtain ⟨isType, parts, -, -⟩ := textTypes_named _ typed
  have literal {more : List Lexeme} {rest : List Char} (behind : Cut more rest) :
      Cut (.string (inQuotes text) :: more) (inQuotes text ++ rest) :=
    .lexeme (List.cons_ne_nil _ _) (scan_string unescaped.closed) behind
  have operand := cut_bracket '(' rfl
    (literal (cut_bracket ')' rfl (cut_bracket ';' rfl .nil)))
  have cast := cut_bracket '(' rfl
    (cut_name isType (ends_cons (by decide)) (cut_bracket ')' rfl operand))
  have whole := Cut.lexeme (whole_keyword .returnWord).some
    ((whole_keyword .returnWord).found _) (.blank (ends_cons (by decide)) cast)
  rw [returned_text]
  simpa [castLexemes, writtenOut, parts, parenthesized, dotted] using whole

/-- **The source that returns a literal** is read as the literal, cast to the return type. -/
theorem readBody_quoted {kind : Kind} (typed : (type, kind) ∈ textTypes)
    (unescaped : Unescaped text) :
    ∃ p q r s, readBody
        ("return (".toList ++ type ++ ")(".toList ++ inQuotes text ++ ");".toList) =
      .ok [.returns p (some (.cast q ⟨r, String.ofList type, ()⟩
        (.literal s (.str (codesOf text)))))] := by
  have printable : Printable (.literal Position.start (textLiteral unescaped)) := trivial
  have free : Free (castLexemes type text) := by
    intro front mayFollow
    refine ⟨⟨mayFollow, _, _, rfl, rfl⟩, apart_parenthesized (.inr ⟨?_, _, rfl⟩) ?_⟩
    · exact bare_inner (.literal Position.start (textLiteral unescaped))
    · exact bare_free _ printable
  have operand : Denotes .unary (parenthesized [.string (inQuotes text)])
      (.literal Position.start (textLiteral unescaped)) :=
    denotes_loosen (denotes_parenthesized (denotes_expression (bare_denotes _ printable)))
      (by decide) (by rintro _ ⟨⟩) (by rintro _ ⟨⟩)
  have cast : Denotes .unary
      (.castType (typeNamed type).name :: parenthesized [.string (inQuotes text)])
      (.cast Position.start (typeNamed type)
        (.literal Position.start (textLiteral unescaped))) := denotes_castReference operand
  have derives : Denotes .expression (castLexemes type text) (castLiteral type unescaped) :=
    denotes_loosen cast (by decide) (by rintro _ ⟨⟩) (by rintro _ ⟨⟩)
  obtain ⟨p, source, resembles, parsed⟩ := parseSource_returned
    (P := (Resembles · (castLiteral type unescaped))) (cut_castLexemes typed unescaped) free derives
  obtain ⟨value, read, same⟩ := readBody_resembling parsed resembles
    (by simp [castLiteral, Expr.depth, maxDepth])
  obtain ⟨q, r, inner, rfl, isLiteral⟩ := Expr.unplaced_cast same
  obtain ⟨s, codes, rfl, isText⟩ := Expr.unplaced_literal isLiteral
  obtain rfl : codes = .str (codesOf text) := isText
  exact ⟨p, q, r, s, read⟩

end Printing

/-! ### Functions that are a literal -/

section Functions

open Printing (textTypes)
open Machine (outcome)

variable {type text : List Char} {kind : Kind}

/-- No body has set a member in the place of an operation of a type. -/
def Kind.IsOwn (kind : Kind) (store : Store) : Prop :=
  ∀ operation, kind.override? store operation = none

theorem Kind.cast_text (typed : (type, kind) ∈ textTypes) (codes : Codes) :
    kind.cast (.str codes) = .ok (.str codes) ∧ ¬kind.IsNumeric := by
  simp only [textTypes, List.mem_cons, Prod.mk.injEq, List.not_mem_nil, or_false] at typed
  rcases typed with ⟨-, rfl⟩ | ⟨-, rfl⟩ <;> exact ⟨rfl, id⟩

/-- The program that returns a text cast to its return type. -/
def returningText (p q r s : Position) (argsName : String) (type text : List Char)
    (kind : Kind) : Program where
  body := [.returns p (some (.cast q ⟨r, String.ofList type, kind⟩
    (.literal s (.str (codesOf text)))))]
  argsName := argsName
  returnKind := kind

theorem compile_quoted (typed : (type, kind) ∈ textTypes) (unescaped : Unescaped text)
    (clock : Nat) :
    ∃ p q r s, Program.compile [] (String.ofList (argsAt clock)) (String.ofList type)
        ("return (".toList ++ type ++ ")(".toList ++ inQuotes text ++ ");".toList) =
      .ok (returningText p q r s (String.ofList (argsAt clock)) type text kind) := by
  obtain ⟨p, q, r, s, read⟩ := Printing.readBody_quoted typed unescaped
  obtain ⟨-, -, -, resolved⟩ := Printing.textTypes_named _ typed
  have returned : Resolver.resolveAny Store.initial [] (String.ofList type) = .ok (some kind) := by
    rw [Resolver.resolveAny, resolved]
  have isType : Check.typeName builtinContext ⟨r, String.ofList type, ()⟩ =
      .ok ⟨r, String.ofList type, kind⟩ := by
    simp [Check.typeName, Program.context, resolved]
  refine ⟨p, q, r, s, ?_⟩
  rw [Program.compile, read]
  simp only [Program.ofBody, returned, Check.body, define_argsAt, Check.statements,
    Check.statement, Check.expression, isType, bind, Except.bind]
  rfl

/-- It returns the text, whatever its arguments are. -/
theorem run_returningText (typed : (type, kind) ∈ textTypes) (p q r s : Position)
    (argsName : String) (fuel : Nat) (args : Value) {store : Store} (own : kind.IsOwn store) :
    (returningText p q r s argsName type text kind).run fuel args store =
      (.ok (.str (codesOf text)), store) := by
  obtain ⟨isText, other⟩ := Kind.cast_text typed (codesOf text)
  let program := returningText p q r s argsName type text kind
  have cast : outcome (Eval.expression (.cast q ⟨r, String.ofList type, kind⟩
      (.literal s (.str (codesOf text))))) ⟨program.start args, store⟩ =
        (.ok (.str (codesOf text)), ⟨program.start args, store⟩) := by
    rw [Eval.expression_cast (own .cast) (own .isInstance) rfl]
    simp only [isText]
    rfl
  have returned : outcome (Eval.statements fuel program.body) ⟨program.start args, store⟩ =
      (.ok (.returned (.str (codesOf text))), ⟨program.start args, store⟩) := by
    rw [show program.body = [.returns p (some _)] from rfl, Eval.statements_returns, cast]
  have converted : (Dispatch.convertResult kind (.str (codesOf text))).outcome store =
      (.ok (.str (codesOf text)), store) := by
    rw [Dispatch.convertResult_other other, own .cast, Dispatch.cast_own _ (own .isInstance),
      isText]
    rfl
  exact Program.run_returned returned converted

/-- **A function whose body is a literal** in which no declared name and no `return` stands
free evaluates to the text of the literal. -/
theorem ofText_quoted {functionText : List Char} {signature : Signature}
    {declarations : List Declaration} {table : TypeTable}
    (isSplit : Signature.split functionText = .ok signature)
    (declared : Signature.declare signature.parameters = .ok declarations)
    (typed : (signature.returnType, kind) ∈ textTypes) (unescaped : Unescaped text)
    (isBody : signature.body = inQuotes text)
    (noReturn : Text.containsFree Source.returnWord (inQuotes text) = false)
    (absent : ∀ declaration ∈ declarations,
      Text.containsFree declaration.name (inQuotes text) = false) (clock : Nat) :
    ∃ function, ParsedFunction.ofText (Program.backend []) table (argsAt clock) functionText =
        .ok function ∧
      ∀ fuel args store, kind.IsOwn store →
        function.executable.run fuel args store = (.ok (.str (codesOf text)), store) := by
  obtain ⟨p, q, r, s, compiled⟩ := compile_quoted typed unescaped clock
  have body : Substitution.substitute table (argsAt clock) declarations signature.body =
      inQuotes text := by
    rw [isBody, Substitution.substitute_absent absent]
  have source : Source.ofBody (inQuotes text) signature.returnType =
      ⟨"return (".toList ++ signature.returnType ++ ")(".toList ++ inQuotes text ++
        ");".toList, false⟩ := by
    rw [Source.ofBody, noReturn]
    rfl
  refine ⟨⟨functionText, (Signature.bind declarations).map (·.name),
    EntryPoint.ofReturnType table signature.returnType,
    returningText p q r s (String.ofList (argsAt clock)) signature.returnType text kind⟩, ?_,
    fun fuel args store own => run_returningText typed p q r s _ fuel args own⟩
  simp only [ParsedFunction.ofText, CompileRequest.ofText, isSplit, declared, body, source,
    bind, Except.bind, pure, Except.pure, Program.backend, compiled]

/-- **Substitution does not reach into literals** in which no declared name stands free. -/
theorem quoted_unchanged :
    (∀ (table : TypeTable) (argsName body : List Char) (declarations : List Declaration)
      (tokens : List Token), Lexer.tokens body = .ok tokens →
      (∀ declaration ∈ declarations, Substitution.Wordlike declaration.name) →
      ∀ token ∈ tokens, ∀ spelling, Lexer.literal? token.lexeme = some spelling →
        (∀ declaration ∈ declarations,
          Text.containsFree declaration.name spelling = false) →
        spelling <:+: Substitution.substitute table argsName declarations body) ∧
    ∀ (table : TypeTable) (clock : Nat) (functionText text : List Char) (signature : Signature)
      (declarations : List Declaration) (kind : Kind),
      Signature.split functionText = .ok signature →
      Signature.declare signature.parameters = .ok declarations →
      (signature.returnType, kind) ∈ textTypes → Unescaped text →
      signature.body = inQuotes text →
      Text.containsFree Source.returnWord (inQuotes text) = false →
      (∀ declaration ∈ declarations,
        Text.containsFree declaration.name (inQuotes text) = false) →
      ∃ function, ParsedFunction.ofText (Program.backend []) table (argsAt clock) functionText =
          .ok function ∧
        ∀ fuel args store, kind.IsOwn store →
          function.executable.run fuel args store = (.ok (.str (codesOf text)), store) := by
  constructor
  · intro table argsName body declarations tokens lexes names token isIn spelling isLiteral absent
    obtain ⟨quoted, front, back, rfl⟩ := Lexer.tokensFrom_literal lexes isIn isLiteral
    obtain ⟨front', back', same⟩ := Substitution.substitute_quoted quoted names absent front back
    exact ⟨front', back', same.symm⟩
  · intro table clock functionText text signature declarations kind isSplit declared typed
      unescaped isBody noReturn absent
    exact ofText_quoted isSplit declared typed unescaped isBody noReturn absent clock

/-- The literal of `String(Integer x, y)->"ax: x[0], [y] "`. -/
def label : List Char := "ax: x[0], [y] ".toList

/-- The parameters of the function. -/
def labelDeclarations : List Declaration :=
  [⟨0, "x".toList, "Integer".toList⟩, ⟨1, "y".toList, "Integer".toList⟩]

/-- Its parameters have the letters of the literal for names, but none stands free there. -/
theorem label_unchanged :
    let functionText := "String(Integer x, y)->".toList ++ inQuotes label
    inQuotes label <:+: Substitution.substitute .standard (argsAt 7) labelDeclarations
      (inQuotes label) ∧
    ∃ function, ParsedFunction.ofText (Program.backend []) .standard (argsAt 7) functionText =
        .ok function ∧
      ∀ fuel args, (function.executable.run fuel args Store.initial).1 =
        .ok (.str (codesOf label)) := by
  intro functionText
  have names : labelDeclarations.all (·.name.all Lexer.isNamePart) = true := by decide
  have wordlike : ∀ declaration ∈ labelDeclarations,
      Substitution.Wordlike declaration.name := fun declaration isIn =>
    List.all_eq_true.mp (List.all_eq_true.mp names declaration isIn)
  have absent : ∀ declaration ∈ labelDeclarations,
      Text.containsFree declaration.name (inQuotes label) = false := by
    simp only [labelDeclarations, List.forall_mem_cons]
    exact ⟨by decide, by decide, List.forall_mem_nil _⟩
  have unescaped : Unescaped label := ⟨by decide, by decide, by decide⟩
  have lexes : Lexer.tokens (inQuotes label) =
      .ok [⟨.string (inQuotes label), Position.start⟩] := by rfl
  have isSplit : Signature.split functionText =
      .ok ⟨"String".toList, ["Integer x".toList, "y".toList], [], inQuotes label⟩ := by rfl
  have declared : Signature.declare ["Integer x".toList, "y".toList] = .ok labelDeclarations := by
    rfl
  have own : (Kind.core .string).IsOwn Store.initial := fun _ => rfl
  obtain ⟨kept, evaluates⟩ := quoted_unchanged
  refine ⟨kept .standard _ _ _ _ lexes wordlike _ List.mem_cons_self _ rfl absent, ?_⟩
  obtain ⟨function, compiled, returns⟩ := evaluates .standard 7 functionText label _ _
    (.core .string) isSplit declared (by decide) unescaped rfl (by decide) absent
  exact ⟨function, compiled, fun fuel args => by rw [returns fuel args _ own]⟩

/-- A name that stands free in a literal is replaced there, and the literal is gone. -/
theorem literal_replaced :
    let literal := inQuotes "a x b".toList
    Lexer.tokens literal = .ok [⟨.string literal, Position.start⟩] ∧
      Printing.IsIdentifier "x" ∧
      Substitution.substitute .standard "o1".toList [⟨0, "x".toList, "Integer".toList⟩] literal =
        inQuotes "a (((Integer) o1[0]).intValue()) b".toList ∧
      ¬literal <:+: Substitution.substitute .standard "o1".toList
        [⟨0, "x".toList, "Integer".toList⟩] literal := by
  exact ⟨by rfl, by decide +kernel, by decide, by decide⟩

end Functions

end Formulary
