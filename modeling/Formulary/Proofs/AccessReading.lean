/-
The finished source is read as the access that it writes.

The source is written without the blanks that would tell its lexemes apart in any text, but all
its symbols are parentheses, brackets and points in front of letters, so that every lexeme ends
where the next one begins. The parentheses that are more than needed leave no trace.

* `cut_sourceText` — the source falls into the lexemes of the access and of its cast.
* `readBody_access` — it is read as the cast of the access, whose index is the place.
-/

import Formulary.Proofs.Accesses
import Formulary.Proofs.RoundTrip

namespace Formulary

/-! ### Lexemes beside symbols -/

namespace Lexer

open Printing (IsIdentifier)

variable {more : List Lexeme} {rest : List Char}

theorem scan_name {text : List Char} (h : IsIdentifier (String.ofList text))
    (ends : Ends isNamePart rest) :
    scan (text ++ rest) = some (some (.name (String.ofList text)), text.length) := by
  obtain ⟨⟨first, word, split, begins, parts⟩, noKeyword⟩ := h
  rw [String.toList_ofList] at split
  have found := scan_word begins parts ends
  rw [← split, wordLexeme, noKeyword] at found
  rw [found, split]
  rfl

theorem cut_name {text : List Char} (h : IsIdentifier (String.ofList text))
    (ends : Ends isNamePart rest) (behind : Cut more rest) :
    Cut (.name (String.ofList text) :: more) (text ++ rest) := by
  have chars : (Lexeme.name (String.ofList text)).chars = text := String.toList_ofList
  have whole := scan_name h ends
  rw [← chars] at whole
  have nonempty : (Lexeme.name (String.ofList text)).chars ≠ [] := by
    obtain ⟨first, word, split, -, -⟩ := h.isName
    rw [Lexeme.chars, split]
    exact List.cons_ne_nil first word
  have cut := Cut.lexeme nonempty (by rw [whole, chars]) behind
  rwa [chars] at cut

/-- Parentheses, brackets and the semicolon, which nothing prolongs. -/
def bracket? : Char → Option Symbol
  | '(' => some .leftParen
  | ')' => some .rightParen
  | '[' => some .leftBracket
  | ']' => some .rightBracket
  | ';' => some .semicolon
  | _ => none

theorem cut_bracket (c : Char) {mark : Symbol} (h : bracket? c = some mark)
    (behind : Cut more rest) : Cut (.symbol mark :: more) (c :: rest) := by
  unfold bracket? at h
  split at h <;> cases h <;> exact .lexeme (List.cons_ne_nil _ _) (by rfl) behind

theorem scan_point (noDigit : Ends isDigit rest) :
    scan ('.' :: rest) = some (some (.symbol .dot), 1) := by
  have none : digitsLength rest = 0 := by
    rw [digitsLength, ← List.nil_append rest,
      takeWhile_ends (by simp) noDigit]
    rfl
  rw [scan_other (by decide) (fun _ => none) (by decide) (commentLength_none (by decide)),
    stringLength_none (by decide), characterLength_none (by decide)]
  rfl

/-- A point in front of what is no digit. -/
theorem cut_point (noDigit : Ends isDigit rest) (behind : Cut more rest) :
    Cut (.symbol .dot :: more) ('.' :: rest) :=
  .lexeme (List.cons_ne_nil _ _) (scan_point noDigit) behind

theorem cut_numeral (n : Nat) (ends : Ends prolongsNumeral rest) (behind : Cut more rest) :
    Cut (.integer (Nat.toDigits 10 n) :: more) (Nat.toDigits 10 n ++ rest) := by
  have none : ([] : List Char) ∈ numeralSuffixes := by decide
  have found := scan_numeral Nat.toDigits_ne_nil
    (fun _ => Literal.toDigits_isDigit (n := n)) none ends
  rw [List.append_nil] at found
  have some : (Lexeme.integer (Nat.toDigits 10 n)).chars ≠ [] := Nat.toDigits_ne_nil
  exact .lexeme some found behind

end Lexer

namespace Substitution

open Printing Lexer

/-! ### The expression of an access -/

/-- A type of which only the name is known. -/
def typeNamed (name : List Char) : TypeName Unit :=
  ⟨Position.start, String.ofList name, ()⟩

/-- Whether a place is written with no more digits than are taken. -/
def IsShort (index : Nat) : Prop :=
  (Nat.toDigits 10 index).length ≤ maxDigits

/-- The argument at the place of a declaration, cast to its type. -/
def slotExpr (argsName : List Char) (declaration : Declaration)
    (short : IsShort declaration.index) : PrintedExpr :=
  .cast Position.start (typeNamed declaration.typeName)
    (.index Position.start (.name Position.start (String.ofList argsName))
      (.literal Position.start ⟨.integer (Nat.toDigits 10 declaration.index),
        .int declaration.index, .int short⟩))

/-- The access to an argument. -/
def accessExpr (argsName : List Char) (declaration : Declaration)
    (short : IsShort declaration.index) : PrintedExpr :=
  match TypeTable.standard.primitiveName? declaration.typeName with
  | none => slotExpr argsName declaration short
  | some primitive =>
    .methodCall Position.start (slotExpr argsName declaration short)
      (String.ofList (unboxing primitive)) []

/-- The access, cast to the type that is returned. -/
def returnedExpr (argsName : List Char) (declaration : Declaration)
    (short : IsShort declaration.index) : PrintedExpr :=
  .cast Position.start (typeNamed Signature.defaultReturnType)
    (accessExpr argsName declaration short)

section Access

variable {argsName : List Char} {declaration : Declaration}
  (isArgs : IsIdentifier (String.ofList argsName))
  (typed : declaration.typeName ∈ argumentTypes) (short : IsShort declaration.index)

theorem argumentTypes_named : ∀ type ∈ argumentTypes,
    IsIdentifier (String.ofList type) ∧ nameParts (String.ofList type) = [String.ofList type] ∧
      Primitive.ofName? (String.ofList type) = none := by
  decide +kernel

theorem unboxing_identifier : ∀ pair ∈ TypeTable.standard.pairs,
    IsIdentifier (String.ofList (unboxing pair.1)) := by
  decide +kernel

include typed in
theorem slotExpr_bare : bare (slotExpr argsName declaration short) =
    [.castType (String.ofList declaration.typeName), .name (String.ofList argsName),
      .symbol .leftBracket, .integer (Nat.toDigits 10 declaration.index),
      .symbol .rightBracket] := by
  have noPrimitive := (argumentTypes_named _ typed).2.2
  rw [slotExpr, bare]
  simp only [typeNamed, noPrimitive]
  rfl

include isArgs typed in
theorem accessExpr_printable : Printable (accessExpr argsName declaration short) := by
  obtain ⟨isType, parts, -⟩ := argumentTypes_named _ typed
  have isName : IsTypeName (typeNamed declaration.typeName).name := by
    intro part isIn
    rw [typeNamed, parts, List.mem_singleton] at isIn
    rwa [isIn]
  have slot : Printable (slotExpr argsName declaration short) := ⟨.inr isName, isArgs, trivial⟩
  rw [accessExpr]
  split
  · exact slot
  · next primitive boxed =>
    exact ⟨slot, unboxing_identifier _ (primitiveName_mem boxed), trivial⟩

include typed in
/-- No parenthesis around an access can be taken for a cast. -/
theorem accessExpr_loose : Inner (bare (accessExpr argsName declaration short)) ∧
    ∃ other, Fold.firstOther (bare (accessExpr argsName declaration short)) = some other := by
  refine ⟨bare_inner _, ?_⟩
  rw [accessExpr]
  split
  · rw [slotExpr_bare typed short]
    exact ⟨_, rfl⟩
  · exact ⟨_, rfl⟩

/-! ### Lexemes -/

/-- A text that falls into lexemes, once they are written out, whatever follows it. -/
def Falls (lexemes : List Lexeme) (text : List Char) : Prop :=
  ∀ more rest, Cut more rest → Cut (lexemes.flatMap writtenOut ++ more) (text ++ rest)

theorem falls_parenthesized {inner : List Lexeme} {text : List Char} (h : Falls inner text) :
    Falls (parenthesized inner) ('(' :: (text ++ [')'])) := by
  intro more rest behind
  have whole := cut_bracket '(' rfl (h _ _ (cut_bracket ')' rfl behind))
  simpa [parenthesized, writtenOut] using whole

theorem falls_call {inner : List Lexeme} {text method : List Char}
    (isMethod : IsIdentifier (String.ofList method)) (h : Falls inner text) :
    Falls (inner ++ .symbol .dot :: .name (String.ofList method) :: parenthesized [])
      (text ++ '.' :: (method ++ ['(', ')'])) := by
  intro more rest behind
  have noDigit : Ends isDigit (method ++ '(' :: ')' :: rest) := by
    obtain ⟨⟨first, word, split, begins, -⟩, -⟩ := isMethod
    rw [String.toList_ofList] at split
    rw [split]
    exact ends_cons (isNameStart_not_digit begins)
  have call := cut_name isMethod (ends_cons (by decide))
    (cut_bracket '(' rfl (cut_bracket ')' rfl behind))
  have whole := h _ _ (cut_point noDigit call)
  simpa [parenthesized, writtenOut] using whole

include isArgs typed in
/-- The text of a slot falls into its lexemes. -/
theorem falls_slot : Falls (bare (slotExpr argsName declaration short))
    ('(' :: (declaration.typeName ++
      ')' :: ' ' :: slotText argsName declaration.index)) := by
  intro more rest behind
  obtain ⟨isType, parts, -⟩ := argumentTypes_named _ typed
  have noSpace : Ends isSpace
      (argsName ++ '[' :: (Nat.toDigits 10 declaration.index ++ ']' :: rest)) := by
    obtain ⟨⟨first, word, split, begins, -⟩, -⟩ := isArgs
    rw [String.toList_ofList] at split
    rw [split]
    exact ends_cons (isNameStart_not_space begins)
  have place := cut_bracket '[' rfl
    (cut_numeral declaration.index (ends_cons (by decide)) (cut_bracket ']' rfl behind))
  have slot := cut_name isArgs (ends_cons (by decide)) place
  have cast := cut_bracket '(' rfl
    (cut_name isType (ends_cons (by decide)) (cut_bracket ')' rfl (.blank noSpace slot)))
  rw [slotExpr_bare typed short]
  simpa [writtenOut, parts, parenthesized, dotted, slotText] using cast

include isArgs typed in
/-- The text of an access falls into its lexemes, with the parentheses around it. -/
theorem falls_access : Falls (parenthesized (bare (accessExpr argsName declaration short)))
    (access .standard argsName declaration) := by
  have slot := falls_slot isArgs typed short
  cases boxed : TypeTable.standard.primitiveName? declaration.typeName with
  | none =>
    have expr : accessExpr argsName declaration short = slotExpr argsName declaration short := by
      simp only [accessExpr, boxed]
    have whole := falls_parenthesized slot
    rw [expr, access_plain boxed]
    simpa using whole
  | some primitive =>
    have isMethod := unboxing_identifier _ (primitiveName_mem boxed)
    have expr : bare (accessExpr argsName declaration short) =
        parenthesized (bare (slotExpr argsName declaration short)) ++
          .symbol .dot :: .name (String.ofList (unboxing primitive)) :: parenthesized [] := by
      simp only [accessExpr, boxed]
      rfl
    have whole := falls_parenthesized (falls_call isMethod (falls_parenthesized slot))
    rw [expr, access_boxed boxed]
    simpa using whole

/-- The lexemes of a cast of something in two pairs of parentheses. -/
def castOf (inner : List Lexeme) : List Lexeme :=
  .castType (String.ofList Signature.defaultReturnType) :: parenthesized (parenthesized inner)

theorem returned_text (type written : List Char) :
    "return (".toList ++ type ++ ")(".toList ++ written ++ ");".toList =
      (Lexeme.keyword .returnWord).chars ++
        ' ' :: '(' :: (type ++ ')' :: '(' :: (written ++ [')', ';'])) := by
  have opening : "return (".toList = (Lexeme.keyword .returnWord).chars ++ [' ', '('] := by
    decide
  have between : ")(".toList = [')', '('] := by decide
  have closing : ");".toList = [')', ';'] := by decide
  rw [opening, between, closing]
  simp

include isArgs typed in
/-- **The finished source** falls into the lexemes of the access and of the cast around it. -/
theorem cut_sourceText :
    Cut (.keyword .returnWord ::
        ((castOf (bare (accessExpr argsName declaration short))).flatMap writtenOut ++
          [.symbol .semicolon]))
      (sourceText argsName declaration) := by
  have isObject : Signature.defaultReturnType ∈ argumentTypes := List.mem_cons_self
  obtain ⟨isType, parts, -⟩ := argumentTypes_named _ isObject
  have operand := falls_parenthesized (falls_access isArgs typed short) _ _
    (cut_bracket ';' rfl .nil)
  have cast := cut_bracket '(' rfl
    (cut_name isType (ends_cons (by decide)) (cut_bracket ')' rfl operand))
  have whole := Cut.lexeme (whole_keyword .returnWord).some
    ((whole_keyword .returnWord).found _) (.blank (ends_cons (by decide)) cast)
  have lexemes : (castOf (bare (accessExpr argsName declaration short))).flatMap writtenOut =
      .symbol .leftParen :: .name (String.ofList Signature.defaultReturnType) ::
        .symbol .rightParen :: (parenthesized (parenthesized
          (bare (accessExpr argsName declaration short)))).flatMap writtenOut := by
    rw [castOf, List.flatMap_cons, writtenOut, parts]
    rfl
  have text : sourceText argsName declaration = _ :=
    returned_text Signature.defaultReturnType (access .standard argsName declaration)
  rw [text, lexemes]
  simpa only [List.append_assoc, List.cons_append, List.nil_append] using whole

/-! ### Reading -/

include isArgs typed in
theorem castOf_free : Free (castOf (bare (accessExpr argsName declaration short))) := by
  intro front mayFollow
  have inner : Free (parenthesized (bare (accessExpr argsName declaration short))) :=
    fun _ _ => apart_parenthesized (.inr (accessExpr_loose typed short))
      (bare_free _ (accessExpr_printable isArgs typed short))
  exact ⟨⟨mayFollow, _, _, rfl, rfl⟩,
    apart_parenthesized (.inr ⟨inner_parenthesized _, _, rfl⟩) inner⟩

include isArgs typed in
theorem castOf_denotes :
    Denotes .expression (castOf (bare (accessExpr argsName declaration short)))
      (returnedExpr argsName declaration short) := by
  have access := denotes_expression
    (bare_denotes _ (accessExpr_printable isArgs typed short))
  have anywhere {phrase : Grammar.Phrase} {lexemes : List Lexeme} {e : PrintedExpr}
      (isLevel : phrase.IsLevel) (le : tightness phrase ≤ tightness .primary)
      (h : Denotes .expression lexemes e) : Denotes phrase (parenthesized lexemes) e :=
    denotes_loosen (denotes_parenthesized h) le (by rintro _ ⟨⟩) isLevel
  have inner : Denotes .expression
      (parenthesized (bare (accessExpr argsName declaration short)))
      (accessExpr argsName declaration short) :=
    anywhere (by rintro _ ⟨⟩) (by decide) access
  have operand : Denotes .unary
      (parenthesized (parenthesized (bare (accessExpr argsName declaration short))))
      (accessExpr argsName declaration short) :=
    anywhere (by rintro _ ⟨⟩) (by decide) inner
  have cast : Denotes .unary
      (.castType (typeNamed Signature.defaultReturnType).name ::
        parenthesized (parenthesized (bare (accessExpr argsName declaration short))))
      (.cast Position.start (typeNamed Signature.defaultReturnType)
        (accessExpr argsName declaration short)) := denotes_castReference operand
  exact denotes_loosen cast (by decide) (by rintro _ ⟨⟩) (by rintro _ ⟨⟩)

theorem returnedExpr_shallow : (returnedExpr argsName declaration short).depth < maxDepth := by
  rw [returnedExpr, accessExpr]
  split
  · simp [slotExpr, Expr.depth, maxDepth]
  · simp [slotExpr, Expr.depth, Expr.depthOfAll, maxDepth]

include isArgs typed in
/-- **Reading.** The finished source is read as the cast of the access, returned. -/
theorem readBody_access :
    ∃ p value, readBody (sourceText argsName declaration) = .ok [.returns p (some value)] ∧
      value.unplaced id = (returnedExpr argsName declaration short).unplaced Spelled.value := by
  obtain ⟨p, source, resembles, parsed⟩ := parseSource_returned
    (P := (Resembles · (returnedExpr argsName declaration short)))
    (cut_sourceText isArgs typed short) (castOf_free isArgs typed short)
    (castOf_denotes isArgs typed short)
  exact ⟨p, readBody_resembling parsed resembles (returnedExpr_shallow short)⟩

end Access

end Substitution

end Formulary
