/-
Expressions in parentheses behind a cast.

Neither folding nor the grammar looks past what closes: tokens in front of closing parentheses and
semicolons are folded as they are alone, and nested tokens that stand in parentheses behind a cast
are an expression by themselves.

* `foldFrom_tail` — folding tokens in front of what closes.
* `Derives.of_cast` — what stands in the parentheses behind a cast.
* `Body.of_cast` — a body that returns such a cast has nothing behind it.
-/

import Formulary.Proofs.Nesting
import Formulary.Proofs.Parsing

namespace Formulary

/-! ### Closing tokens -/

/-- Closing parentheses and semicolons. -/
def Closes (tokens : List Token) : Prop :=
  ∀ token ∈ tokens, token.lexeme = .symbol .rightParen ∨ token.lexeme = .symbol .semicolon

namespace Fold

/-- What closes goes on with no name and begins no operand. -/
structure Stops (token : Token) : Prop where
  noDot : token.lexeme ≠ .symbol .dot
  noName : ∀ text, token.lexeme ≠ .name text
  noOperand : startsOperand token = false

theorem stops_of_closes {tail : List Token} (closes : Closes tail) :
    ∀ token ∈ tail, Stops token := by
  rintro ⟨lexeme, p⟩ isIn
  rcases closes _ isIn with isParen | isSemicolon
  · obtain rfl : lexeme = _ := isParen
    exact ⟨by simp, by simp, rfl⟩
  · obtain rfl : lexeme = _ := isSemicolon
    exact ⟨by simp, by simp, rfl⟩

theorem Stops.unnamed {token : Token} (h : Stops token) (rest : List Token) :
    dottedName? (token :: rest) = none := by
  obtain ⟨lexeme, p⟩ := token
  cases lexeme with
  | name text => exact absurd rfl (h.noName text)
  | _ => rfl

theorem Stops.unfolded {token : Token} (h : Stops token) (previous : Option Token)
    (rest : List Token) :
    (castAt? previous (token :: rest) <|> declaredAt? (token :: rest)) = none := by
  have noParen : token.lexeme ≠ .symbol .leftParen := by
    intro isParen
    have noOperand := h.noOperand
    rw [startsOperand, isParen] at noOperand
    cases noOperand
  have noCast : castAt? previous (token :: rest) = none := by simp [castAt?, noParen]
  rw [noCast, declaredAt?, h.unnamed]
  rfl

theorem foldFrom_stops {tokens : List Token} (stops : ∀ token ∈ tokens, Stops token)
    (previous : Option Token) : foldFrom 0 previous tokens = tokens := by
  induction tokens generalizing previous with
  | nil => rfl
  | cons token rest ih =>
    obtain ⟨first, others⟩ := List.forall_mem_cons.mp stops
    rw [foldFrom, first.unfolded]
    exact congrArg (token :: ·) (ih others (some token))

section Tails

variable {tail : List Token} (stops : ∀ token ∈ tail, Stops token)

include stops

theorem dottedRest_tail (tokens : List Token) :
    dottedRest (tokens ++ tail) = ((dottedRest tokens).1, (dottedRest tokens).2 ++ tail) := by
  -- A name goes on only if a point and a name follow.
  have ends {dot part : Token} {rest : List Token}
      (h : ∀ text, dot.lexeme = .symbol .dot → part.lexeme = .name text → False) :
      dottedRest (dot :: part :: rest) = ([], dot :: part :: rest) := by
    rw [dottedRest]
    split
    · next isDot isPart => exact (h _ isDot isPart).elim
    · rfl
  induction tokens using dottedRest.induct with
  | case1 dot part rest text isPart isDot parts after same ih =>
    rw [List.cons_append, List.cons_append, dottedRest, dottedRest]
    simp only [isPart, isDot, ih]
  | case2 dot part rest other =>
    rw [List.cons_append, List.cons_append, ends other, ends other]
    rfl
  | case3 rest short =>
    rw [dottedRest.eq_2 rest short]
    rcases rest with - | ⟨dot, - | ⟨part, rest⟩⟩
    · rcases shape : tail with - | ⟨first, - | ⟨second, more⟩⟩
      · rfl
      · rfl
      · subst shape
        exact ends fun _ isDot _ => (stops first List.mem_cons_self).noDot isDot
    · cases shape : tail with
      | nil => rfl
      | cons first more =>
        subst shape
        exact ends fun text _ isPart => (stops first List.mem_cons_self).noName text isPart
    · exact absurd rfl (short dot part rest)

theorem dottedName_tail (tokens : List Token) :
    dottedName? (tokens ++ tail) = (dottedName? tokens).map (Prod.map id (· ++ tail)) := by
  cases tokens with
  | nil =>
    cases shape : tail with
    | nil => rfl
    | cons first more =>
      subst shape
      rw [List.nil_append, (stops first List.mem_cons_self).unnamed]
      rfl
  | cons first rest =>
    rw [List.cons_append, dottedName?, dottedName?]
    split
    · rw [dottedRest_tail stops]
      rfl
    · rfl

theorem castAt_tail (previous : Option Token) (paren : Token) (rest : List Token) :
    castAt? previous (paren :: rest ++ tail) = castAt? previous (paren :: rest) := by
  rw [List.cons_append, castAt?, castAt?, dottedName_tail stops]
  split
  · cases dottedName? rest with
    | none => rfl
    | some found =>
      obtain ⟨parts, after⟩ := found
      -- An operand would have to stand in the tail.
      rcases after with - | ⟨closing, - | ⟨operand, more⟩⟩
      · rcases shape : tail with - | ⟨closing, - | ⟨operand, more⟩⟩
        · rfl
        · rfl
        · subst shape
          have isIn : operand ∈ closing :: operand :: more := by simp
          simp [(stops operand isIn).noOperand]
      · cases shape : tail with
        | nil => rfl
        | cons operand more =>
          subst shape
          simp [(stops operand List.mem_cons_self).noOperand]
      · rfl
  · rfl

theorem declaredAt_tail (first : Token) (rest : List Token) :
    declaredAt? (first :: rest ++ tail) = declaredAt? (first :: rest) := by
  rw [declaredAt?, declaredAt?, dottedName_tail stops]
  cases dottedName? (first :: rest) with
  | none => rfl
  | some found =>
    obtain ⟨parts, after⟩ := found
    cases after with
    | cons next more => rfl
    | nil =>
      cases shape : tail with
      | nil => rfl
      | cons next more =>
        subst shape
        simp only [Option.map_some, Prod.map_apply, List.nil_append]
        split
        · next isName => exact absurd isName ((stops next List.mem_cons_self).noName _)
        · rfl

/-- **Folding tokens in front of what closes.** -/
theorem foldFrom_tail (skip : Nat) (previous : Option Token) (tokens : List Token)
    (within : skip ≤ tokens.length) :
    foldFrom skip previous (tokens ++ tail) = foldFrom skip previous tokens ++ tail := by
  induction tokens generalizing skip previous with
  | nil =>
    obtain rfl := Nat.le_zero.mp within
    exact foldFrom_stops stops previous
  | cons token rest ih =>
    cases skip with
    | succ skip => exact ih skip (some token) (Nat.le_of_succ_le_succ within)
    | zero =>
      have cast := castAt_tail stops previous token rest
      have declared := declaredAt_tail stops token rest
      rw [List.cons_append] at cast declared ⊢
      rw [foldFrom, foldFrom, cast, declared]
      split
      · next folded count found =>
        obtain ⟨front, back, same, isCount, -⟩ := found_folds found
        have length := congrArg List.length same
        rw [List.length_cons, List.length_append] at length
        rw [ih _ _ (by omega)]
        rfl
      · rw [ih _ _ (Nat.zero_le _)]
        rfl

end Tails

/-- The token in front counts only for whether a cast may follow it. -/
theorem foldFrom_previous {previous previous' : Option Token}
    (same : castMayFollow previous = castMayFollow previous') (tokens : List Token) :
    foldFrom 0 previous tokens = foldFrom 0 previous' tokens := by
  cases tokens with
  | nil => rfl
  | cons token rest => simp only [foldFrom, castAt?, same]

/-- A token that begins no name is kept, if no cast begins there. -/
theorem foldFrom_kept {previous : Option Token} {token : Token} {rest : List Token}
    (noCast : castAt? previous (token :: rest) = none)
    (noName : dottedName? (token :: rest) = none) :
    foldFrom 0 previous (token :: rest) = token :: foldFrom 0 (some token) rest := by
  rw [foldFrom, noCast, declaredAt?, noName]
  rfl

theorem castAt_symbol {previous : Option Token} {token : Token}
    (noParen : token.lexeme ≠ .symbol .leftParen) (rest : List Token) :
    castAt? previous (token :: rest) = none := by
  simp [castAt?, noParen]

/-- Nested tokens in parentheses that close them are no type name of a cast. -/
theorem castAt_nested {inner : List Token} (nested : Nested inner) (previous : Option Token)
    (p : Position) : castAt? previous (⟨.symbol .leftParen, p⟩ :: inner) = none := by
  rw [castAt?]
  split
  · split
    · next parts closing operand more named =>
      obtain ⟨-, balanced, -, rfl⟩ := dottedName_parts named
      have noClosing : closing.lexeme ≠ .symbol .rightParen := by
        obtain ⟨lexeme, q⟩ := closing
        rintro rfl
        exact Nested.unclosed balanced nested
      simp [noClosing]
    · rfl
  · rfl

end Fold

namespace Grammar

/-! ### Casts -/

/-- The tokens of a cast to a type, folded, and the places of the cast and of its type. -/
inductive CastTo (type : String) : List Token → Position → Position → Prop
  | reference (p : Position) : CastTo type [⟨.castType type, p⟩] p p
  | primitive {primitive : Primitive} (isName : primitive.name = type) (p q r : Position) :
      CastTo type
        [⟨.symbol .leftParen, p⟩, ⟨.keyword (.primitive primitive), q⟩, ⟨.symbol .rightParen, r⟩]
        p q

section Casts

variable {type : String} {cast : List Token} {p q : Position} (isCast : CastTo type cast p q)

include isCast

theorem CastTo.derives {tokens : List Token} {v : Parsed} (h : Derives .unary tokens v) :
    Derives .unary (cast ++ tokens) ⟨.cast p ⟨q, type, ()⟩ v.expr, p⟩ := by
  cases isCast with
  | reference p => exact .castReference h
  | primitive isName p q r =>
    subst isName
    exact .castPrimitive h

theorem CastTo.balanced : Balanced cast := by
  cases isCast with
  | reference p => exact .singleton rfl
  | primitive isName p q r => exact @Balanced.enclosed [_] _ _ _ (.singleton rfl) .nil

theorem CastTo.no_semicolon (r : Position) : ⟨.symbol .semicolon, r⟩ ∉ cast := by
  cases isCast with
  | reference p => simp
  | primitive isName p q r => simp

end Casts

/-- An expression begins with an operand of the tightest operators. -/
theorem Derives.leading_unary {phrase : Phrase} {tokens : List Token} {v : Parsed}
    (h : Derives phrase tokens v) (noSuffixed : phrase ≠ .suffixed)
    (noPrimary : phrase ≠ .primary) :
    ∃ front back w, tokens = front ++ back ∧ Derives .unary front w := by
  have more {front behind : List Token} :
      (∃ first back w, front = first ++ back ∧ Derives .unary first w) →
      ∃ first back w, front ++ behind = first ++ back ∧ Derives .unary first w := by
    rintro ⟨first, back, w, rfl, derived⟩
    exact ⟨first, back ++ behind, w, List.append_assoc .., derived⟩
  have whole {front : List Token} {w : Parsed} (derived : Derives .unary front w) :
      ∃ first back w, front = first ++ back ∧ Derives .unary first w :=
    ⟨front, [], w, (List.append_nil front).symm, derived⟩
  induction h with
  | unassigned _ ih | unconditional _ ih | tighter _ ih => exact ih (by simp) (by simp)
  | conditional _ _ _ ih _ _ => exact more (ih (by simp) (by simp))
  | binary _ _ _ ih _ | logical _ _ _ ih _ => exact more (ih (by simp) (by simp))
  | instanceOf _ _ ih => exact more (ih (by simp) (by simp))
  | assign left _ _ _ _ => exact more (whole left)
  | operand h _ => exact whole h
  | unary isMark h _ => exact whole (.unary isMark h)
  | stepBefore h _ => exact whole (.stepBefore h)
  | castReference h _ => exact whole (.castReference h)
  | castPrimitive h _ => exact whole (.castPrimitive h)
  | unadorned h _ => exact whole (.unadorned h)
  | field | methodCall | index | stepBehind | unsuffixed => exact absurd rfl noSuffixed
  | literal | name | call | parentheses | new => exact absurd rfl noPrimary

/-- A primary with suffixes begins with the primary. -/
theorem Derives.leading_primary {phrase : Phrase} {tokens : List Token} {v : Parsed}
    (h : Derives phrase tokens v) (isSuffixed : phrase = .suffixed) :
    ∃ front back w, tokens = front ++ back ∧ Derives .primary front w := by
  have more {front behind : List Token} :
      (∃ first back w, front = first ++ back ∧ Derives .primary first w) →
      ∃ first back w, front ++ behind = first ++ back ∧ Derives .primary first w := by
    rintro ⟨first, back, w, rfl, derived⟩
    exact ⟨first, back ++ behind, w, List.append_assoc .., derived⟩
  induction h with
  | field _ ih | methodCall _ _ _ ih _ | index _ _ ih _ | stepBehind _ ih =>
    exact more (ih rfl)
  | @unsuffixed tokens v h _ => exact ⟨tokens, [], v, (List.append_nil tokens).symm, h⟩
  | _ => cases isSuffixed

/-- What begins with a parenthesis is in parentheses, or it is a cast to a primitive type. -/
theorem Derives.begins_paren {front back rest : List Token} {v : Parsed} {p : Position}
    (h : Derives .unary front v) (same : front ++ back = ⟨.symbol .leftParen, p⟩ :: rest) :
    (∃ inner behind q w,
      front = ⟨.symbol .leftParen, p⟩ :: (inner ++ ⟨.symbol .rightParen, q⟩ :: behind) ∧
        Derives .expression inner w) ∨
    ∃ tokens primitive q r w,
      front = ⟨.symbol .leftParen, p⟩ :: ⟨.keyword (.primitive primitive), q⟩ ::
        ⟨.symbol .rightParen, r⟩ :: tokens ∧ Derives .unary tokens w := by
  cases h with
  | unary isMark _ =>
    cases (List.cons.inj same).1
    cases unaryOperators_plain _ isMark
  | stepBefore => cases (List.cons.inj same).1
  | castReference => cases (List.cons.inj same).1
  | castPrimitive derived =>
    cases (List.cons.inj same).1
    exact .inr ⟨_, _, _, _, _, rfl, derived⟩
  | unadorned h =>
    obtain ⟨first, behind, w, rfl, primary⟩ := h.leading_primary rfl
    cases primary with
    | literal isLiteral =>
      cases (List.cons.inj same).1
      cases isLiteral
    | name => cases (List.cons.inj same).1
    | call => cases (List.cons.inj same).1
    | new => cases (List.cons.inj same).1
    | @parentheses inner _ _ q derived =>
      cases (List.cons.inj same).1
      refine .inl ⟨inner, behind, q, w, ?_, derived⟩
      simp

/-- What begins with a cast is a cast of what stands behind it. -/
theorem Derives.begins_cast {type : String} {cast : List Token} {p q : Position}
    (isCast : CastTo type cast p q) {front back rest : List Token} {v : Parsed}
    (h : Derives .unary front v) (same : front ++ back = cast ++ rest) :
    ∃ middle w, front = cast ++ middle ∧ Derives .unary middle w := by
  cases isCast with
  | reference p =>
    cases h with
    | unary => cases (List.cons.inj same).1
    | stepBefore => cases (List.cons.inj same).1
    | castPrimitive => cases (List.cons.inj same).1
    | castReference derived =>
      cases (List.cons.inj same).1
      exact ⟨_, _, rfl, derived⟩
    | unadorned h =>
      obtain ⟨first, behind, w, rfl, primary⟩ := h.leading_primary rfl
      cases primary with
      | literal isLiteral =>
        cases (List.cons.inj same).1
        cases isLiteral
      | name => cases (List.cons.inj same).1
      | call => cases (List.cons.inj same).1
      | new => cases (List.cons.inj same).1
      | parentheses => cases (List.cons.inj same).1
  | primitive isName p q r =>
    rcases h.begins_paren same with
      ⟨inner, behind, q', w, rfl, derived⟩ | ⟨tokens, primitive, q', r', w, rfl, derived⟩
    · -- No expression begins with the name of a primitive type.
      obtain ⟨token, others, rfl, opens⟩ := derived.opens
      cases (List.cons.inj (List.cons.inj same).2).1
      cases opens with
      | literal isLiteral => cases isLiteral
    · cases (List.cons.inj (List.cons.inj same).2).1
      cases (List.cons.inj (List.cons.inj (List.cons.inj same).2).2).1
      exact ⟨tokens, w, rfl, derived⟩

theorem append_last {α : Type} {front rest inner : List α} {a b : α} (some : rest ≠ [])
    (same : front ++ a :: rest = inner ++ [b]) : ∃ back, inner = front ++ a :: back := by
  obtain ⟨back, last, rfl⟩ := (List.eq_nil_or_concat rest).resolve_left some
  rw [List.concat_eq_append, ← List.cons_append, ← List.append_assoc] at same
  exact ⟨back, (List.append_inj' same rfl).1.symm⟩

/-- **An expression that is a cast of nested tokens in parentheses** is a cast of all of them, and
they are an expression. -/
theorem Derives.of_cast {type : String} {cast inner : List Token} {p q r s : Position}
    {v : Parsed} (isCast : CastTo type cast p q) (nested : Nested inner)
    (h : Derives .expression
      (cast ++ ⟨.symbol .leftParen, r⟩ :: (inner ++ [⟨.symbol .rightParen, s⟩])) v) :
    ∃ w, Derives .expression inner w := by
  obtain ⟨front, back, u, same, derived⟩ := h.leading_unary (by simp) (by simp)
  obtain ⟨middle, u, rfl, operand⟩ := derived.begins_cast isCast same.symm
  rw [List.append_assoc] at same
  have rest := List.append_cancel_left same
  rcases operand.begins_paren rest.symm with
    ⟨inside, behind, q', w, rfl, within⟩ | ⟨tokens, primitive, q', r', w, rfl, within⟩
  · have closed : inside ++ ⟨.symbol .rightParen, q'⟩ :: (behind ++ back) =
        inner ++ [⟨.symbol .rightParen, s⟩] := by
      simpa using (List.cons.inj rest).2.symm
    by_cases last : behind ++ back = []
    · rw [last] at closed
      obtain ⟨rfl, -⟩ := List.append_inj' closed rfl
      exact ⟨w, within⟩
    · obtain ⟨more, rfl⟩ := append_last last closed
      exact (Nested.unclosed within.balanced nested).elim
  · have closed : [⟨.keyword (.primitive primitive), q'⟩] ++ ⟨.symbol .rightParen, r'⟩ ::
        (tokens ++ back) = inner ++ [⟨.symbol .rightParen, s⟩] := by
      simpa using (List.cons.inj rest).2.symm
    have some : tokens ++ back ≠ [] :=
      fun none => within.nonempty (List.append_eq_nil_iff.mp none).1
    obtain ⟨more, rfl⟩ := append_last some closed
    exact (Nested.unclosed (.singleton rfl) nested).elim

/-! ### Returned casts -/

/-- What begins with `return` is a `return`. -/
theorem Statement.of_return {rest : List Token} {s : SourceStmt} {p : Position}
    (h : Statement (⟨.keyword .returnWord, p⟩ :: rest) s) :
    ∃ tokens value q, rest = tokens ++ [⟨.symbol .semicolon, q⟩] ∧ Optional tokens value ∧
      s = .returns p value := by
  generalize same : ⟨.keyword .returnWord, p⟩ :: rest = tokens at h
  cases h with
  | returns value =>
    cases same
    exact ⟨_, _, _, rfl, value, rfl⟩
  | expression derived =>
    obtain ⟨token, others, rfl, opens⟩ := derived.opens
    cases same
    cases opens with
    | literal isLiteral => cases isLiteral
  | declaration declared =>
    cases same
    cases declared
  | _ => cases same

theorem Statement.nonempty {tokens : List Token} {s : SourceStmt} (h : Statement tokens s) :
    tokens ≠ [] := by
  cases h <;> simp

theorem Body.of_return {rest : List Token} {body : List SourceStmt} {p : Position}
    (h : Body (⟨.keyword .returnWord, p⟩ :: rest) body) :
    ∃ tokens value q others, rest = tokens ++ ⟨.symbol .semicolon, q⟩ :: others ∧
      Optional tokens value := by
  obtain ⟨parts, each, same, rfl⟩ := h
  rcases parts with - | ⟨⟨first, s⟩, parts⟩
  · cases same
  · have written := each (first, s) List.mem_cons_self
    rw [List.flatMap_cons] at same
    cases first with
    | nil => exact absurd rfl written.nonempty
    | cons token first =>
      obtain ⟨rfl, rfl⟩ := List.cons.inj same
      obtain ⟨tokens, value, q, rfl, isValue, -⟩ := written.of_return
      exact ⟨tokens, value, q, parts.flatMap Prod.fst, by simp, isValue⟩

/-- **A body that returns a cast of nested tokens in parentheses** goes on with nothing but the
closing parenthesis and a semicolon, and the tokens are an expression. -/
theorem Body.of_cast {type : String} {cast inner tail : List Token} {p q r s t u : Position}
    {body : List SourceStmt} (isCast : CastTo type cast p q) (nested : Nested inner)
    (isTail : tail = [] ∨ tail = [⟨.symbol .rightParen, s⟩, ⟨.symbol .semicolon, t⟩])
    (h : Body (⟨.keyword .returnWord, u⟩ ::
      (cast ++ ⟨.symbol .leftParen, r⟩ :: (inner ++ tail))) body) :
    tail ≠ [] ∧ ∃ w, Derives .expression inner w := by
  obtain ⟨tokens, value, v, others, same, isValue⟩ := h.of_return
  have balanced : Balanced tokens := by
    cases isValue with
    | none => exact .nil
    | some derived => exact derived.balanced
  have split : tokens ++ ⟨.symbol .semicolon, v⟩ :: others =
      (cast ++ ⟨.symbol .leftParen, r⟩ :: inner) ++ tail := by
    rw [← same]
    simp
  rcases List.append_eq_append_iff.mp split with ⟨more, isWhole, isRest⟩ | ⟨more, isTokens, isTail'⟩
  · -- The returned expression would end inside the parentheses.
    exfalso
    rcases List.append_eq_append_iff.mp isWhole with
      ⟨inside, rfl, isInner⟩ | ⟨inside, isCast', isMore⟩
    · cases inside with
      | nil =>
        rw [List.nil_append] at isInner
        rw [← isInner] at isRest
        cases (List.cons.inj isRest).1
      | cons token inside =>
        obtain ⟨rfl, rfl⟩ := List.cons.inj isInner
        have closed := balanced 0
        rw [openBehind_append, isCast.balanced 0, Option.bind_some, openBehind_cons] at closed
        exact nested.left.still_open closed
    · cases inside with
      | nil =>
        rw [isMore] at isRest
        cases (List.cons.inj isRest).1
      | cons token inside =>
        rw [isMore] at isRest
        obtain ⟨rfl, -⟩ := List.cons.inj isRest
        refine isCast.no_semicolon v ?_
        rw [isCast']
        simp
  · have some : tail ≠ [] := by
      rw [isTail']
      simp
    obtain rfl := isTail.resolve_left some
    refine ⟨some, ?_⟩
    obtain rfl : more = [⟨.symbol .rightParen, s⟩] := by
      rcases more with - | ⟨token, - | ⟨second, more⟩⟩
      · cases (List.cons.inj isTail').1
      · rw [(List.cons.inj isTail').1]
      · exact absurd (congrArg List.length isTail') (by simp)
    cases isValue with
    | none => simp at isTokens
    | some derived =>
      subst isTokens
      rw [List.append_assoc] at derived
      exact derived.of_cast isCast nested

end Grammar

end Formulary
