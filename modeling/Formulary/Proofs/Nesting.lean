/-
How parentheses nest in tokens.

The tokens of an expression close just the parentheses that they open, and the folding of type
names takes parentheses away in pairs only. So tokens that close no parenthesis but their own ones
cannot end an expression around them.

* `openBehind` — how many parentheses are open behind some tokens.
* `Derives.balanced` — an expression closes what it opens, and no more.
* `openBehind_fold` — folding type names does not change how parentheses nest.
-/

import Formulary.Proofs.RelabeledFolding

namespace Formulary

/-! ### Open parentheses -/

/-- How many parentheses are open behind a lexeme with `opened` of them open in front of it; none
if it closes one that is not open. -/
def Lexeme.openBehind (opened : Nat) : Lexeme → Option Nat
  | .symbol .leftParen => some (opened + 1)
  | .symbol .rightParen => if opened = 0 then none else some (opened - 1)
  | _ => some opened

/-- How many parentheses are open behind tokens; none if they close one that is not open. -/
def openBehind (opened : Nat) (tokens : List Token) : Option Nat :=
  tokens.foldlM (fun opened token => token.lexeme.openBehind opened) opened

/-- Tokens that close no parenthesis that they have not opened. -/
def Nested (tokens : List Token) : Prop :=
  (openBehind 0 tokens).isSome = true

instance : DecidablePred Nested :=
  fun tokens => inferInstanceAs (Decidable ((openBehind 0 tokens).isSome = true))

/-- Tokens that close just the parentheses that they open. -/
def Balanced (tokens : List Token) : Prop :=
  ∀ opened, openBehind opened tokens = some opened

/-- Whether a lexeme is no parenthesis. -/
def Lexeme.isPlain : Lexeme → Bool
  | .symbol .leftParen | .symbol .rightParen => false
  | _ => true

@[simp]
theorem openBehind_nil (opened : Nat) : openBehind opened [] = some opened := rfl

@[simp]
theorem openBehind_cons (opened : Nat) (token : Token) (rest : List Token) :
    openBehind opened (token :: rest) =
      (token.lexeme.openBehind opened).bind (openBehind · rest) := rfl

@[simp]
theorem openBehind_append (opened : Nat) (front back : List Token) :
    openBehind opened (front ++ back) = (openBehind opened front).bind (openBehind · back) :=
  List.foldlM_append

@[simp]
theorem Lexeme.openBehind_leftParen (opened : Nat) :
    (Lexeme.symbol .leftParen).openBehind opened = some (opened + 1) := rfl

@[simp]
theorem Lexeme.openBehind_rightParen (opened : Nat) :
    (Lexeme.symbol .rightParen).openBehind (opened + 1) = some opened := rfl

@[simp]
theorem Lexeme.openBehind_unopened : (Lexeme.symbol .rightParen).openBehind 0 = none := rfl

theorem Lexeme.openBehind_plain {lexeme : Lexeme} (h : lexeme.isPlain = true) (opened : Nat) :
    lexeme.openBehind opened = some opened := by
  unfold Lexeme.openBehind
  split
  · cases h
  · cases h
  · rfl

/-- How parentheses nest depends on the lexemes only. -/
theorem openBehind_lexemes {tokens tokens' : List Token}
    (same : tokens.map Token.lexeme = tokens'.map Token.lexeme) (opened : Nat) :
    openBehind opened tokens = openBehind opened tokens' := by
  have view (tokens : List Token) : openBehind opened tokens =
      (tokens.map Token.lexeme).foldlM (fun opened lexeme => lexeme.openBehind opened) opened :=
    List.foldlM_map.symm
  rw [view, view, same]

/-- More open parentheses in front are more open parentheses behind. -/
theorem openBehind_more {opened left : Nat} {tokens : List Token}
    (h : openBehind opened tokens = some left) :
    openBehind (opened + 1) tokens = some (left + 1) := by
  induction tokens generalizing opened with
  | nil =>
    cases h
    rfl
  | cons token rest ih =>
    rw [openBehind_cons, Option.bind_eq_some_iff] at h
    obtain ⟨next, isNext, behind⟩ := h
    have more : token.lexeme.openBehind (opened + 1) = some (next + 1) := by
      unfold Lexeme.openBehind at isNext ⊢
      split at isNext
      · cases isNext
        rfl
      · split at isNext
        · cases isNext
        · cases isNext
          rw [if_neg (Nat.succ_ne_zero opened)]
          congr 1
          omega
      · cases isNext
        rfl
    rw [openBehind_cons, more]
    exact ih behind

theorem Nested.left {front back : List Token} (h : Nested (front ++ back)) : Nested front := by
  rw [Nested, openBehind_append] at h
  exact Option.isSome_of_isSome_bind h

/-- A parenthesis in front of nested tokens is still open behind them. -/
theorem Nested.still_open {tokens : List Token} (h : Nested tokens) :
    openBehind 1 tokens ≠ some 0 := by
  obtain ⟨left, isLeft⟩ := Option.isSome_iff_exists.mp h
  rw [openBehind_more isLeft]
  simp

/-- Behind balanced tokens, nested ones do not go on with a closing parenthesis. -/
theorem Nested.unclosed {front back : List Token} {p : Position} (balanced : Balanced front) :
    ¬Nested (front ++ ⟨.symbol .rightParen, p⟩ :: back) := by
  rw [Nested, openBehind_append, balanced 0]
  simp

/-! ### Balanced tokens -/

namespace Balanced

theorem nested {tokens : List Token} (h : Balanced tokens) : Nested tokens := by
  rw [Nested, h 0]
  rfl

theorem nil : Balanced [] := fun _ => rfl

theorem append {front back : List Token} (h : Balanced front) (h' : Balanced back) :
    Balanced (front ++ back) := by
  intro opened
  rw [openBehind_append, h opened, Option.bind_some, h' opened]

theorem cons {token : Token} {rest : List Token} (plain : token.lexeme.isPlain = true)
    (h : Balanced rest) : Balanced (token :: rest) := by
  intro opened
  rw [openBehind_cons, Lexeme.openBehind_plain plain, Option.bind_some, h opened]

theorem singleton {token : Token} (plain : token.lexeme.isPlain = true) : Balanced [token] :=
  cons plain nil

/-- Tokens in parentheses, with more behind them. -/
theorem enclosed {inner back : List Token} {p q : Position} (h : Balanced inner)
    (h' : Balanced back) :
    Balanced (⟨.symbol .leftParen, p⟩ :: (inner ++ ⟨.symbol .rightParen, q⟩ :: back)) := by
  intro opened
  simp [h (opened + 1), h' opened]

end Balanced

namespace Grammar

theorem DottedRest.balanced {tokens : List Token} {tail : String} (h : DottedRest tokens tail) :
    Balanced tokens := by
  induction h with
  | nil => exact .nil
  | cons _ ih => exact .cons rfl (.cons rfl ih)

theorem Dotted.balanced {tokens : List Token} {type : TypeName Unit} (h : Dotted tokens type) :
    Balanced tokens := by
  cases h with
  | mk rest => exact .cons rfl rest.balanced

theorem Separated.balanced {parts : List (List Token)} {tokens : List Token}
    (h : Separated parts tokens) (each : ∀ part ∈ parts, Balanced part) : Balanced tokens := by
  induction h with
  | nil => exact .nil
  | one tokens => exact each tokens (List.mem_singleton.mpr rfl)
  | cons _ ih =>
    obtain ⟨first, others⟩ := List.forall_mem_cons.mp each
    exact first.append (.cons rfl (ih others))

theorem balanced_args {args : List (List Token × Parsed)} {inner : List Token}
    (each : ∀ arg ∈ args, Balanced arg.1) (separated : Separated (args.map Prod.fst) inner) :
    Balanced inner :=
  separated.balanced (List.forall_mem_map.mpr each)

theorem assignments_plain : ∀ pair ∈ assignments, (Lexeme.symbol pair.1).isPlain = true := by
  decide

theorem unaryOperators_plain : ∀ pair ∈ unaryOperators, (Lexeme.symbol pair.1).isPlain = true := by
  decide

theorem IsLiteral.plain {lexeme : Lexeme} (h : IsLiteral lexeme) : lexeme.isPlain = true := by
  cases h <;> rfl

/-- **An expression closes just the parentheses that it opens.** -/
theorem Derives.balanced {phrase : Phrase} {tokens : List Token} {v : Parsed}
    (h : Derives phrase tokens v) : Balanced tokens := by
  induction h with
  | unassigned _ ih | unconditional _ ih | tighter _ ih | operand _ ih | unadorned _ ih
  | unsuffixed _ ih => exact ih
  | assign _ isMark _ ih ih' => exact ih.append (.cons (assignments_plain _ isMark) ih')
  | conditional _ _ _ ih ih' ih'' =>
    exact ih.append (.cons rfl (ih'.append (.cons rfl ih'')))
  | binary _ _ _ ih ih' | logical _ _ _ ih ih' =>
    exact ih.append (.cons rfl ih')
  | instanceOf _ named ih => exact ih.append (.cons rfl named.balanced)
  | unary isMark _ ih => exact .cons (unaryOperators_plain _ isMark) ih
  | stepBefore _ ih | castReference _ ih => exact .cons rfl ih
  | castPrimitive _ ih =>
    exact @Balanced.enclosed [_] _ _ _ (.singleton rfl) ih
  | field _ ih => exact ih.append (.cons rfl (.singleton rfl))
  | methodCall _ _ separated ih ih' =>
    have inside := balanced_args ih' separated
    exact ih.append (.cons rfl (.cons rfl (.enclosed inside .nil)))
  | index _ _ ih ih' => exact ih.append (.cons rfl (ih'.append (.singleton rfl)))
  | stepBehind _ ih => exact ih.append (.singleton rfl)
  | literal isLiteral => exact .singleton isLiteral.plain
  | name => exact .singleton rfl
  | call _ separated ih =>
    exact .cons rfl (.enclosed (balanced_args ih separated) .nil)
  | parentheses _ ih => exact .enclosed ih .nil
  | new named _ separated ih =>
    exact .cons rfl (named.balanced.append (.enclosed (balanced_args ih separated) .nil))

end Grammar

/-! ### Folding -/

namespace Fold

open Formulary.Parser (isLiteral)

theorem balanced_dottedRest (tokens : List Token) : Balanced (dottedRest tokens).1 := by
  induction tokens using dottedRest.induct with
  | case1 dot part rest text isPart isDot parts after same ih =>
    rw [dottedRest]
    simp only [isPart, isDot]
    exact .cons (by rw [isDot]; rfl) (.cons (by rw [isPart]; rfl) ih)
  | case2 dot part rest other =>
    rw [dottedRest]
    split
    · next isDot isPart => exact (other _ isDot isPart).elim
    · exact .nil
  | case3 rest other =>
    rw [dottedRest.eq_2 rest other]
    exact .nil

theorem noLiteral_dottedRest (tokens : List Token) :
    ∀ token ∈ (dottedRest tokens).1, isLiteral token.lexeme = false := by
  induction tokens using dottedRest.induct with
  | case1 dot part rest text isPart isDot parts after same ih =>
    rw [dottedRest]
    simp only [isPart, isDot]
    refine List.forall_mem_cons.mpr ⟨by rw [isDot]; rfl, ?_⟩
    exact List.forall_mem_cons.mpr ⟨by rw [isPart]; rfl, ih⟩
  | case2 dot part rest other =>
    rw [dottedRest]
    split
    · next isDot isPart => exact (other _ isDot isPart).elim
    · exact List.forall_mem_nil _
  | case3 rest other =>
    rw [dottedRest.eq_2 rest other]
    exact List.forall_mem_nil _

/-- Tokens that are folded into one: their parentheses nest, and there is no literal among them,
nor is the folded one a parenthesis or a literal. -/
structure Folds (front : List Token) (folded : Token) : Prop where
  some : front ≠ []
  balanced : Balanced front
  plain : folded.lexeme.isPlain = true
  noLiteral : ∀ token ∈ folded :: front, isLiteral token.lexeme = false

theorem dottedName_parts {tokens parts after : List Token}
    (h : dottedName? tokens = some (parts, after)) : parts ≠ [] ∧ Balanced parts ∧
      (∀ token ∈ parts, isLiteral token.lexeme = false) ∧ tokens = parts ++ after := by
  obtain ⟨first, text, rest, rfl, isFirst, rfl, isRest⟩ := dottedName_split h
  have others := balanced_dottedRest (rest ++ after)
  have noLiteral := noLiteral_dottedRest (rest ++ after)
  rw [isRest] at others noLiteral
  exact ⟨List.cons_ne_nil _ _, .cons (by rw [isFirst]; rfl) others,
    List.forall_mem_cons.mpr ⟨by rw [isFirst]; rfl, noLiteral⟩, rfl⟩

/-- The tokens that a cast folds. -/
theorem castAt_folds {previous : Option Token} {tokens : List Token} {folded : Token} {count : Nat}
    (h : castAt? previous tokens = some (folded, count)) :
    ∃ front back, tokens = front ++ back ∧ front.length = count ∧ Folds front folded := by
  unfold castAt? at h
  split at h
  · cases h
  · next paren rest =>
    split at h
    · next opens =>
      split at h
      · next parts closing operand more named =>
        split at h
        · next closes =>
          simp only [Bool.and_eq_true, decide_eq_true_eq] at opens closes
          obtain ⟨first, -, same⟩ := Option.map_eq_some_iff.mp h
          obtain ⟨rfl, rfl⟩ := Prod.mk.inj same
          obtain ⟨-, balanced, noLiteral, rfl⟩ := dottedName_parts named
          obtain ⟨_, p⟩ := paren
          obtain rfl := opens.1
          obtain ⟨_, q⟩ := closing
          obtain rfl := closes.1
          refine ⟨⟨.symbol .leftParen, p⟩ :: (parts ++ [⟨.symbol .rightParen, q⟩]),
            operand :: more, by simp, by simp, ?_⟩
          refine ⟨List.cons_ne_nil _ _, balanced.enclosed .nil, rfl, ?_⟩
          simpa [isLiteral, or_imp, forall_and] using noLiteral
        · cases h
      · cases h
    · cases h

/-- The tokens that the type of a declaration folds. -/
theorem declaredAt_folds {tokens : List Token} {folded : Token} {count : Nat}
    (h : declaredAt? tokens = some (folded, count)) :
    ∃ front back, tokens = front ++ back ∧ front.length = count ∧ Folds front folded := by
  unfold declaredAt? at h
  split at h
  · next parts next more named =>
    split at h
    · obtain ⟨first, -, same⟩ := Option.map_eq_some_iff.mp h
      obtain ⟨rfl, rfl⟩ := Prod.mk.inj same
      obtain ⟨some, balanced, noLiteral, rfl⟩ := dottedName_parts named
      exact ⟨parts, next :: more, rfl, rfl, some, balanced, rfl,
        List.forall_mem_cons.mpr ⟨rfl, noLiteral⟩⟩
    · cases h
  · cases h

/-- The tokens that are folded into one. -/
theorem found_folds {previous : Option Token} {tokens : List Token} {folded : Token} {count : Nat}
    (h : (castAt? previous tokens <|> declaredAt? tokens) = some (folded, count)) :
    ∃ front back, tokens = front ++ back ∧ front.length = count ∧ Folds front folded := by
  rw [Option.orElse_eq_orElse, Option.orElse_eq_or, Option.or_eq_some_iff] at h
  rcases h with cast | ⟨-, declared⟩
  · exact castAt_folds cast
  · exact declaredAt_folds declared

/-- **Folding type names does not change how parentheses nest.** -/
theorem openBehind_fold (opened skip : Nat) (previous : Option Token) (tokens : List Token) :
    openBehind opened (foldFrom skip previous tokens) = openBehind opened (tokens.drop skip) := by
  induction tokens generalizing opened skip previous with
  | nil => cases skip <;> rfl
  | cons token rest ih =>
    cases skip with
    | succ skip => exact ih opened skip (some token)
    | zero =>
      rw [foldFrom]
      split
      · next folded count found =>
        obtain ⟨front, back, same, isCount, folds⟩ := found_folds found
        obtain ⟨first, front, rfl⟩ := List.exists_cons_of_ne_nil folds.some
        rw [List.cons_append] at same
        obtain ⟨rfl, rfl⟩ := List.cons.inj same
        have behind : (front ++ back).drop (count - 1) = back := by
          rw [← isCount, List.length_cons, Nat.add_sub_cancel, List.drop_left]
        rw [openBehind_cons, Lexeme.openBehind_plain folds.plain, Option.bind_some, ih, behind,
          List.drop_zero, ← List.cons_append, openBehind_append, folds.balanced opened,
          Option.bind_some]
      · rw [openBehind_cons, List.drop_zero, openBehind_cons]
        congr 1
        funext opened
        exact ih opened 0 (some token)

theorem nested_fold {tokens : List Token} : Nested (fold tokens) ↔ Nested tokens := by
  rw [Nested, Nested, fold, openBehind_fold]
  rfl

end Fold

end Formulary
