/-
Printed expressions are derived again.

Parentheses make a primary of any expression, and an expression that is tight enough for its
place is derived there as it is, so that every printed expression is derived as itself, as far as
positions go.

* `Derives.loosen` — what is derived as a tight phrase is derived as every looser one.
* `Denotes` — lexemes that derive an expression wherever they stand.
* `bare_denotes` — the lexemes of an expression do.
-/

import Formulary.Proofs.Positions
import Formulary.Proofs.PrintedFolding

namespace Formulary.Grammar

open Printing (tightness)

/-! ### Looser phrases -/

/-- Whether a phrase is one of the levels of expressions. -/
def Phrase.IsLevel (phrase : Phrase) : Prop :=
  ∀ level, phrase = .infixes level → 1 ≤ level ∧ level ≤ operandLevel

/-- Whether a phrase is one of the levels, the one beside the tightest operators left out. -/
def Phrase.IsProper (phrase : Phrase) : Prop :=
  ∀ level, phrase = .infixes level → 1 ≤ level ∧ level < operandLevel

theorem Derives.unary_of {phrase : Phrase} {tokens : List Token} {v : Parsed}
    (h : Derives phrase tokens v) (le : operandLevel + 1 ≤ tightness phrase)
    (isProper : phrase.IsProper) : Derives .unary tokens v := by
  cases phrase with
  | expression | conditional => simp [tightness, operandLevel] at le
  | infixes level =>
    have under := (isProper level rfl).2
    simp only [tightness] at le
    omega
  | unary => exact h
  | suffixed => exact .unadorned h
  | primary => exact .unadorned (.unsuffixed h)

theorem Derives.infixes_of {phrase : Phrase} {tokens : List Token} {v : Parsed} {level : Nat}
    (h : Derives phrase tokens v) (le : level + 1 ≤ tightness phrase) (positive : 1 ≤ level)
    (under : level ≤ operandLevel) (isProper : phrase.IsProper) :
    Derives (.infixes level) tokens v := by
  by_cases tight : operandLevel + 1 ≤ tightness phrase
  · exact (Derives.operand (h.unary_of tight isProper)).lower under
  · cases phrase with
    | expression | conditional =>
      simp only [tightness] at le
      omega
    | infixes other =>
      simp only [tightness] at le
      exact h.lower (by omega)
    | unary | suffixed | primary => simp [tightness] at tight

theorem Derives.conditional_of {phrase : Phrase} {tokens : List Token} {v : Parsed}
    (h : Derives phrase tokens v) (le : 1 ≤ tightness phrase) (isProper : phrase.IsProper) :
    Derives .conditional tokens v := by
  by_cases conditional : phrase = .conditional
  · rwa [conditional] at h
  · refine .unconditional (h.infixes_of ?_ (Nat.le_refl 1) (by decide) isProper)
    cases phrase with
    | expression => simp [tightness] at le
    | conditional => exact absurd rfl conditional
    | infixes level =>
      have positive := (isProper level rfl).1
      simp only [tightness]
      omega
    | unary | suffixed | primary => simp only [tightness, operandLevel]; omega

/-- What is derived as a tight phrase is derived as every looser one. -/
theorem Derives.loosen {phrase looser : Phrase} {tokens : List Token} {v : Parsed}
    (h : Derives phrase tokens v) (le : tightness looser ≤ tightness phrase)
    (isProper : phrase.IsProper) (isLevel : looser.IsLevel) : Derives looser tokens v := by
  cases looser with
  | expression =>
    by_cases expression : phrase = .expression
    · rwa [expression] at h
    · refine .unassigned (h.conditional_of ?_ isProper)
      cases phrase with
      | expression => exact absurd rfl expression
      | _ => simp [tightness]
  | conditional => exact h.conditional_of le isProper
  | infixes level =>
    obtain ⟨positive, under⟩ := isLevel level rfl
    exact h.infixes_of le positive under isProper
  | unary => exact h.unary_of le isProper
  | suffixed =>
    cases phrase with
    | suffixed => exact h
    | primary => exact .unsuffixed h
    | infixes level =>
      have under := (isProper level rfl).2
      simp only [tightness] at le
      omega
    | _ => simp [tightness] at le
  | primary =>
    cases phrase with
    | primary => exact h
    | infixes level =>
      have under := (isProper level rfl).2
      simp only [tightness] at le
      omega
    | _ => simp [tightness] at le

end Formulary.Grammar

namespace Formulary.Printing

open Grammar

/-! ### Lexemes that derive an expression -/

theorem phraseOf_isProper {α τ : Type} (e : Expr α τ) : (phraseOf e).IsProper := by
  intro level same
  cases e with
  | binary p op => cases op <;> cases same <;> decide
  | logical p op => cases op <;> cases same <;> decide
  | step p op target before => cases before <;> cases same
  | instanceOf =>
    cases same
    decide
  | _ => cases same

/-- An expression that is another one but for the positions, its literals being spelled. -/
def Resembles (source : SourceExpr) (e : PrintedExpr) : Prop :=
  source.unplaced id = e.unplaced Spelled.lexeme

/-- Lexemes that derive an expression as a phrase wherever they stand. -/
def Denotes (phrase : Phrase) (lexemes : List Lexeme) (e : PrintedExpr) : Prop :=
  ∀ tokens, tokens.map Token.lexeme = lexemes →
    ∃ v, Derives phrase tokens v ∧ Resembles v.expr e

theorem denotes_loosen {phrase looser : Phrase} {lexemes : List Lexeme} {e : PrintedExpr}
    (h : Denotes phrase lexemes e) (le : tightness looser ≤ tightness phrase)
    (isProper : phrase.IsProper) (isLevel : looser.IsLevel) : Denotes looser lexemes e := by
  intro tokens same
  obtain ⟨v, derived, resembles⟩ := h tokens same
  exact ⟨v, derived.loosen le isProper isLevel, resembles⟩

theorem denotes_parenthesized {inner : List Lexeme} {e : PrintedExpr}
    (h : Denotes .expression inner e) : Denotes .primary (parenthesized inner) e := by
  intro tokens same
  obtain ⟨⟨_, p⟩, tokens, rfl, rfl, same'⟩ := List.map_eq_cons_iff.mp same
  obtain ⟨inside, last, rfl, isInner, isLast⟩ := List.map_eq_append_iff.mp same'
  obtain ⟨⟨_, q⟩, rest, rfl, rfl, none⟩ := List.map_eq_cons_iff.mp isLast
  obtain rfl := List.map_eq_nil_iff.mp none
  obtain ⟨v, derived, resembles⟩ := h inside isInner
  exact ⟨v, .parentheses derived, resembles⟩

/-- In its place an expression is derived, in parentheses or without. -/
theorem denotes_within {phrase : Phrase} {e : PrintedExpr} (isLevel : phrase.IsLevel)
    (h : Denotes (phraseOf e) (bare e) e) : Denotes phrase (within phrase e (bare e)) e := by
  have anywhere : Denotes .expression (bare e) e :=
    denotes_loosen h (Nat.zero_le _) (phraseOf_isProper e) (fun _ same => nomatch same)
  unfold within
  split
  · refine denotes_loosen (denotes_parenthesized anywhere) ?_ (fun _ same => nomatch same) isLevel
    cases phrase with
    | infixes level =>
      have under := (isLevel level rfl).2
      simp only [tightness]
      omega
    | _ => simp [tightness]
  · next tight => exact denotes_loosen h (Nat.not_lt.mp tight) (phraseOf_isProper e) isLevel

theorem denotes_expression {e : PrintedExpr} (h : Denotes (phraseOf e) (bare e) e) :
    Denotes .expression (bare e) e :=
  denotes_loosen h (Nat.zero_le _) (phraseOf_isProper e) (fun _ same => nomatch same)

/-! ### Names and lists -/

theorem dottedRest_derived {names : List String} {tokens : List Token}
    (same : tokens.map Token.lexeme = names.flatMap fun name => [.symbol .dot, .name name]) :
    ∃ tail, DottedRest tokens tail ∧
      tail.toList = names.flatMap fun name => '.' :: name.toList := by
  induction names generalizing tokens with
  | nil =>
    obtain rfl := List.map_eq_nil_iff.mp same
    exact ⟨"", .nil, rfl⟩
  | cons name names ih =>
    obtain ⟨⟨_, p⟩, tokens, rfl, rfl, isPart⟩ := List.map_eq_cons_iff.mp same
    obtain ⟨⟨_, q⟩, tokens, rfl, rfl, isRest⟩ := List.map_eq_cons_iff.mp isPart
    obtain ⟨tail, derived, text⟩ := ih isRest
    exact ⟨"." ++ name ++ tail, .cons derived, by simp [text]⟩

/-- The lexemes of a type name derive it. -/
theorem dotted_derived {name : String} {tokens : List Token}
    (same : tokens.map Token.lexeme = dotted (nameParts name)) :
    ∃ p, Dotted tokens ⟨p, name, ()⟩ := by
  have chars := Fold.dotted_chars name
  obtain ⟨first, names, split⟩ := List.exists_cons_of_ne_nil (Fold.nameParts_some name)
  rw [split] at same chars
  obtain ⟨⟨_, p⟩, tokens, rfl, rfl, isRest⟩ := List.map_eq_cons_iff.mp same
  obtain ⟨tail, derived, text⟩ := dottedRest_derived isRest
  have whole : first ++ tail = name := by
    apply String.toList_injective
    rw [← chars]
    simp [dotted, Lexeme.chars, Symbol.text, text, List.flatMap_assoc]
  exact ⟨p, whole ▸ .mk derived⟩

/-- Lexemes that derive expressions with commas between them. -/
def DenoteAll (lexemes : List Lexeme) (es : List PrintedExpr) : Prop :=
  ∀ tokens, tokens.map Token.lexeme = lexemes → ∃ args : List (List Token × Parsed),
    (∀ arg ∈ args, Derives .expression arg.1 arg.2) ∧ Separated (args.map Prod.fst) tokens ∧
    Expr.allUnplaced id (args.map (·.2.expr)) = Expr.allUnplaced Spelled.lexeme es

/-- Arguments and the parentheses around them. -/
theorem denoteAll_parenthesized {lexemes : List Lexeme} {es : List PrintedExpr}
    (h : DenoteAll lexemes es) {tokens : List Token}
    (same : tokens.map Token.lexeme = parenthesized lexemes) :
    ∃ p q inner, ∃ args : List (List Token × Parsed),
      tokens = ⟨.symbol .leftParen, p⟩ :: (inner ++ [⟨.symbol .rightParen, q⟩]) ∧
      (∀ arg ∈ args, Derives .expression arg.1 arg.2) ∧ Separated (args.map Prod.fst) inner ∧
      Expr.allUnplaced id (args.map (·.2.expr)) = Expr.allUnplaced Spelled.lexeme es := by
  obtain ⟨⟨_, p⟩, tokens, rfl, rfl, same'⟩ := List.map_eq_cons_iff.mp same
  obtain ⟨inner, last, rfl, isInner, isLast⟩ := List.map_eq_append_iff.mp same'
  obtain ⟨⟨_, q⟩, rest, rfl, rfl, none⟩ := List.map_eq_cons_iff.mp isLast
  obtain rfl := List.map_eq_nil_iff.mp none
  obtain ⟨args, derived, separated, resemble⟩ := h inner isInner
  exact ⟨p, q, inner, args, rfl, derived, separated, resemble⟩

theorem denoteAll_cons {e : PrintedExpr} {lexemes others : List Lexeme} {es : List PrintedExpr}
    (h : Denotes .expression lexemes e) (h' : DenoteAll others es) (some : es ≠ []) :
    DenoteAll (lexemes ++ .symbol .comma :: others) (e :: es) := by
  intro tokens same
  obtain ⟨first, rest, rfl, isFirst, isRest⟩ := List.map_eq_append_iff.mp same
  obtain ⟨⟨_, p⟩, rest, rfl, rfl, isOthers⟩ := List.map_eq_cons_iff.mp isRest
  obtain ⟨v, derived, resembles⟩ := h first isFirst
  obtain ⟨args, derived', separated, resemble⟩ := h' rest isOthers
  refine ⟨(first, v) :: args, ?_, ?_, ?_⟩
  · intro arg isIn
    rcases List.mem_cons.mp isIn with rfl | isIn
    · exact derived
    · exact derived' arg isIn
  · cases args with
    | nil =>
      cases es with
      | nil => exact absurd rfl some
      | cons => cases resemble
    | cons second args => exact .cons separated
  · rw [List.map_cons, Expr.allUnplaced, Expr.allUnplaced, resembles, resemble]

/-! ### Expressions -/

section Expressions

variable {p : Position} {left right lexemes : List Lexeme} {e a b : PrintedExpr}

/-- An expression, a lexeme behind it and what follows that. -/
theorem denotes_infix {phrase whole : Phrase} {lexeme : Lexeme} {whole_ : PrintedExpr}
    {back : List Lexeme} (h : Denotes phrase left a)
    (h' : ∀ (tokens : List Token) (v : Parsed) (p : Position) (more : List Token),
      Derives phrase tokens v → Resembles v.expr a → more.map Token.lexeme = back →
      ∃ joined, Derives whole (tokens ++ ⟨lexeme, p⟩ :: more) joined ∧
        Resembles joined.expr whole_) : Denotes whole (left ++ lexeme :: back) whole_ := by
  intro tokens same
  obtain ⟨first, rest, rfl, isFirst, isRest⟩ := List.map_eq_append_iff.mp same
  obtain ⟨⟨_, p⟩, rest, rfl, rfl, isBack⟩ := List.map_eq_cons_iff.mp isRest
  obtain ⟨v, derived, resembles⟩ := h first isFirst
  exact h' first v p rest derived resembles isBack

theorem denotes_binary {op : BinaryOp} (h : Denotes (.infixes (Parser.binaryLevel op)) left a)
    (h' : Denotes (.infixes (Parser.binaryLevel op + 1)) right b) :
    Denotes (.infixes (Parser.binaryLevel op)) (left ++ .symbol (.binary op) :: right)
      (.binary p op a b) := by
  refine denotes_infix h fun tokens v q more derived resembles isRight => ?_
  obtain ⟨w, derived', resembles'⟩ := h' more isRight
  refine ⟨_, .binary derived (by cases op <;> decide) derived', ?_⟩
  simp only [Resembles, Expr.unplaced] at resembles resembles' ⊢
  rw [resembles, resembles']

theorem denotes_logical {op : LogicalOp} (h : Denotes (.infixes (logicalLevel op)) left a)
    (h' : Denotes (.infixes (logicalLevel op + 1)) right b) :
    Denotes (.infixes (logicalLevel op)) (left ++ .symbol (.logical op) :: right)
      (.logical p op a b) := by
  refine denotes_infix h fun tokens v q more derived resembles isRight => ?_
  obtain ⟨w, derived', resembles'⟩ := h' more isRight
  refine ⟨_, .logical derived (by cases op <;> decide) derived', ?_⟩
  simp only [Resembles, Expr.unplaced] at resembles resembles' ⊢
  rw [resembles, resembles']

theorem denotes_assign {op : Option BinaryOp}
    (isOp : ∀ compound ∈ op, compound ∈ Symbol.compoundOps)
    (h : Denotes .unary left a) (h' : Denotes .expression right b) :
    Denotes .expression (left ++ .symbol (assignMark op) :: right) (.assign p op a b) := by
  have listed : (assignMark op, op) ∈ assignments := by
    cases op with
    | none => exact List.mem_cons_self
    | some op => exact List.mem_cons_of_mem _ (List.mem_map_of_mem (isOp op rfl))
  refine denotes_infix h fun tokens v q more derived resembles isRight => ?_
  obtain ⟨w, derived', resembles'⟩ := h' more isRight
  refine ⟨_, .assign derived listed derived', ?_⟩
  simp only [Resembles, Expr.unplaced] at resembles resembles' ⊢
  rw [resembles, resembles']

theorem denotes_conditional {third : List Lexeme} {c : PrintedExpr}
    (h : Denotes (.infixes 1) left a) (h' : Denotes .expression right b)
    (h'' : Denotes .conditional third c) :
    Denotes .conditional (left ++ .symbol .question :: (right ++ .symbol .colon :: third))
      (.conditional p a b c) := by
  refine denotes_infix h fun tokens v q more derived resembles isMore => ?_
  obtain ⟨second, rest, rfl, isSecond, isRest⟩ := List.map_eq_append_iff.mp isMore
  obtain ⟨⟨_, r⟩, rest, rfl, rfl, isThird⟩ := List.map_eq_cons_iff.mp isRest
  obtain ⟨w, derived', resembles'⟩ := h' second isSecond
  obtain ⟨x, derived'', resembles''⟩ := h'' rest isThird
  refine ⟨_, .conditional derived derived' derived'', ?_⟩
  simp only [Resembles, Expr.unplaced] at resembles resembles' resembles'' ⊢
  rw [resembles, resembles', resembles'']

theorem denotes_instanceOf {type : TypeName Unit} (h : Denotes (.infixes comparison) left a) :
    Denotes (.infixes comparison)
      (left ++ .keyword .instanceofWord :: dotted (nameParts type.name))
      (.instanceOf p a type) := by
  refine denotes_infix h fun tokens v q more derived resembles isType => ?_
  obtain ⟨r, named⟩ := dotted_derived isType
  refine ⟨_, .instanceOf derived named, ?_⟩
  simp only [Resembles, Expr.unplaced, Expr.unplacedType] at resembles ⊢
  rw [resembles]

/-- A lexeme in front of an operand. -/
theorem denotes_before {whole_ : PrintedExpr} {lexeme : Lexeme} (h : Denotes .unary lexemes e)
    (h' : ∀ (tokens : List Token) (v : Parsed) (p : Position), Derives .unary tokens v →
      Resembles v.expr e →
      ∃ joined, Derives .unary (⟨lexeme, p⟩ :: tokens) joined ∧ Resembles joined.expr whole_) :
    Denotes .unary (lexeme :: lexemes) whole_ := by
  intro tokens same
  obtain ⟨⟨_, q⟩, tokens, rfl, rfl, isOperand⟩ := List.map_eq_cons_iff.mp same
  obtain ⟨v, derived, resembles⟩ := h tokens isOperand
  exact h' tokens v q derived resembles

theorem denotes_unary {op : UnaryOp} (h : Denotes .unary lexemes e) :
    Denotes .unary (.symbol (unaryMark op) :: lexemes) (.unary p op e) := by
  have listed : (unaryMark op, op) ∈ unaryOperators := by cases op <;> decide
  refine denotes_before h fun tokens v q derived resembles => ⟨_, .unary listed derived, ?_⟩
  simp only [Resembles, Expr.unplaced] at resembles ⊢
  rw [resembles]

theorem denotes_stepBefore {op : StepOp} (h : Denotes .unary lexemes e) :
    Denotes .unary (.symbol (.step op) :: lexemes) (.step p op e true) := by
  refine denotes_before h fun tokens v q derived resembles => ⟨_, .stepBefore derived, ?_⟩
  simp only [Resembles, Expr.unplaced] at resembles ⊢
  rw [resembles]

theorem denotes_castReference {type : TypeName Unit} (h : Denotes .unary lexemes e) :
    Denotes .unary (.castType type.name :: lexemes) (.cast p type e) := by
  refine denotes_before h fun tokens v q derived resembles => ⟨_, .castReference derived, ?_⟩
  simp only [Resembles, Expr.unplaced, Expr.unplacedType] at resembles ⊢
  rw [resembles]

theorem denotes_castPrimitive {type : TypeName Unit} {primitive : Primitive}
    (named : primitive.name = type.name) (h : Denotes .unary lexemes e) :
    Denotes .unary (parenthesized [.keyword (.primitive primitive)] ++ lexemes)
      (.cast p type e) := by
  intro tokens same
  obtain ⟨⟨_, q⟩, tokens, rfl, rfl, isWord⟩ := List.map_eq_cons_iff.mp same
  obtain ⟨⟨_, r⟩, tokens, rfl, rfl, isClosing⟩ := List.map_eq_cons_iff.mp isWord
  obtain ⟨⟨_, s⟩, tokens, rfl, rfl, isOperand⟩ := List.map_eq_cons_iff.mp isClosing
  obtain ⟨v, derived, resembles⟩ := h tokens isOperand
  refine ⟨_, .castPrimitive derived, ?_⟩
  simp only [Resembles, Expr.unplaced, Expr.unplacedType, named] at resembles ⊢
  rw [resembles]

theorem denotes_field {member : String} (h : Denotes .suffixed lexemes e) :
    Denotes .suffixed (lexemes ++ [.symbol .dot, .name member]) (.field p e member) := by
  refine denotes_infix h fun tokens v q more derived resembles isMember => ?_
  obtain ⟨⟨_, r⟩, rest, rfl, rfl, none⟩ := List.map_eq_cons_iff.mp isMember
  obtain rfl := List.map_eq_nil_iff.mp none
  refine ⟨_, .field derived, ?_⟩
  simp only [Resembles, Expr.unplaced] at resembles ⊢
  rw [resembles]

theorem denotes_methodCall {method : String} {inner : List Lexeme} {args : List PrintedExpr}
    (h : Denotes .suffixed lexemes e) (h' : DenoteAll inner args) :
    Denotes .suffixed (lexemes ++ .symbol .dot :: .name method :: parenthesized inner)
      (.methodCall p e method args) := by
  refine denotes_infix h fun tokens v q more derived resembles isMethod => ?_
  obtain ⟨⟨_, r⟩, rest, rfl, rfl, isArgs⟩ := List.map_eq_cons_iff.mp isMethod
  obtain ⟨s, t, inside, values, rfl, derived', separated, resemble⟩ :=
    denoteAll_parenthesized h' isArgs
  refine ⟨_, .methodCall derived derived' separated, ?_⟩
  simp only [Resembles, Expr.unplaced] at resembles ⊢
  rw [resembles, resemble]

theorem denotes_index (h : Denotes .suffixed left a) (h' : Denotes .expression right b) :
    Denotes .suffixed (left ++ .symbol .leftBracket :: (right ++ [.symbol .rightBracket]))
      (.index p a b) := by
  refine denotes_infix h fun tokens v q more derived resembles isPlace => ?_
  obtain ⟨inner, last, rfl, isInner, isLast⟩ := List.map_eq_append_iff.mp isPlace
  obtain ⟨⟨_, r⟩, rest, rfl, rfl, none⟩ := List.map_eq_cons_iff.mp isLast
  obtain rfl := List.map_eq_nil_iff.mp none
  obtain ⟨w, derived', resembles'⟩ := h' inner isInner
  refine ⟨_, .index derived derived', ?_⟩
  simp only [Resembles, Expr.unplaced] at resembles resembles' ⊢
  rw [resembles, resembles']

theorem denotes_stepBehind {op : StepOp} (h : Denotes .suffixed lexemes e) :
    Denotes .suffixed (lexemes ++ [.symbol (.step op)]) (.step p op e false) := by
  refine denotes_infix h fun tokens v q more derived resembles none => ?_
  obtain rfl := List.map_eq_nil_iff.mp none
  refine ⟨_, .stepBehind derived, ?_⟩
  simp only [Resembles, Expr.unplaced] at resembles ⊢
  rw [resembles]

theorem spells_literal {lexeme : Lexeme} {value : Value} (h : Spells lexeme value) :
    IsLiteral lexeme := by
  cases h <;> constructor

theorem denotes_literal {literal : Spelled} :
    Denotes .primary [literal.lexeme] (.literal p literal) := by
  intro tokens same
  obtain ⟨⟨_, q⟩, rest, rfl, rfl, none⟩ := List.map_eq_cons_iff.mp same
  obtain rfl := List.map_eq_nil_iff.mp none
  exact ⟨_, .literal (spells_literal literal.spells), rfl⟩

theorem denotes_name {ident : String} : Denotes .primary [.name ident] (.name p ident) := by
  intro tokens same
  obtain ⟨⟨_, q⟩, rest, rfl, rfl, none⟩ := List.map_eq_cons_iff.mp same
  obtain rfl := List.map_eq_nil_iff.mp none
  exact ⟨_, .name, rfl⟩

theorem denotes_call {callee : TypeName Unit} {inner : List Lexeme} {args : List PrintedExpr}
    (h : DenoteAll inner args) :
    Denotes .primary (.name callee.name :: parenthesized inner) (.call p callee args) := by
  intro tokens same
  obtain ⟨⟨_, q⟩, rest, rfl, rfl, isArgs⟩ := List.map_eq_cons_iff.mp same
  obtain ⟨r, s, inside, values, rfl, derived, separated, resemble⟩ :=
    denoteAll_parenthesized h isArgs
  refine ⟨_, .call derived separated, ?_⟩
  simp only [Resembles, Expr.unplaced, Expr.unplacedType]
  rw [resemble]

theorem denotes_new {type : TypeName Unit} {inner : List Lexeme} {args : List PrintedExpr}
    (h : DenoteAll inner args) :
    Denotes .primary
      (.keyword .newWord :: (dotted (nameParts type.name) ++ parenthesized inner))
      (.new p type args) := by
  intro tokens same
  obtain ⟨⟨_, q⟩, rest, rfl, rfl, isType⟩ := List.map_eq_cons_iff.mp same
  obtain ⟨name, rest, rfl, isName, isArgs⟩ := List.map_eq_append_iff.mp isType
  obtain ⟨r, named⟩ := dotted_derived isName
  obtain ⟨s, t, inside, values, rfl, derived, separated, resemble⟩ :=
    denoteAll_parenthesized h isArgs
  refine ⟨_, .new named derived separated, ?_⟩
  simp only [Resembles, Expr.unplaced, Expr.unplacedType]
  rw [resemble]

theorem denotes_guarded (h : Denotes .unary lexemes e) (h' : Denotes .expression lexemes e) :
    Denotes .unary (guarded lexemes) e := by
  unfold guarded
  split
  · exact denotes_loosen (denotes_parenthesized h') (by decide) (fun _ same => nomatch same)
      (fun _ same => nomatch same)
  · exact h

theorem denoteAll_nil : DenoteAll [] [] := by
  intro tokens same
  obtain rfl := List.map_eq_nil_iff.mp same
  exact ⟨[], fun _ isIn => (nomatch isIn), .nil, rfl⟩

theorem denoteAll_one (h : Denotes .expression lexemes e) : DenoteAll lexemes [e] := by
  intro tokens same
  obtain ⟨v, derived, resembles⟩ := h tokens same
  refine ⟨[(tokens, v)], ?_, .one tokens, ?_⟩
  · intro arg isIn
    rw [List.mem_singleton] at isIn
    rwa [isIn]
  · exact congrArg (· :: []) resembles

end Expressions

theorem binary_isLevel (op : BinaryOp) : Phrase.IsLevel (.infixes (Parser.binaryLevel op)) ∧
    Phrase.IsLevel (.infixes (Parser.binaryLevel op + 1)) := by
  constructor <;> intro level same <;> cases op <;> cases same <;> decide

theorem logical_isLevel (op : LogicalOp) : Phrase.IsLevel (.infixes (logicalLevel op)) ∧
    Phrase.IsLevel (.infixes (logicalLevel op + 1)) := by
  constructor <;> intro level same <;> cases op <;> cases same <;> decide

mutual

/-- **Printed expressions.** The lexemes of an expression derive it. -/
theorem bare_denotes : ∀ e : PrintedExpr, Printable e → Denotes (phraseOf e) (bare e) e
  | .literal .., _ => denotes_literal
  | .name .., _ => denotes_name
  | .typeName .., printable => printable.elim
  | .field _ receiver _, ⟨printable, _⟩ =>
    denotes_field (denotes_within (fun _ same => nomatch same) (bare_denotes receiver printable))
  | .methodCall _ receiver _ args, ⟨printable, _, printable'⟩ =>
    denotes_methodCall
      (denotes_within (fun _ same => nomatch same) (bare_denotes receiver printable))
      (bareAll_denotes args printable')
  | .call _ _ args, ⟨_, printable⟩ => denotes_call (bareAll_denotes args printable)
  | .index _ container place, ⟨printable, printable'⟩ =>
    denotes_index (denotes_within (fun _ same => nomatch same) (bare_denotes container printable))
      (denotes_expression (bare_denotes place printable'))
  | .unary _ _ operand, printable =>
    denotes_unary (denotes_within (fun _ same => nomatch same) (bare_denotes operand printable))
  | .step _ _ target true, printable =>
    denotes_stepBefore (denotes_within (fun _ same => nomatch same) (bare_denotes target printable))
  | .step _ _ target false, printable =>
    denotes_stepBehind (denotes_within (fun _ same => nomatch same) (bare_denotes target printable))
  | .binary _ op left right, ⟨printable, printable'⟩ =>
    denotes_binary (denotes_within (binary_isLevel op).1 (bare_denotes left printable))
      (denotes_within (binary_isLevel op).2 (bare_denotes right printable'))
  | .logical _ op left right, ⟨printable, printable'⟩ =>
    denotes_logical (denotes_within (logical_isLevel op).1 (bare_denotes left printable))
      (denotes_within (logical_isLevel op).2 (bare_denotes right printable'))
  | .conditional _ condition thenValue elseValue, ⟨printable, printable', printable''⟩ => by
    have lowest : Phrase.IsLevel (.infixes 1) := (logical_isLevel .or).1
    exact denotes_conditional (denotes_within lowest (bare_denotes condition printable))
      (denotes_expression (bare_denotes thenValue printable'))
      (denotes_within (fun _ same => nomatch same) (bare_denotes elseValue printable''))
  | .assign _ op target value, ⟨isOp, printable, printable'⟩ =>
    denotes_assign isOp
      (denotes_within (fun _ same => nomatch same) (bare_denotes target printable))
      (denotes_expression (bare_denotes value printable'))
  | .cast _ type operand, ⟨_, printable⟩ => by
    have inner : Denotes .unary (within .unary operand (bare operand)) operand :=
      denotes_within (fun _ same => nomatch same) (bare_denotes operand printable)
    have outer : Denotes .expression (within .unary operand (bare operand)) operand :=
      denotes_loosen inner (Nat.zero_le _) (fun _ same => nomatch same)
        (fun _ same => nomatch same)
    rw [bare]
    split
    · next primitive isPrimitive =>
      have named : primitive.name = type.name := by
        simpa using List.find?_some isPrimitive
      exact denotes_castPrimitive named inner
    · exact denotes_castReference (denotes_guarded inner outer)
  | .instanceOf _ value _, ⟨printable, _⟩ => by
    have level : Phrase.IsLevel (.infixes comparison) := (binary_isLevel .lt).1
    exact denotes_instanceOf (denotes_within level (bare_denotes value printable))
  | .new _ _ args, ⟨_, printable⟩ => denotes_new (bareAll_denotes args printable)

theorem bareAll_denotes : ∀ es : List PrintedExpr, AllPrintable es → DenoteAll (bareAll es) es
  | [], _ => denoteAll_nil
  | [e], ⟨printable, _⟩ => denoteAll_one (denotes_expression (bare_denotes e printable))
  | e :: second :: more, ⟨printable, others⟩ =>
    denoteAll_cons (denotes_expression (bare_denotes e printable))
      (bareAll_denotes (second :: more) others) (List.cons_ne_nil _ _)

end

end Formulary.Printing
