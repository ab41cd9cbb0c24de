/-
Texts whose tokens differ in positions and in some names.

Two lists of tokens with the same lexemes, of which only the positions and the names of some
variables differ, derive the same phrases, but for these. A name that is changed has to stand where
only the name of a variable can stand: behind a closing parenthesis and in front of a bracket.

* `exists_moved` — tokens with the same lexemes are moved tokens.
* `Derives.moved`, `Statement.moved`, `Body.moved` — moved tokens derive relabeled trees.
* `nearestElse_relabel` — where an `else` belongs does not change.
* `Expr.depth_relabel`, `Stmt.depth_relabelAll` — nor does the depth of a tree.
* `Expr.unplaced_relabel` — without its positions an expression is the same wherever it stands.
-/

import Formulary.Proofs.Grammar
import Formulary.Proofs.Positions
import Formulary.Proofs.Relabeling

namespace Formulary

/-- A lexeme whose name is changed, if it is one. -/
def Lexeme.rename (ident : String → String) : Lexeme → Lexeme
  | .name text => .name (ident text)
  | other => other

/-- A token that stands elsewhere and whose name is changed, if it has one. -/
def Token.moved (place : Position → Position) (ident : String → String) (token : Token) : Token :=
  ⟨token.lexeme.rename ident, place token.position⟩

/-- Tokens of which no two stand at one place are moved to tokens with their lexemes. -/
theorem exists_moved {ident : String → String} {tokens tokens' : List Token}
    (apart : tokens.Pairwise fun a b => a.position ≠ b.position)
    (same : tokens'.map Token.lexeme = tokens.map fun token => token.lexeme.rename ident) :
    ∃ place, tokens' = tokens.map (Token.moved place ident) := by
  induction tokens generalizing tokens' with
  | nil =>
    obtain rfl := List.map_eq_nil_iff.mp same
    exact ⟨id, rfl⟩
  | cons token rest ih =>
    obtain ⟨first, others, rfl, isFirst, isRest⟩ := List.map_eq_cons_iff.mp same
    obtain ⟨ne, apart⟩ := List.pairwise_cons.mp apart
    obtain ⟨place, rfl⟩ := ih apart isRest
    refine ⟨fun p => if p = token.position then first.position else place p, ?_⟩
    rw [List.map_cons]
    refine congrArg₂ List.cons ?_ (List.map_congr_left fun other isIn => ?_)
    · obtain ⟨lexeme, p⟩ := first
      obtain rfl : lexeme = token.lexeme.rename ident := isFirst
      simp [Token.moved]
    · simp [Token.moved, (ne other isIn).symm]

/-- Tokens with the same lexemes are the same ones at other places. -/
theorem exists_elsewhere {tokens tokens' : List Token}
    (apart : tokens.Pairwise fun a b => a.position ≠ b.position)
    (same : tokens'.map Token.lexeme = tokens.map Token.lexeme) :
    ∃ place, tokens' = tokens.map (Token.moved place id) := by
  refine exists_moved apart ?_
  rw [same]
  refine List.map_congr_left fun token _ => ?_
  cases token.lexeme <;> rfl

namespace Grammar

open Formulary.Parser (startOf)

/-- What a change of the names and positions of tokens does to trees. -/
def treeLabels (place : Position → Position) (ident : String → String) :
    Relabeling Lexeme Lexeme Unit Unit :=
  ⟨place, id, ident, id⟩

/-- A parsed expression with its labels changed. -/
def Parsed.relabel (f : Relabeling Lexeme Lexeme Unit Unit) (v : Parsed) : Parsed :=
  ⟨v.expr.relabel f, f.place v.start⟩

/-- A name that is changed stands behind a closing parenthesis or a cast and in front of a bracket,
where it can only be the name of a variable. -/
structure Seated (ident : String → String) (before after : Token) : Prop where
  behind : ∀ text, after.lexeme = .name text → ident text ≠ text →
    before.lexeme = .symbol .rightParen ∨ ∃ type, before.lexeme = .castType type
  front : ∀ text, before.lexeme = .name text → ident text ≠ text →
    after.lexeme = .symbol .leftBracket

variable {ident : String → String}

variable (place : Position → Position)

@[simp]
theorem moved_symbol (mark : Symbol) (p : Position) :
    Token.moved place ident ⟨.symbol mark, p⟩ = ⟨.symbol mark, place p⟩ := rfl

@[simp]
theorem moved_keyword (word : Keyword) (p : Position) :
    Token.moved place ident ⟨.keyword word, p⟩ = ⟨.keyword word, place p⟩ := rfl

@[simp]
theorem moved_castType (type : String) (p : Position) :
    Token.moved place ident ⟨.castType type, p⟩ = ⟨.castType type, place p⟩ := rfl

@[simp]
theorem moved_declaredType (type : String) (p : Position) :
    Token.moved place ident ⟨.declaredType type, p⟩ = ⟨.declaredType type, place p⟩ := rfl

@[simp]
theorem moved_name (text : String) (p : Position) :
    Token.moved place ident ⟨.name text, p⟩ = ⟨.name (ident text), place p⟩ := rfl

theorem moved_literal {lexeme : Lexeme} (h : IsLiteral lexeme) (p : Position) :
    Token.moved place ident ⟨lexeme, p⟩ = ⟨lexeme, place p⟩ := by
  cases h <;> rfl

theorem startOf_moved {tokens : List Token} (some : tokens ≠ []) :
    startOf (tokens.map (Token.moved place ident)) = place (startOf tokens) := by
  cases tokens with
  | nil => exact absurd rfl some
  | cons token rest => rfl

/-- Tokens whose neighbours are seated. -/
def AllSeated (ident : String → String) (tokens : List Token) : Prop :=
  tokens.IsChain (Seated ident)

/-- Where no name is changed, all neighbours are seated. -/
theorem allSeated_id (tokens : List Token) : AllSeated id tokens :=
  List.isChain_iff_getElem.mpr fun _ _ =>
    ⟨fun _ _ changed => absurd rfl changed, fun _ _ changed => absurd rfl changed⟩

theorem AllSeated.left {front back : List Token} (h : AllSeated ident (front ++ back)) :
    AllSeated ident front :=
  List.IsChain.left_of_append h

theorem AllSeated.right {front back : List Token} (h : AllSeated ident (front ++ back)) :
    AllSeated ident back :=
  List.IsChain.right_of_append h

theorem AllSeated.rest {token : Token} {tokens : List Token}
    (h : AllSeated ident (token :: tokens)) : AllSeated ident tokens :=
  List.IsChain.tail h

theorem AllSeated.first {back : List Token} {a b : Token}
    (h : AllSeated ident (a :: b :: back)) : Seated ident a b :=
  (List.isChain_cons_cons.mp h).1

theorem AllSeated.neighbours {front back : List Token} {a b : Token}
    (h : AllSeated ident (front ++ a :: b :: back)) : Seated ident a b := by
  have chain : AllSeated ident (a :: b :: back) := h.right
  exact chain.first

/-- Behind a token that is neither a closing parenthesis nor a cast, a name is kept. -/
theorem Seated.kept_behind {before : Token} {text : String} {p : Position}
    (h : Seated ident before ⟨.name text, p⟩) (noParen : before.lexeme ≠ .symbol .rightParen)
    (noCast : ∀ type, before.lexeme ≠ .castType type) : ident text = text := by
  by_contra changed
  rcases h.behind text rfl changed with isParen | ⟨type, isCast⟩
  · exact noParen isParen
  · exact noCast type isCast

/-- In front of a token that is no bracket, a name is kept. -/
theorem Seated.kept_front {after : Token} {text : String} {p : Position}
    (h : Seated ident ⟨.name text, p⟩ after) (noBracket : after.lexeme ≠ .symbol .leftBracket) :
    ident text = text := by
  by_contra changed
  exact noBracket (h.front text rfl changed)

theorem DottedRest.moved {tokens : List Token} {tail : String} (h : DottedRest tokens tail)
    (seated : AllSeated ident tokens) : DottedRest (tokens.map (Token.moved place ident)) tail := by
  induction h with
  | nil => exact .nil
  | @cons p q part tail rest _ ih =>
    have kept : ident part = part :=
      seated.first.kept_behind (by simp) (by simp)
    have later := ih (seated.rest.rest)
    simp only [List.map_cons, moved_symbol, moved_name, kept]
    exact .cons later

/-- A dotted name behind a token that is neither a closing parenthesis nor a cast. -/
theorem Dotted.moved {tokens : List Token} {type : TypeName Unit} (h : Dotted tokens type)
    {before : Token} (seated : AllSeated ident (before :: tokens))
    (noParen : before.lexeme ≠ .symbol .rightParen)
    (noCast : ∀ type, before.lexeme ≠ .castType type) :
    Dotted (tokens.map (Token.moved place ident)) (type.relabel (treeLabels place ident)) := by
  cases h with
  | @mk p first tail rest parts =>
    have kept : ident first = first :=
      seated.first.kept_behind noParen noCast
    have later := parts.moved place (seated.rest.rest)
    simp only [List.map_cons, moved_name, kept]
    exact .mk later

theorem Separated.moved {parts : List (List Token)} {tokens : List Token}
    (h : Separated parts tokens) (f : Token → Token)
    (comma : ∀ p, ∃ q, f ⟨.symbol .comma, p⟩ = ⟨.symbol .comma, q⟩) :
    Separated (parts.map (List.map f)) (tokens.map f) := by
  induction h with
  | nil => exact .nil
  | one tokens => exact .one _
  | @cons p first second joined more _ ih =>
    obtain ⟨q, same⟩ := comma p
    rw [List.map_append, List.map_cons (l := joined), same]
    exact .cons ih

theorem Separated.part {parts : List (List Token)} {tokens : List Token}
    (h : Separated parts tokens) (seated : AllSeated ident tokens) :
    ∀ part ∈ parts, AllSeated ident part := by
  induction h with
  | nil => exact List.forall_mem_nil _
  | one tokens => exact List.forall_mem_singleton.mpr seated
  | cons _ ih =>
    exact List.forall_mem_cons.mpr ⟨seated.left, ih seated.right.rest⟩

/-- An argument with its tokens moved and its labels changed. -/
def movedPart (place : Position → Position) (ident : String → String)
    (part : List Token × Parsed) : List Token × Parsed :=
  (part.1.map (Token.moved place ident), part.2.relabel (treeLabels place ident))

theorem relabelAll_parts (args : List (List Token × Parsed)) :
    Expr.relabelAll (treeLabels place ident) (args.map (·.2.expr)) =
      (args.map (movedPart place ident)).map (·.2.expr) := by
  rw [Expr.relabelAll_eq_map, List.map_map, List.map_map]
  rfl

theorem parts_moved {args : List (List Token × Parsed)} {inner : List Token}
    (derived : ∀ arg ∈ args, AllSeated ident arg.1 →
      Derives .expression (arg.1.map (Token.moved place ident))
        (arg.2.relabel (treeLabels place ident)))
    (separated : Separated (args.map Prod.fst) inner) (seated : AllSeated ident inner) :
    (∀ arg ∈ args.map (movedPart place ident), Derives .expression arg.1 arg.2) ∧
      Separated ((args.map (movedPart place ident)).map Prod.fst)
        (inner.map (Token.moved place ident)) := by
  constructor
  · intro arg isIn
    obtain ⟨part, isPart, rfl⟩ := List.mem_map.mp isIn
    exact derived part isPart (separated.part seated _ (List.mem_map_of_mem isPart))
  · have moved := separated.moved (Token.moved place ident) fun p => ⟨place p, rfl⟩
    rw [List.map_map] at moved ⊢
    exact moved

/-- **Tokens that stand elsewhere derive the same expression** but for its positions, and with
names changed that can only be those of variables, but for these. -/
theorem Derives.moved {phrase : Phrase} {tokens : List Token} {v : Parsed}
    (h : Derives phrase tokens v) (seated : AllSeated ident tokens) :
    Derives phrase (tokens.map (Token.moved place ident))
      (v.relabel (treeLabels place ident)) := by
  induction h with
  | unassigned _ ih => exact .unassigned (ih seated)
  | @assign left right _ _ mark _ p target isMark _ ih ih' =>
    have done := Derives.assign (p := place p) (ih seated.left) isMark (ih' seated.right.rest)
    rw [startOf_moved place target.nonempty] at done
    rw [List.map_append]
    exact done
  | unconditional _ ih => exact .unconditional (ih seated)
  | @conditional _ _ _ _ _ _ p q first _ _ ih ih' ih'' =>
    have behind := seated.right.rest
    have done := Derives.conditional (p := place p) (q := place q) (ih seated.left)
      (ih' behind.left) (ih'' behind.right.rest)
    rw [startOf_moved place first.nonempty] at done
    simp only [List.map_append, List.map_cons]
    exact done
  | tighter _ ih => exact .tighter (ih seated)
  | @binary _ _ _ _ _ _ p left isOp _ ih ih' =>
    have done := Derives.binary (p := place p) (ih seated.left) isOp (ih' seated.right.rest)
    rw [startOf_moved place left.nonempty] at done
    rw [List.map_append]
    exact done
  | @logical _ _ _ _ _ _ p left isOp _ ih ih' =>
    have done := Derives.logical (p := place p) (ih seated.left) isOp (ih' seated.right.rest)
    rw [startOf_moved place left.nonempty] at done
    rw [List.map_append]
    exact done
  | @instanceOf _ _ _ _ p left named ih =>
    have type := named.moved place seated.right (by simp) (by simp)
    have done := Derives.instanceOf (p := place p) (ih seated.left) type
    rw [startOf_moved place left.nonempty] at done
    rw [List.map_append]
    exact done
  | operand _ ih => exact .operand (ih seated)
  | unary isMark _ ih => exact .unary (p := place _) isMark (ih seated.rest)
  | stepBefore _ ih => exact .stepBefore (p := place _) (ih seated.rest)
  | castReference _ ih => exact .castReference (p := place _) (ih seated.rest)
  | castPrimitive _ ih =>
    exact .castPrimitive (p := place _) (q := place _) (r := place _)
      (ih (seated.rest.rest.rest))
  | unadorned _ ih => exact .unadorned (ih seated)
  | @field tokens v member p q left ih =>
    have kept : ident member = member := seated.neighbours.kept_behind (by simp) (by simp)
    have done := @Derives.field _ _ member (place p) (place q) (ih seated.left)
    rw [startOf_moved place left.nonempty] at done
    rw [List.map_append, List.map_cons, List.map_cons, moved_name, kept]
    exact done
  | @methodCall tokens inner v args method p q r s left _ separated ih ih' =>
    have kept : ident method = method := seated.neighbours.kept_behind (by simp) (by simp)
    have inside : AllSeated ident inner :=
      seated.right.rest.rest.rest.left
    obtain ⟨derived, separated'⟩ := parts_moved place ih' separated inside
    have done := @Derives.methodCall _ _ _ _ method (place p) (place q) (place r) (place s)
      (ih seated.left) derived separated'
    rw [startOf_moved place left.nonempty, ← relabelAll_parts place] at done
    simp only [List.map_append, List.map_cons, moved_name, kept]
    exact done
  | @index tokens inner v at_ p q left _ ih ih' =>
    have done := Derives.index (p := place p) (q := place q) (ih seated.left)
      (ih' seated.right.rest.left)
    rw [startOf_moved place left.nonempty] at done
    simp only [List.map_append, List.map_cons]
    exact done
  | @stepBehind _ _ op p left ih =>
    have done := @Derives.stepBehind _ _ op (place p) (ih seated.left)
    rw [startOf_moved place left.nonempty] at done
    rw [List.map_append]
    exact done
  | unsuffixed _ ih => exact .unsuffixed (ih seated)
  | literal isLiteral =>
    rw [List.map_singleton, moved_literal place isLiteral]
    exact .literal isLiteral
  | name => exact .name
  | @call inner args text p q r _ separated ih =>
    have kept : ident text = text :=
      seated.first.kept_front (by simp)
    have inside : AllSeated ident inner := seated.rest.rest.left
    obtain ⟨derived, separated'⟩ := parts_moved place ih separated inside
    have done := @Derives.call _ _ text (place p) (place q) (place r) derived separated'
    rw [← relabelAll_parts place] at done
    simp only [List.map_append, List.map_cons, moved_name, kept]
    exact done
  | @parentheses _ _ p q _ ih =>
    have done := Derives.parentheses (p := place p) (q := place q) (ih seated.rest.left)
    simp only [List.map_append, List.map_cons]
    exact done
  | @new name inner type args p q r named _ separated ih =>
    have isType := named.moved place (@AllSeated.left _ (_ :: _) _ seated) (by simp)
      (by simp)
    have inside : AllSeated ident inner := seated.rest.right.rest.left
    obtain ⟨derived, separated'⟩ := parts_moved place ih separated inside
    have done := Derives.new (p := place p) (q := place q) (r := place r) isType derived separated'
    rw [← relabelAll_parts place] at done
    simp only [List.map_append, List.map_cons]
    exact done

/-! ### Statements -/

variable (ident) in
theorem DeclaredType.moved {token : Token} {type : TypeName Unit} (h : DeclaredType token type) :
    DeclaredType (token.moved place ident) (type.relabel (treeLabels place ident)) := by
  cases h with
  | primitive type p => exact .primitive type (place p)
  | reference name p => exact .reference name (place p)

theorem Declares.moved {tokens : List Token} {declarator : Declarator Lexeme Unit}
    (h : Declares tokens declarator) (seated : AllSeated ident tokens) :
    Declares (tokens.map (Token.moved place ident))
      (declarator.relabel (treeLabels place ident)) := by
  cases h with
  | bare name p => exact .bare (ident name) (place p)
  | @initial name p q tokens value derived =>
    exact .initial (q := place q) (derived.moved place seated.rest.rest)

theorem Declarators.moved {tokens : List Token} {names : List (Declarator Lexeme Unit)}
    (h : Declarators tokens names) (seated : AllSeated ident tokens) :
    Declarators (tokens.map (Token.moved place ident))
      (names.map (·.relabel (treeLabels place ident))) := by
  obtain ⟨parts, some, declares, separated, rfl⟩ := h
  refine ⟨parts.map (Prod.map (List.map (Token.moved place ident))
    (·.relabel (treeLabels place ident))), by simpa using some, ?_, ?_, ?_⟩
  · intro part isIn
    obtain ⟨part, isPart, rfl⟩ := List.mem_map.mp isIn
    exact (declares part isPart).moved place (separated.part seated _ (List.mem_map_of_mem isPart))
  · have moved := separated.moved (Token.moved place ident) fun p => ⟨place p, rfl⟩
    rw [List.map_map] at moved ⊢
    exact moved
  · rw [List.map_map, List.map_map]
    rfl

theorem Expressions.moved {tokens : List Token} {values : List Parsed}
    (h : Expressions tokens values) (seated : AllSeated ident tokens) :
    Expressions (tokens.map (Token.moved place ident))
      (values.map (·.relabel (treeLabels place ident))) := by
  obtain ⟨parts, derived, separated, rfl⟩ := h
  obtain ⟨derived', separated'⟩ := parts_moved place
    (fun part isIn seated => (derived part isIn).moved place seated) separated seated
  refine ⟨parts.map (movedPart place ident), derived', separated', ?_⟩
  rw [List.map_map, List.map_map]
  rfl

theorem Initial.moved {tokens : List Token} {init : ForInit Lexeme Unit} (h : Initial tokens init)
    (seated : AllSeated ident tokens) :
    Initial (tokens.map (Token.moved place ident)) (init.relabel (treeLabels place ident)) := by
  cases h with
  | none => exact .none
  | declaration type names => exact .declaration (type.moved ident place) (names.moved place seated.rest)
  | @expressions _ values some derived =>
    have moved := Initial.expressions (by simpa using some) (derived.moved place seated)
    rw [List.map_map] at moved
    rw [ForInit.relabel, List.map_map]
    exact moved

theorem Optional.moved {tokens : List Token} {value : Option SourceExpr}
    (h : Optional tokens value) (seated : AllSeated ident tokens) :
    Optional (tokens.map (Token.moved place ident))
      (value.map (·.relabel (treeLabels place ident))) := by
  cases h with
  | none => exact .none
  | some derived => exact .some (derived.moved place seated)

theorem statements_moved {parts : List (List Token × SourceStmt)}
    (written : ∀ part ∈ parts, AllSeated ident part.1 →
      Statement (part.1.map (Token.moved place ident)) (part.2.relabel (treeLabels place ident)))
    (seated : AllSeated ident (parts.flatMap Prod.fst)) :
    ∀ part ∈ parts.map (Prod.map (List.map (Token.moved place ident))
      (Stmt.relabel (treeLabels place ident))), Statement part.1 part.2 := by
  induction parts with
  | nil => exact List.forall_mem_nil _
  | cons first rest ih =>
    obtain ⟨isFirst, others⟩ := List.forall_mem_cons.mp written
    rw [List.flatMap_cons] at seated
    exact List.forall_mem_cons.mpr ⟨isFirst seated.left, ih others seated.right⟩

theorem flatMap_moved (parts : List (List Token × SourceStmt)) :
    (parts.map (Prod.map (List.map (Token.moved place ident))
      (Stmt.relabel (treeLabels place ident)))).flatMap Prod.fst =
        (parts.flatMap Prod.fst).map (Token.moved place ident) := by
  rw [List.map_flatMap, List.flatMap_map]
  rfl

theorem relabelAll_statements (parts : List (List Token × SourceStmt)) :
    Stmt.relabelAll (treeLabels place ident) (parts.map Prod.snd) =
      (parts.map (Prod.map (List.map (Token.moved place ident))
        (Stmt.relabel (treeLabels place ident)))).map Prod.snd := by
  rw [Stmt.relabelAll_eq_map, List.map_map, List.map_map]
  rfl

/-- **Tokens that stand elsewhere write the same statement**, but for its labels. -/
theorem Statement.moved {tokens : List Token} {s : SourceStmt} (h : Statement tokens s)
    (seated : AllSeated ident tokens) :
    Statement (tokens.map (Token.moved place ident)) (s.relabel (treeLabels place ident)) := by
  induction h with
  | @block parts p q _ ih =>
    have written := statements_moved place ih seated.rest.left
    have done := Statement.block (p := place p) (q := place q) written
    rw [flatMap_moved, ← relabelAll_statements] at done
    simp only [List.map_append, List.map_cons]
    exact done
  | empty p => exact .empty (place p)
  | @declaration token type tokens names p isType isNames =>
    have done := Statement.declaration (p := place p)
      (isType.moved ident place)
      (isNames.moved place seated.rest.left)
    simp only [List.map_append, List.map_cons]
    exact done
  | @expression tokens value p derived =>
    have done := Statement.expression (p := place p) (derived.moved place seated.left)
    rw [startOf_moved place derived.nonempty] at done
    rw [List.map_append]
    exact done
  | @ifThen test branch condition thenBranch p q r derived _ ih =>
    have inner := seated.rest.rest
    have done := Statement.ifThen (p := place p) (q := place q) (r := place r)
      (derived.moved place inner.left) (ih inner.right.rest)
    simp only [List.map_append, List.map_cons]
    exact done
  | @ifThenElse test branch other condition thenBranch elseBranch p q r s derived _ _ ih ih' =>
    have inner := seated.rest.rest
    have branches := inner.right.rest
    have done := Statement.ifThenElse (p := place p) (q := place q) (r := place r) (s := place s)
      (derived.moved place inner.left) (ih branches.left) (ih' branches.right.rest)
    simp only [List.map_append, List.map_cons]
    exact done
  | @whileLoop test inner condition body p q r derived _ ih =>
    have behind := seated.rest.rest
    have done := Statement.whileLoop (p := place p) (q := place q) (r := place r)
      (derived.moved place behind.left) (ih behind.right.rest)
    simp only [List.map_append, List.map_cons]
    exact done
  | @doLoop test inner condition body p q r s t _ derived ih =>
    have behind := seated.rest.right.rest.rest
    have done := Statement.doLoop (p := place p) (q := place q) (r := place r) (s := place s)
      (t := place t) (ih seated.rest.left) (derived.moved place behind.left)
    simp only [List.map_append, List.map_cons]
    exact done
  | @forLoop first second third inner init condition update body p q r s t isInit isTest isUpdate _
      ih =>
    have header := seated.rest.rest
    have behindInit := header.right.rest
    have behindTest := behindInit.right.rest
    have done := Statement.forLoop (p := place p) (q := place q) (r := place r) (s := place s)
      (t := place t) (isInit.moved place header.left)
      (isTest.moved place behindInit.left)
      (isUpdate.moved place behindTest.left) (ih behindTest.right.rest)
    have updates : (update.map (·.relabel (treeLabels place ident))).map Parsed.expr =
        Expr.relabelAll (treeLabels place ident) (update.map Parsed.expr) := by
      rw [Expr.relabelAll_eq_map, List.map_map, List.map_map]
      rfl
    rw [updates] at done
    simp only [List.map_append, List.map_cons]
    exact done
  | @forEach token type name values inner iterable body p q r s t isType derived _ ih =>
    have header := seated.rest.rest.rest.rest.rest
    have done := @Statement.forEach _ _ (ident name) _ _ _ _ (place p) (place q) (place r)
      (place s) (place t) (isType.moved ident place)
      (derived.moved place header.left) (ih header.right.rest)
    simp only [List.map_append, List.map_cons]
    exact done
  | @returns tokens value p q isValue =>
    have done := Statement.returns (p := place p) (q := place q)
      (isValue.moved place seated.rest.left)
    simp only [List.map_append, List.map_cons]
    exact done
  | breaks p q => exact .breaks (place p) (place q)
  | continues p q => exact .continues (place p) (place q)

/-- Tokens that stand elsewhere write the same body, but for its labels. -/
theorem Body.moved {tokens : List Token} {body : List SourceStmt} (h : Body tokens body)
    (seated : AllSeated ident tokens) :
    Body (tokens.map (Token.moved place ident))
      (Stmt.relabelAll (treeLabels place ident) body) := by
  obtain ⟨parts, written, rfl, rfl⟩ := h
  refine ⟨_, statements_moved place
    (fun part isIn seated => (written part isIn).moved place seated) seated, ?_,
    relabelAll_statements place parts⟩
  rw [flatMap_moved]

/-! ### Where an `else` belongs -/

section Branches

variable (f : Relabeling Lexeme Lexeme Unit Unit)

theorem endsOpen_relabel : ∀ s : SourceStmt, endsOpen (s.relabel f) = endsOpen s
  | .ifThen .. => rfl
  | .ifThenElse _ _ _ branch => endsOpen_relabel branch
  | .whileLoop _ _ body | .forLoop _ _ _ _ body | .forEach _ _ _ _ body => endsOpen_relabel body
  | .block .. | .empty _ | .declaration .. | .expression .. | .doLoop .. | .returns .. | .breaks _
  | .continues _ => rfl

mutual

theorem nearestElse_relabel : ∀ s : SourceStmt, NearestElse (s.relabel f) ↔ NearestElse s
  | .block _ inner => nearestElseAll_relabel inner
  | .ifThen _ _ branch => nearestElse_relabel branch
  | .ifThenElse _ _ thenBranch elseBranch => by
    rw [Stmt.relabel, NearestElse, NearestElse, endsOpen_relabel, nearestElse_relabel thenBranch,
      nearestElse_relabel elseBranch]
  | .whileLoop _ _ body | .doLoop _ body _ | .forLoop _ _ _ _ body | .forEach _ _ _ _ body =>
    nearestElse_relabel body
  | .empty _ | .declaration .. | .expression .. | .returns .. | .breaks _ | .continues _ => Iff.rfl

theorem nearestElseAll_relabel : ∀ stmts : List SourceStmt,
    NearestElseAll (Stmt.relabelAll f stmts) ↔ NearestElseAll stmts
  | [] => Iff.rfl
  | first :: rest => and_congr (nearestElse_relabel first) (nearestElseAll_relabel rest)

end

end Branches

end Grammar

/-! ### Depths -/

section Depths

variable {α β τ κ : Type} (f : Relabeling α β τ κ)

namespace Expr

mutual

theorem depth_relabel : ∀ e : Expr α τ, (e.relabel f).depth = e.depth
  | .literal .. | .name .. | .typeName .. => rfl
  | .field _ receiver _ => by simp [relabel, depth, depth_relabel receiver]
  | .methodCall _ receiver _ args => by
    simp [relabel, depth, depth_relabel receiver, depth_relabelAll args]
  | .call _ _ args => by simp [relabel, depth, depth_relabelAll args]
  | .index _ container place => by
    simp [relabel, depth, depth_relabel container, depth_relabel place]
  | .unary _ _ operand => by simp [relabel, depth, depth_relabel operand]
  | .step _ _ target _ => by simp [relabel, depth, depth_relabel target]
  | .binary _ _ left right => by simp [relabel, depth, depth_relabel left, depth_relabel right]
  | .logical _ _ left right => by simp [relabel, depth, depth_relabel left, depth_relabel right]
  | .conditional _ test thenValue elseValue => by
    simp [relabel, depth, depth_relabel test, depth_relabel thenValue, depth_relabel elseValue]
  | .assign _ _ target value => by simp [relabel, depth, depth_relabel target, depth_relabel value]
  | .cast _ _ operand => by simp [relabel, depth, depth_relabel operand]
  | .instanceOf _ value _ => by simp [relabel, depth, depth_relabel value]
  | .new _ _ args => by simp [relabel, depth, depth_relabelAll args]

theorem depth_relabelAll : ∀ es : List (Expr α τ), depthOfAll (relabelAll f es) = depthOfAll es
  | [] => rfl
  | e :: rest => by simp [relabelAll, depthOfAll, depth_relabel e, depth_relabelAll rest]

end

theorem depth_relabel? (value : Option (Expr α τ)) :
    (value.map (·.relabel f)).elim 0 depth = value.elim 0 depth := by
  cases value with
  | none => rfl
  | some e => exact depth_relabel f e

end Expr

theorem Declarator.depth_relabel (declarator : Declarator α τ) :
    (declarator.relabel f).depth = declarator.depth := by
  obtain ⟨p, name, value⟩ := declarator
  cases value with
  | none => rfl
  | some e => exact Expr.depth_relabel f e

theorem ForInit.depth_relabel (init : ForInit α τ) : (init.relabel f).depth = init.depth := by
  cases init with
  | none => rfl
  | declaration p type names => simp [relabel, depth, List.foldl_map, Declarator.depth_relabel]
  | expressions values =>
    simp [relabel, depth, List.foldl_map, relabelPlaced, Expr.depth_relabel]

namespace Stmt

mutual

theorem depth_relabel : ∀ s : Stmt α τ, (s.relabel f).depth = s.depth
  | .block _ inner => by simp [relabel, depth, depth_relabelAll inner]
  | .empty _ | .breaks _ | .continues _ => rfl
  | .declaration _ _ names => by
    simp [relabel, depth, List.foldl_map, Declarator.depth_relabel]
  | .expression _ value => by simp [relabel, depth, Expr.depth_relabel]
  | .ifThen _ test thenBranch => by
    simp [relabel, depth, Expr.depth_relabel, depth_relabel thenBranch]
  | .ifThenElse _ test thenBranch elseBranch => by
    simp [relabel, depth, Expr.depth_relabel, depth_relabel thenBranch, depth_relabel elseBranch]
  | .whileLoop _ test body => by simp [relabel, depth, Expr.depth_relabel, depth_relabel body]
  | .doLoop _ body test => by simp [relabel, depth, Expr.depth_relabel, depth_relabel body]
  | .forLoop _ init test update body => by
    simp only [relabel, depth, ForInit.depth_relabel, Expr.depth_relabel?, Expr.depth_relabelAll,
      depth_relabel body]
  | .forEach _ _ _ iterable body => by
    simp [relabel, depth, Expr.depth_relabel, depth_relabel body]
  | .returns _ value => by simp only [relabel, depth, Expr.depth_relabel?]

theorem depth_relabelAll : ∀ stmts : List (Stmt α τ),
    depthOfAll (relabelAll f stmts) = depthOfAll stmts
  | [] => rfl
  | s :: rest => by simp [relabelAll, depthOfAll, depth_relabel s, depth_relabelAll rest]

end

end Stmt

end Depths

/-! ### Positions only -/

namespace Expr

variable {α β τ : Type} (g : α → β) (place : Position → Position)

mutual

/-- Where an expression stands does not count without its positions. -/
theorem unplaced_relabel : ∀ e : Expr α τ,
    (e.relabel ⟨place, id, id, id⟩ : Expr α τ).unplaced g = e.unplaced g
  | .literal .. | .name .. | .typeName .. => rfl
  | .field _ receiver _ => by simp only [relabel, unplaced, unplaced_relabel receiver]
  | .methodCall _ receiver _ args => by
    simp only [relabel, unplaced, unplaced_relabel receiver, unplaced_relabelAll args]
  | .call _ callee args => by
    simp only [relabel, unplaced, unplaced_relabelAll args]
    rfl
  | .index _ container at_ => by
    simp only [relabel, unplaced, unplaced_relabel container, unplaced_relabel at_]
  | .unary _ _ operand => by simp only [relabel, unplaced, unplaced_relabel operand]
  | .step _ _ target _ => by simp only [relabel, unplaced, unplaced_relabel target]
  | .binary _ _ left right => by
    simp only [relabel, unplaced, unplaced_relabel left, unplaced_relabel right]
  | .logical _ _ left right => by
    simp only [relabel, unplaced, unplaced_relabel left, unplaced_relabel right]
  | .conditional _ test thenValue elseValue => by
    simp only [relabel, unplaced, unplaced_relabel test, unplaced_relabel thenValue,
      unplaced_relabel elseValue]
  | .assign _ _ target value => by
    simp only [relabel, unplaced, unplaced_relabel target, unplaced_relabel value]
  | .cast _ _ operand => by
    simp only [relabel, unplaced, unplaced_relabel operand]
    rfl
  | .instanceOf _ value _ => by
    simp only [relabel, unplaced, unplaced_relabel value]
    rfl
  | .new _ _ args => by
    simp only [relabel, unplaced, unplaced_relabelAll args]
    rfl

theorem unplaced_relabelAll : ∀ es : List (Expr α τ),
    allUnplaced g (relabelAll ⟨place, id, id, id⟩ es : List (Expr α τ)) = allUnplaced g es
  | [] => rfl
  | e :: rest => by
    simp only [relabelAll, allUnplaced, unplaced_relabel e, unplaced_relabelAll rest]

end

end Expr

end Formulary
