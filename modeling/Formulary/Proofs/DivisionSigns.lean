/-
What stands behind a sign of division.

Behind `/` an operand begins, so that no `*` can follow it in a body, not even in front of folding:
folding takes the place of names, points and parentheses only. Two signs that would begin a comment
if one was closed further on are therefore never next to each other.

* `Grammar.Divided` — every sign of division has the beginning of an operand behind it.
* `Derives.divided`, `Statement.divided`, `Body.divided` — phrases of the grammar, by induction on
  how they are made up.
* `Fold.Parted` — signs that do not begin a comment.
* `Fold.parted_of_fold` — what holds of folded tokens holds of those in the text.
-/

import Formulary.Proofs.RelabeledFolding

namespace Formulary

namespace Grammar

/-! ### In the grammar -/

/-- Behind every sign of division stands a token that an expression may begin with. -/
def Divided : List Token → Prop
  | [] => True
  | token :: rest =>
    (token.lexeme = .symbol (.binary .div) →
      ∃ next more, rest = next :: more ∧ Opens next.lexeme) ∧ Divided rest

theorem Divided.cons {token : Token} {rest : List Token}
    (other : token.lexeme ≠ .symbol (.binary .div)) (divided : Divided rest) :
    Divided (token :: rest) :=
  ⟨fun isDiv => absurd isDiv other, divided⟩

theorem Divided.append {front back : List Token} (first : Divided front) (last : Divided back) :
    Divided (front ++ back) := by
  induction front with
  | nil => exact last
  | cons token front ih =>
    obtain ⟨behind, others⟩ := first
    refine ⟨fun isDiv => ?_, ih others⟩
    obtain ⟨next, more, rfl, opens⟩ := behind isDiv
    exact ⟨next, more ++ back, rfl, opens⟩

theorem Divided.one {token : Token} (other : token.lexeme ≠ .symbol (.binary .div)) :
    Divided [token] :=
  .cons other trivial

theorem Divided.flatMap {α : Type} {parts : List α} {tokens : α → List Token}
    (each : ∀ part ∈ parts, Divided (tokens part)) : Divided (parts.flatMap tokens) := by
  induction parts with
  | nil => trivial
  | cons part parts ih =>
    obtain ⟨first, others⟩ := List.forall_mem_cons.mp each
    exact first.append (ih others)

theorem DottedRest.divided {tokens : List Token} {text : String} (h : DottedRest tokens text) :
    Divided tokens := by
  induction h with
  | nil => trivial
  | cons _ ih => exact .cons nofun (.cons nofun ih)

theorem Dotted.divided {tokens : List Token} {type : TypeName Unit} (h : Dotted tokens type) :
    Divided tokens := by
  cases h with
  | mk rest => exact .cons nofun rest.divided

theorem Separated.divided {parts : List (List Token)} {tokens : List Token}
    (h : Separated parts tokens) (each : ∀ part ∈ parts, Divided part) : Divided tokens := by
  induction h with
  | nil => trivial
  | one tokens => exact each tokens List.mem_cons_self
  | cons _ ih =>
    obtain ⟨first, others⟩ := List.forall_mem_cons.mp each
    exact first.append (.cons nofun (ih others))

/-- Parts of which each is a phrase that has been taken care of. -/
theorem Separated.divided_parts {α : Type} {parts : List (List Token × α)} {tokens : List Token}
    (h : Separated (parts.map Prod.fst) tokens) (each : ∀ part ∈ parts, Divided part.1) :
    Divided tokens :=
  h.divided (List.forall_mem_map.mpr each)

theorem assignment_noDivision {mark : Symbol} {op : Option BinaryOp}
    (h : (mark, op) ∈ assignments) : mark ≠ .binary .div := by
  have all : ∀ pair ∈ assignments, pair.1 ≠ .binary .div := by decide
  exact all _ h

theorem unary_noDivision {mark : Symbol} {op : UnaryOp} (h : (mark, op) ∈ unaryOperators) :
    mark ≠ .binary .div := by
  have all : ∀ pair ∈ unaryOperators, pair.1 ≠ .binary .div := by decide
  exact all _ h

theorem literal_noDivision {lexeme : Lexeme} (h : IsLiteral lexeme) :
    lexeme ≠ .symbol (.binary .div) := by
  rintro rfl
  cases h

/-- **Behind a sign of division in an expression an operand begins.** -/
theorem Derives.divided {phrase : Phrase} {tokens : List Token} {v : Parsed}
    (h : Derives phrase tokens v) : Divided tokens := by
  induction h with
  | unassigned _ ih | unconditional _ ih | tighter _ ih | operand _ ih | unadorned _ ih
  | unsuffixed _ ih => exact ih
  | assign _ isMark _ left right =>
    refine left.append (.cons ?_ right)
    simpa using assignment_noDivision isMark
  | conditional _ _ _ first second third =>
    exact first.append (.cons nofun (second.append (.cons nofun third)))
  | binary _ _ operand left right => exact left.append ⟨fun _ => operand.opens, right⟩
  | logical _ _ _ left right => exact left.append (.cons nofun right)
  | instanceOf _ named left => exact left.append (.cons nofun named.divided)
  | unary isMark _ ih =>
    refine .cons ?_ ih
    simpa using unary_noDivision isMark
  | stepBefore _ ih => exact .cons nofun ih
  | castReference _ ih => exact .cons nofun ih
  | castPrimitive _ ih => exact .cons nofun (.cons nofun (.cons nofun ih))
  | field _ ih => exact ih.append (.cons nofun (.one nofun))
  | methodCall _ _ separated receiver each =>
    exact receiver.append (.cons nofun (.cons nofun (.cons nofun
      ((separated.divided_parts each).append (.one nofun)))))
  | index _ _ container place =>
    exact container.append (.cons nofun (place.append (.one nofun)))
  | stepBehind _ ih => exact ih.append (.one nofun)
  | literal isLiteral => exact .one (literal_noDivision isLiteral)
  | name => exact .one nofun
  | call _ separated each =>
    exact .cons nofun (.cons nofun ((separated.divided_parts each).append (.one nofun)))
  | parentheses _ ih => exact .cons nofun (ih.append (.one nofun))
  | new named _ separated each =>
    exact .cons nofun (named.divided.append (.cons nofun
      ((separated.divided_parts each).append (.one nofun))))

theorem DeclaredType.noDivision {token : Token} {type : TypeName Unit}
    (h : DeclaredType token type) : token.lexeme ≠ .symbol (.binary .div) := by
  cases h <;> nofun

theorem Declares.divided {tokens : List Token} {name : Declarator Lexeme Unit}
    (h : Declares tokens name) : Divided tokens := by
  cases h with
  | bare => exact .one nofun
  | initial value => exact .cons nofun (.cons nofun value.divided)

theorem Declarators.divided {tokens : List Token} {names : List (Declarator Lexeme Unit)}
    (h : Declarators tokens names) : Divided tokens := by
  obtain ⟨parts, -, each, separated, -⟩ := h
  exact separated.divided_parts fun part isIn => (each part isIn).divided

theorem Expressions.divided {tokens : List Token} {values : List Parsed}
    (h : Expressions tokens values) : Divided tokens := by
  obtain ⟨parts, each, separated, -⟩ := h
  exact separated.divided_parts fun part isIn => (each part isIn).divided

theorem Initial.divided {tokens : List Token} {init : ForInit Lexeme Unit}
    (h : Initial tokens init) : Divided tokens := by
  cases h with
  | none => trivial
  | declaration type names => exact .cons type.noDivision names.divided
  | expressions _ values => exact values.divided

theorem Optional.divided {tokens : List Token} {value : Option SourceExpr}
    (h : Optional tokens value) : Divided tokens := by
  cases h with
  | none => trivial
  | some value => exact value.divided

/-- **Behind a sign of division in a statement an operand begins.** -/
theorem Statement.divided {tokens : List Token} {stmt : SourceStmt} (h : Statement tokens stmt) :
    Divided tokens := by
  induction h with
  | block _ each => exact .cons nofun ((Divided.flatMap each).append (.one nofun))
  | empty => exact .one nofun
  | declaration type names =>
    exact .cons type.noDivision (names.divided.append (.one nofun))
  | expression value => exact value.divided.append (.one nofun)
  | ifThen test _ branch =>
    exact .cons nofun (.cons nofun (test.divided.append (.cons nofun branch)))
  | ifThenElse test _ _ branch other =>
    exact .cons nofun (.cons nofun (test.divided.append
      (.cons nofun (branch.append (.cons nofun other)))))
  | whileLoop test _ inner =>
    exact .cons nofun (.cons nofun (test.divided.append (.cons nofun inner)))
  | doLoop _ test inner =>
    exact .cons nofun (inner.append (.cons nofun (.cons nofun
      (test.divided.append (.cons nofun (.one nofun))))))
  | forLoop init condition update _ inner =>
    exact .cons nofun (.cons nofun (init.divided.append (.cons nofun (condition.divided.append
      (.cons nofun (update.divided.append (.cons nofun inner)))))))
  | forEach type values _ inner =>
    exact .cons nofun (.cons nofun (.cons type.noDivision (.cons nofun (.cons nofun
      (values.divided.append (.cons nofun inner))))))
  | returns value => exact .cons nofun (value.divided.append (.one nofun))
  | breaks => exact .cons nofun (.one nofun)
  | continues => exact .cons nofun (.one nofun)

/-- **Behind a sign of division in a body an operand begins.** -/
theorem Body.divided {tokens : List Token} {body : List SourceStmt} (h : Body tokens body) :
    Divided tokens := by
  obtain ⟨parts, each, rfl, -⟩ := h
  exact .flatMap fun part isIn => (each part isIn).divided

end Grammar

/-! ### In front of folding -/

namespace Fold

open Grammar

/-- A lexeme that begins with `*`. -/
def IsStar (lexeme : Lexeme) : Prop :=
  lexeme = .symbol (.binary .mul) ∨ lexeme = .symbol (.compound .mul)

/-- Lexemes that do not look like the beginning of a comment when they stand together. -/
def Parted (lexeme next : Lexeme) : Prop :=
  lexeme = .symbol (.binary .div) → ¬IsStar next

theorem opens_noStar {lexeme : Lexeme} (opens : Opens lexeme) : ¬IsStar lexeme := by
  have noUnary : ∀ pair ∈ unaryOperators, pair.1 ≠ .binary .mul ∧ pair.1 ≠ .compound .mul := by
    decide
  rintro (rfl | rfl)
  · cases opens with
    | literal isLiteral => cases isLiteral
    | unary isMark => exact (noUnary _ isMark).1 rfl
  · cases opens with
    | literal isLiteral => cases isLiteral
    | unary isMark => exact (noUnary _ isMark).2 rfl

theorem dottedRest_inside {tokens : List Token} :
    ∀ part ∈ (dottedRest tokens).1, part.lexeme ≠ .symbol (.binary .div) := by
  induction tokens using dottedRest.induct with
  | case1 dot part rest text isPart isDot parts after same ih =>
    rw [dottedRest]
    simp only [isPart, isDot]
    exact List.forall_mem_cons.mpr ⟨by simp [isDot],
      List.forall_mem_cons.mpr ⟨by simp [isPart], ih⟩⟩
  | case2 dot part rest other =>
    rw [dottedRest]
    split
    · next isDot isPart => exact (other _ isDot isPart).elim
    · exact List.forall_mem_nil _
  | case3 rest other =>
    rw [dottedRest.eq_2 rest other]
    exact List.forall_mem_nil _

theorem dottedName_inside {tokens parts after : List Token}
    (h : dottedName? tokens = some (parts, after)) :
    tokens = parts ++ after ∧ ∀ part ∈ parts, part.lexeme ≠ .symbol (.binary .div) := by
  obtain ⟨first, text, rest, rfl, isName, same, isRest⟩ := dottedName_split h
  have inside := @dottedRest_inside (rest ++ after)
  rw [isRest] at inside
  exact ⟨same, List.forall_mem_cons.mpr ⟨by simp [isName], inside⟩⟩

theorem castAt_inside {previous : Option Token} {tokens : List Token} {folded : Token} {count : Nat}
    (h : castAt? previous tokens = some (folded, count)) :
    0 < count ∧ ∀ token ∈ tokens.take count, token.lexeme ≠ .symbol (.binary .div) := by
  unfold castAt? at h
  split at h
  · cases h
  · next paren rest =>
    split at h
    · next opens =>
      simp only [Bool.and_eq_true, decide_eq_true_eq] at opens
      split at h
      · next parts closing operand more named =>
        split at h
        · next closes =>
          simp only [Bool.and_eq_true, decide_eq_true_eq] at closes
          obtain ⟨rfl, inside⟩ := dottedName_inside named
          obtain ⟨first, -, same⟩ := Option.map_eq_some_iff.mp h
          obtain ⟨-, rfl⟩ := Prod.mk.inj same
          have taken : (paren :: (parts ++ closing :: operand :: more)).take (parts.length + 2) =
              paren :: (parts ++ [closing]) := by
            rw [List.take_succ_cons, List.take_length_add_append]
            rfl
          rw [taken]
          refine ⟨Nat.succ_pos _, List.forall_mem_cons.mpr ⟨by simp [opens.1], ?_⟩⟩
          exact List.forall_mem_append.mpr ⟨inside, List.forall_mem_singleton.mpr
            (by simp [closes.1])⟩
        · cases h
      · cases h
    · cases h

theorem declaredAt_inside {tokens : List Token} {folded : Token} {count : Nat}
    (h : declaredAt? tokens = some (folded, count)) :
    0 < count ∧ ∀ token ∈ tokens.take count, token.lexeme ≠ .symbol (.binary .div) := by
  unfold declaredAt? at h
  split at h
  · next parts next more named =>
    split at h
    · obtain ⟨rfl, inside⟩ := dottedName_inside named
      obtain ⟨first, isFirst, same⟩ := Option.map_eq_some_iff.mp h
      obtain ⟨-, rfl⟩ := Prod.mk.inj same
      rw [List.take_left]
      exact ⟨List.length_pos_of_mem (List.mem_of_mem_head? isFirst), inside⟩
    · cases h
  · cases h

/-- No sign of division is among the tokens that a folded one stands for. -/
theorem found_inside {previous : Option Token} {token folded : Token} {rest : List Token}
    {count : Nat} (found : (castAt? previous (token :: rest) <|> declaredAt? (token :: rest)) =
      some (folded, count)) :
    ∀ part ∈ token :: rest.take (count - 1), part.lexeme ≠ .symbol (.binary .div) := by
  rw [Option.orElse_eq_orElse, Option.orElse_eq_or, Option.or_eq_some_iff] at found
  obtain ⟨positive, inside⟩ := found.elim castAt_inside fun declared => declaredAt_inside declared.2
  obtain ⟨count, rfl⟩ := Nat.exists_eq_add_of_le' positive
  rwa [List.take_succ_cons] at inside

/-- A sign is not folded. -/
theorem foldFrom_star {token : Token} (isStar : IsStar token.lexeme) (previous : Option Token)
    (rest : List Token) :
    foldFrom 0 previous (token :: rest) = token :: foldFrom 0 (some token) rest := by
  have noParen : token.lexeme ≠ .symbol .leftParen := by
    rintro isParen
    rw [isParen] at isStar
    rcases isStar with same | same <;> cases same
  have noName : dottedName? (token :: rest) = none := by
    rcases isStar with same | same <;> rw [dottedName?, same]
  rw [foldFrom, castAt?, declaredAt?, noName]
  simp [noParen]

/-- Tokens that hold no sign of division may stand in front of any others. -/
theorem isChain_parted_append {front back : List Token}
    (inside : ∀ token ∈ front, token.lexeme ≠ .symbol (.binary .div))
    (chain : (back.map Token.lexeme).IsChain Parted) :
    ((front ++ back).map Token.lexeme).IsChain Parted := by
  induction front with
  | nil => exact chain
  | cons token front ih =>
    obtain ⟨noDivision, others⟩ := List.forall_mem_cons.mp inside
    rw [List.cons_append, List.map_cons]
    exact List.isChain_cons.mpr ⟨fun _ _ isDiv => absurd isDiv noDivision, ih others⟩

/-- **In front of folding no `*` stands behind a sign of division**, if behind folding an operand
does. -/
theorem parted_of_foldFrom {tokens : List Token} {skip : Nat} {previous : Option Token}
    (divided : Divided (foldFrom skip previous tokens)) :
    ((tokens.drop skip).map Token.lexeme).IsChain Parted := by
  induction tokens generalizing skip previous with
  | nil =>
    rw [List.drop_nil]
    exact List.IsChain.nil
  | cons token rest ih =>
    cases skip with
    | succ skip => exact ih divided
    | zero =>
      rw [foldFrom] at divided
      split at divided
      · next folded count found =>
        have whole := isChain_parted_append (found_inside found) (ih divided.2)
        rwa [List.cons_append, List.take_append_drop] at whole
      · obtain ⟨behind, others⟩ := divided
        rw [List.drop_zero, List.map_cons]
        refine List.isChain_cons.mpr ⟨fun next isNext isDiv isStar => ?_, ih others⟩
        -- The next token is not folded, so that it is the one that begins an operand.
        cases rest with
        | nil => cases isNext
        | cons second rest =>
          cases isNext
          obtain ⟨first, more, same, opens⟩ := behind isDiv
          rw [foldFrom_star isStar] at same
          obtain ⟨rfl, -⟩ := List.cons.inj same
          exact opens_noStar opens isStar

theorem parted_of_fold {tokens : List Token} (divided : Divided (fold tokens)) :
    (tokens.map Token.lexeme).IsChain Parted :=
  parted_of_foldFrom divided

end Fold

end Formulary
