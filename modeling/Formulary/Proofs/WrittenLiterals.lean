/-
The literals that a text writes.

A tree has the literals of its tokens, each at its place and all in the order of the text, and no
more of them. Folding type names leaves them, and reading them puts the value of each in its stead.

* `Expr.literals`, `Stmt.literals` — the literals of a tree, in the order of the text.
* `Derives.literals`, `Statement.literals`, `Body.literals` — they are those of the tokens.
* `literals_fold` — folding type names keeps the literals of tokens.
* `Stmt.literals_mapAllLiterals` — each literal is read for itself.
* `readBody_literals` — the literals of a body are those of its text, read one by one.
-/

import Formulary.Proofs.Checking
import Formulary.Proofs.Nesting
import Formulary.Proofs.Parsing

namespace Formulary

open Formulary.Parser (isLiteral)

/-! ### Literals of trees -/

variable {α β τ ε : Type}

namespace Expr

mutual

/-- The literals of an expression and their places, in the order of the text. -/
def literals : Expr α τ → List (Position × α)
  | .literal p value => [(p, value)]
  | .name .. | .typeName .. => []
  | .field _ receiver _ => receiver.literals
  | .methodCall _ receiver _ args => receiver.literals ++ literalsOfAll args
  | .call _ _ args => literalsOfAll args
  | .index _ container place => container.literals ++ place.literals
  | .unary _ _ operand => operand.literals
  | .step _ _ target _ => target.literals
  | .binary _ _ left right => left.literals ++ right.literals
  | .logical _ _ left right => left.literals ++ right.literals
  | .conditional _ test thenValue elseValue =>
    test.literals ++ (thenValue.literals ++ elseValue.literals)
  | .assign _ _ target value => target.literals ++ value.literals
  | .cast _ _ operand => operand.literals
  | .instanceOf _ value _ => value.literals
  | .new _ _ args => literalsOfAll args

def literalsOfAll : List (Expr α τ) → List (Position × α)
  | [] => []
  | expr :: rest => expr.literals ++ literalsOfAll rest

end

theorem literalsOfAll_eq_flatMap (exprs : List (Expr α τ)) :
    literalsOfAll exprs = exprs.flatMap literals := by
  induction exprs with
  | nil => rfl
  | cons expr rest ih => rw [literalsOfAll, ih, List.flatMap_cons]

end Expr

/-- The literals of the initial value of a declared name. -/
def Declarator.literals (declarator : Declarator α τ) : List (Position × α) :=
  declarator.value.elim [] Expr.literals

/-- The literals of the beginning of a loop. -/
def ForInit.literals : ForInit α τ → List (Position × α)
  | .none => []
  | .declaration _ _ names => names.flatMap Declarator.literals
  | .expressions values => values.flatMap (·.2.literals)

namespace Stmt

mutual

/-- The literals of a statement and their places, in the order of the text. -/
def literals : Stmt α τ → List (Position × α)
  | .block _ inner => literalsOfAll inner
  | .empty _ | .breaks _ | .continues _ => []
  | .declaration _ _ names => names.flatMap Declarator.literals
  | .expression _ value => value.literals
  | .ifThen _ test thenBranch => test.literals ++ thenBranch.literals
  | .ifThenElse _ test thenBranch elseBranch =>
    test.literals ++ (thenBranch.literals ++ elseBranch.literals)
  | .whileLoop _ test body => test.literals ++ body.literals
  | .doLoop _ body test => body.literals ++ test.literals
  | .forLoop _ init test update body =>
    init.literals ++ (test.elim [] Expr.literals ++
      (Expr.literalsOfAll update ++ body.literals))
  | .forEach _ _ _ iterable body => iterable.literals ++ body.literals
  | .returns _ value => value.elim [] Expr.literals

def literalsOfAll : List (Stmt α τ) → List (Position × α)
  | [] => []
  | stmt :: rest => stmt.literals ++ literalsOfAll rest

end

theorem literalsOfAll_eq_flatMap (stmts : List (Stmt α τ)) :
    literalsOfAll stmts = stmts.flatMap literals := by
  induction stmts with
  | nil => rfl
  | cons stmt rest ih => rw [literalsOfAll, ih, List.flatMap_cons]

end Stmt

/-! ### Literals of tokens -/

@[simp]
theorem isLiteral_symbol (mark : Symbol) : isLiteral (.symbol mark) = false := by
  simp [isLiteral]

@[simp]
theorem isLiteral_name (text : String) : isLiteral (.name text) = false := by
  simp [isLiteral]

@[simp]
theorem isLiteral_keyword {word : Keyword} (h : word ∉ [.trueWord, .falseWord, .nullWord]) :
    isLiteral (.keyword word) = false := by
  cases word <;> first | rfl | simp at h

/-- The literal that a token writes, and its place. -/
def Token.literal? (token : Token) : Option (Position × Lexeme) :=
  bif isLiteral token.lexeme then some (token.position, token.lexeme) else none

/-- The literals that tokens write. -/
def literalsOf (tokens : List Token) : List (Position × Lexeme) :=
  tokens.filterMap Token.literal?

theorem Token.literal?_none {token : Token} (h : isLiteral token.lexeme = false) :
    token.literal? = none := by
  rw [literal?, h, cond_false]

theorem mem_literalsOf {tokens : List Token} {p : Position} {lexeme : Lexeme} :
    (p, lexeme) ∈ literalsOf tokens ↔ ⟨lexeme, p⟩ ∈ tokens ∧ isLiteral lexeme = true := by
  simp only [literalsOf, List.mem_filterMap, Token.literal?]
  constructor
  · rintro ⟨token, isIn, same⟩
    cases writes : isLiteral token.lexeme with
    | false => simp [writes] at same
    | true =>
      obtain ⟨rfl, rfl⟩ : token.position = p ∧ token.lexeme = lexeme := by simpa [writes] using same
      exact ⟨isIn, writes⟩
  · rintro ⟨isIn, writes⟩
    exact ⟨_, isIn, by simp [writes]⟩

@[simp]
theorem literalsOf_nil : literalsOf [] = [] := rfl

@[simp]
theorem literalsOf_append (front back : List Token) :
    literalsOf (front ++ back) = literalsOf front ++ literalsOf back :=
  List.filterMap_append

theorem literalsOf_cons {token : Token} (h : isLiteral token.lexeme = false)
    (rest : List Token) : literalsOf (token :: rest) = literalsOf rest :=
  List.filterMap_cons_none (Token.literal?_none h)

@[simp]
theorem literalsOf_plain {lexeme : Lexeme} {p : Position} {rest : List Token}
    (h : isLiteral lexeme = false) : literalsOf (⟨lexeme, p⟩ :: rest) = literalsOf rest :=
  literalsOf_cons h rest

theorem literalsOf_none {tokens : List Token}
    (h : ∀ token ∈ tokens, isLiteral token.lexeme = false) : literalsOf tokens = [] :=
  List.filterMap_eq_nil_iff.mpr fun token isIn => Token.literal?_none (h token isIn)

theorem literalsOf_flatMap {ι : Type} (f : ι → List Token) (items : List ι) :
    literalsOf (items.flatMap f) = items.flatMap fun item => literalsOf (f item) :=
  List.filterMap_flatMap

namespace Grammar

theorem DottedRest.literals {tokens : List Token} {text : String} (h : DottedRest tokens text) :
    literalsOf tokens = [] := by
  induction h with
  | nil => rfl
  | cons _ ih => exact ih

theorem Dotted.literals {tokens : List Token} {type : TypeName Unit} (h : Dotted tokens type) :
    literalsOf tokens = [] := by
  cases h with
  | mk rest => exact rest.literals

theorem DeclaredType.noLiteral {token : Token} {type : TypeName Unit}
    (h : DeclaredType token type) : isLiteral token.lexeme = false := by
  cases h <;> rfl

theorem Separated.literals {parts : List (List Token)} {tokens : List Token}
    (h : Separated parts tokens) : literalsOf tokens = parts.flatMap literalsOf := by
  induction h with
  | nil => rfl
  | one tokens => simp
  | cons _ ih => simp [ih]

theorem literals_separated {ι : Type} {parts : List (List Token × ι)} {tokens : List Token}
    {f : ι → List (Position × Lexeme)} (each : ∀ part ∈ parts, literalsOf part.1 = f part.2)
    (separated : Separated (parts.map Prod.fst) tokens) :
    literalsOf tokens = (parts.map Prod.snd).flatMap f := by
  rw [separated.literals, List.flatMap_map, List.flatMap_map]
  exact List.flatMap_congr each

theorem literals_arguments {args : List (List Token × Parsed)} {inner : List Token}
    (each : ∀ arg ∈ args, literalsOf arg.1 = arg.2.expr.literals)
    (separated : Separated (args.map Prod.fst) inner) :
    literalsOf inner = Expr.literalsOfAll (args.map (·.2.expr)) := by
  rw [Expr.literalsOfAll_eq_flatMap, List.flatMap_map, separated.literals, List.flatMap_map]
  exact List.flatMap_congr each

/-- **The literals of an expression are those of its tokens.** -/
theorem Derives.literals {phrase : Phrase} {tokens : List Token} {v : Parsed}
    (h : Derives phrase tokens v) : literalsOf tokens = v.expr.literals := by
  induction h with
  | unassigned _ ih | unconditional _ ih | tighter _ ih | operand _ ih | unadorned _ ih
  | unsuffixed _ ih | unary _ _ ih | stepBefore _ ih | castReference _ ih
  | castPrimitive _ ih => exact ih
  | assign _ _ _ ih ih' | binary _ _ _ ih ih' | logical _ _ _ ih ih' | index _ _ ih ih' =>
    simp [Expr.literals, ih, ih']
  | conditional _ _ _ ih ih' ih'' =>
    simp [Expr.literals, ih, ih', ih'']
  | instanceOf _ name ih =>
    simp [Expr.literals, ih, name.literals]
  | parentheses _ ih => simp [ih]
  | field _ ih | stepBehind _ ih =>
    simp [Expr.literals, ih]
  | methodCall _ _ separated ih ih' =>
    simp [Expr.literals, ih, literals_arguments ih' separated]
  | @literal lexeme p writes =>
    exact List.filterMap_cons_some (by rw [Token.literal?, Parser.literal_read writes, cond_true])
  | name => rfl
  | call _ separated ih =>
    simp [Expr.literals, literals_arguments ih separated]
  | new name _ separated ih =>
    simp [Expr.literals, name.literals,
      literals_arguments ih separated]

/-! ### Statements -/

theorem Declares.literals {tokens : List Token} {declarator : Declarator Lexeme Unit}
    (h : Declares tokens declarator) : literalsOf tokens = declarator.literals := by
  cases h with
  | bare => rfl
  | initial derived => exact derived.literals

theorem Declarators.literals {tokens : List Token} {names : List (Declarator Lexeme Unit)}
    (h : Declarators tokens names) : literalsOf tokens = names.flatMap Declarator.literals := by
  obtain ⟨parts, -, declares, separated, rfl⟩ := h
  exact literals_separated (fun part isIn => (declares part isIn).literals) separated

theorem Expressions.literals {tokens : List Token} {values : List Parsed}
    (h : Expressions tokens values) :
    literalsOf tokens = values.flatMap fun value => value.expr.literals := by
  obtain ⟨parts, derived, separated, rfl⟩ := h
  exact literals_separated (fun part isIn => (derived part isIn).literals) separated

theorem Initial.literals {tokens : List Token} {init : ForInit Lexeme Unit}
    (h : Initial tokens init) : literalsOf tokens = init.literals := by
  cases h with
  | none => rfl
  | declaration type names =>
    rw [literalsOf_cons type.noLiteral]
    exact names.literals
  | expressions _ derived =>
    rw [ForInit.literals, List.flatMap_map]
    exact derived.literals

theorem Optional.literals {tokens : List Token} {value : Option SourceExpr}
    (h : Optional tokens value) : literalsOf tokens = value.elim [] Expr.literals := by
  cases h with
  | none => rfl
  | some derived => exact derived.literals

theorem literals_statements {parts : List (List Token × SourceStmt)}
    (each : ∀ part ∈ parts, literalsOf part.1 = part.2.literals) :
    literalsOf (parts.flatMap Prod.fst) = Stmt.literalsOfAll (parts.map Prod.snd) := by
  rw [literalsOf_flatMap, Stmt.literalsOfAll_eq_flatMap, List.flatMap_map]
  exact List.flatMap_congr each

/-- **The literals of a statement are those of its tokens.** -/
theorem Statement.literals {tokens : List Token} {s : SourceStmt} (h : Statement tokens s) :
    literalsOf tokens = s.literals := by
  induction h with
  | block _ ih => simp [Stmt.literals, literals_statements ih]
  | empty | breaks | continues => rfl
  | declaration type names =>
    simp [Stmt.literals, literalsOf_cons type.noLiteral,
      names.literals]
  | expression derived => simp [Stmt.literals, derived.literals]
  | ifThen test _ ih | whileLoop test _ ih | doLoop _ test ih =>
    simp [Stmt.literals, test.literals, ih]
  | ifThenElse test _ _ ih ih' =>
    simp [Stmt.literals, test.literals, ih, ih']
  | forLoop init test update _ ih =>
    simp [Stmt.literals, init.literals, test.literals,
      update.literals, Expr.literalsOfAll_eq_flatMap, List.flatMap_map, ih]
  | forEach type values _ ih =>
    simp [Stmt.literals, literalsOf_cons type.noLiteral,
      values.literals, ih]
  | returns value => simp [Stmt.literals, value.literals]

/-- The literals of a body are those of its tokens. -/
theorem Body.literals {tokens : List Token} {body : List SourceStmt} (h : Body tokens body) :
    literalsOf tokens = Stmt.literalsOfAll body := by
  obtain ⟨parts, written, rfl, rfl⟩ := h
  exact literals_statements fun part isIn => (written part isIn).literals

end Grammar

/-! ### Folding -/

theorem Fold.literals_foldFrom (skip : Nat) (previous : Option Token) (tokens : List Token) :
    literalsOf (foldFrom skip previous tokens) = literalsOf (tokens.drop skip) := by
  induction tokens generalizing skip previous with
  | nil => cases skip <;> rfl
  | cons token rest ih =>
    cases skip with
    | succ skip => exact ih skip (some token)
    | zero =>
      rw [foldFrom]
      split
      · next folded count found =>
        obtain ⟨front, back, same, isCount, folds⟩ := found_folds found
        obtain ⟨noFolded, noFront⟩ := List.forall_mem_cons.mp folds.noLiteral
        have behind : rest.drop (count - 1) = back := by
          obtain ⟨first, front, rfl⟩ := List.exists_cons_of_ne_nil folds.some
          rw [List.cons_append] at same
          obtain ⟨-, rfl⟩ := List.cons.inj same
          rw [← isCount, List.length_cons, Nat.add_sub_cancel, List.drop_left]
        rw [literalsOf_cons noFolded, ih, behind, List.drop_zero, same, literalsOf_append,
          literalsOf_none noFront, List.nil_append]
      · rw [List.drop_zero, ← List.singleton_append, literalsOf_append, ih, List.drop_zero,
          ← literalsOf_append, List.singleton_append]

/-- **Folding type names keeps the literals of tokens.** -/
theorem Fold.literals_fold (tokens : List Token) : literalsOf (fold tokens) = literalsOf tokens :=
  literals_foldFrom 0 none tokens

/-! ### Reading literals -/

/-- Two literals at one place, the second of which is what the first one is read as. -/
def ReadAs (g : α → Except ε β) (written : Position × α) (read : Position × β) : Prop :=
  read.1 = written.1 ∧ g written.2 = .ok read.2

section Reading

variable {g : α → Except ε β}

namespace Expr

mutual

/-- Reading the literals of an expression reads each for itself. -/
theorem literals_mapLiterals : ∀ (e : Expr α τ) (v : Expr β τ), e.mapLiterals g = .ok v →
    List.Forall₂ (ReadAs g) e.literals v.literals
  | .literal .., v, h => by
    obtain ⟨value, read, h⟩ := Check.bind_ok.mp h
    cases h
    exact .cons ⟨rfl, read⟩ .nil
  | .name .., v, h | .typeName .., v, h => by
    cases h
    exact .nil
  | .field _ receiver _, v, h => by
    obtain ⟨w, read, h⟩ := Check.bind_ok.mp h
    cases h
    exact literals_mapLiterals receiver w read
  | .methodCall _ receiver _ args, v, h => by
    obtain ⟨w, read, h⟩ := Check.bind_ok.mp h
    obtain ⟨ws, readAll, h⟩ := Check.bind_ok.mp h
    cases h
    exact List.rel_append (literals_mapLiterals receiver w read)
      (literals_mapAllLiterals args ws readAll)
  | .call _ _ args, v, h => by
    obtain ⟨ws, readAll, h⟩ := Check.bind_ok.mp h
    cases h
    exact literals_mapAllLiterals args ws readAll
  | .index _ container place, v, h => by
    obtain ⟨w, read, h⟩ := Check.bind_ok.mp h
    obtain ⟨w', read', h⟩ := Check.bind_ok.mp h
    cases h
    exact List.rel_append (literals_mapLiterals container w read)
      (literals_mapLiterals place w' read')
  | .unary _ _ operand, v, h => by
    obtain ⟨w, read, h⟩ := Check.bind_ok.mp h
    cases h
    exact literals_mapLiterals operand w read
  | .step _ _ target _, v, h => by
    obtain ⟨w, read, h⟩ := Check.bind_ok.mp h
    cases h
    exact literals_mapLiterals target w read
  | .binary _ _ left right, v, h | .logical _ _ left right, v, h => by
    obtain ⟨w, read, h⟩ := Check.bind_ok.mp h
    obtain ⟨w', read', h⟩ := Check.bind_ok.mp h
    cases h
    exact List.rel_append (literals_mapLiterals left w read)
      (literals_mapLiterals right w' read')
  | .conditional _ test thenValue elseValue, v, h => by
    obtain ⟨w, read, h⟩ := Check.bind_ok.mp h
    obtain ⟨w', read', h⟩ := Check.bind_ok.mp h
    obtain ⟨w'', read'', h⟩ := Check.bind_ok.mp h
    cases h
    exact List.rel_append (literals_mapLiterals test w read)
      (List.rel_append (literals_mapLiterals thenValue w' read')
        (literals_mapLiterals elseValue w'' read''))
  | .assign _ _ target value, v, h => by
    obtain ⟨w, read, h⟩ := Check.bind_ok.mp h
    obtain ⟨w', read', h⟩ := Check.bind_ok.mp h
    cases h
    exact List.rel_append (literals_mapLiterals target w read)
      (literals_mapLiterals value w' read')
  | .cast _ _ operand, v, h => by
    obtain ⟨w, read, h⟩ := Check.bind_ok.mp h
    cases h
    exact literals_mapLiterals operand w read
  | .instanceOf _ value _, v, h => by
    obtain ⟨w, read, h⟩ := Check.bind_ok.mp h
    cases h
    exact literals_mapLiterals value w read
  | .new _ _ args, v, h => by
    obtain ⟨ws, readAll, h⟩ := Check.bind_ok.mp h
    cases h
    exact literals_mapAllLiterals args ws readAll

theorem literals_mapAllLiterals : ∀ (es : List (Expr α τ)) (vs : List (Expr β τ)),
    mapAllLiterals g es = .ok vs → List.Forall₂ (ReadAs g) (literalsOfAll es) (literalsOfAll vs)
  | [], vs, h => by
    cases h
    exact .nil
  | e :: rest, vs, h => by
    obtain ⟨w, read, h⟩ := Check.bind_ok.mp h
    obtain ⟨ws, readAll, h⟩ := Check.bind_ok.mp h
    cases h
    exact List.rel_append (literals_mapLiterals e w read)
      (literals_mapAllLiterals rest ws readAll)

end

theorem literals_mapLiterals? {value : Option (Expr α τ)} {read : Option (Expr β τ)}
    (h : mapLiterals? g value = .ok read) :
    List.Forall₂ (ReadAs g) (value.elim [] literals) (read.elim [] literals) := by
  cases value with
  | none =>
    cases h
    exact .nil
  | some e =>
    simp only [mapLiterals?] at h
    cases found : e.mapLiterals g with
    | error error =>
      rw [found] at h
      cases h
    | ok v =>
      rw [found] at h
      cases h
      exact literals_mapLiterals e v found

end Expr

/-- What is read piece by piece has its literals read piece by piece. -/
theorem literals_mapM {ι υ : Type} {k : ι → Except ε υ} {literals : ι → List (Position × α)}
    {literals' : υ → List (Position × β)}
    (reads : ∀ a b, k a = .ok b → List.Forall₂ (ReadAs g) (literals a) (literals' b))
    (items : List ι) {read : List υ} (h : items.mapM k = .ok read) :
    List.Forall₂ (ReadAs g) (items.flatMap literals) (read.flatMap literals') := by
  induction items generalizing read with
  | nil =>
    cases h
    exact .nil
  | cons item rest ih =>
    rw [List.mapM_cons] at h
    obtain ⟨first, isFirst, h⟩ := Check.bind_ok.mp h
    obtain ⟨others, isRest, h⟩ := Check.bind_ok.mp h
    cases h
    rw [List.flatMap_cons, List.flatMap_cons]
    exact List.rel_append (reads item first isFirst) (ih isRest)

theorem Declarator.literals_mapLiterals (declarator : Declarator α τ) (read : Declarator β τ)
    (h : declarator.mapLiterals g = .ok read) :
    List.Forall₂ (ReadAs g) declarator.literals read.literals := by
  obtain ⟨value, isValue, h⟩ := Check.bind_ok.mp h
  cases h
  exact Expr.literals_mapLiterals? isValue

theorem ForInit.literals_mapLiterals (init : ForInit α τ) (read : ForInit β τ)
    (h : init.mapLiterals g = .ok read) :
    List.Forall₂ (ReadAs g) init.literals read.literals := by
  cases init with
  | none =>
    cases h
    exact .nil
  | declaration position type names =>
    obtain ⟨names', isNames, h⟩ := Check.bind_ok.mp h
    cases h
    exact literals_mapM Declarator.literals_mapLiterals names isNames
  | expressions values =>
    obtain ⟨values', isValues, h⟩ := Check.bind_ok.mp h
    cases h
    refine literals_mapM (fun value value' isValue => ?_) values isValues
    obtain ⟨w, read, isPlaced⟩ := Check.bind_ok.mp isValue
    cases isPlaced
    exact Expr.literals_mapLiterals value.2 w read

namespace Stmt

mutual

/-- Reading the literals of a statement reads each for itself. -/
theorem literals_mapLiterals : ∀ (s : Stmt α τ) (t : Stmt β τ), s.mapLiterals g = .ok t →
    List.Forall₂ (ReadAs g) s.literals t.literals
  | .block _ inner, t, h => by
    obtain ⟨inner', read, h⟩ := Check.bind_ok.mp h
    cases h
    exact literals_mapAllLiterals inner inner' read
  | .empty _, t, h | .breaks _, t, h | .continues _, t, h => by
    cases h
    exact .nil
  | .declaration _ _ names, t, h => by
    obtain ⟨names', read, h⟩ := Check.bind_ok.mp h
    cases h
    exact literals_mapM Declarator.literals_mapLiterals names read
  | .expression _ value, t, h => by
    obtain ⟨value', read, h⟩ := Check.bind_ok.mp h
    cases h
    exact Expr.literals_mapLiterals value value' read
  | .ifThen _ test thenBranch, t, h => by
    obtain ⟨test', isTest, h⟩ := Check.bind_ok.mp h
    obtain ⟨then', isThen, h⟩ := Check.bind_ok.mp h
    cases h
    exact List.rel_append (Expr.literals_mapLiterals test test' isTest)
      (literals_mapLiterals thenBranch then' isThen)
  | .ifThenElse _ test thenBranch elseBranch, t, h => by
    obtain ⟨else', isElse, h⟩ := Check.bind_ok.mp h
    obtain ⟨test', isTest, h⟩ := Check.bind_ok.mp h
    obtain ⟨then', isThen, h⟩ := Check.bind_ok.mp h
    cases h
    exact List.rel_append (Expr.literals_mapLiterals test test' isTest)
      (List.rel_append (literals_mapLiterals thenBranch then' isThen)
        (literals_mapLiterals elseBranch else' isElse))
  | .whileLoop _ test body, t, h => by
    obtain ⟨test', isTest, h⟩ := Check.bind_ok.mp h
    obtain ⟨body', isBody, h⟩ := Check.bind_ok.mp h
    cases h
    exact List.rel_append (Expr.literals_mapLiterals test test' isTest)
      (literals_mapLiterals body body' isBody)
  | .doLoop _ body test, t, h => by
    obtain ⟨body', isBody, h⟩ := Check.bind_ok.mp h
    obtain ⟨test', isTest, h⟩ := Check.bind_ok.mp h
    cases h
    exact List.rel_append (literals_mapLiterals body body' isBody)
      (Expr.literals_mapLiterals test test' isTest)
  | .forLoop _ init test update body, t, h => by
    obtain ⟨init', isInit, h⟩ := Check.bind_ok.mp h
    obtain ⟨test', isTest, h⟩ := Check.bind_ok.mp h
    obtain ⟨update', isUpdate, h⟩ := Check.bind_ok.mp h
    obtain ⟨body', isBody, h⟩ := Check.bind_ok.mp h
    cases h
    exact List.rel_append (ForInit.literals_mapLiterals init init' isInit)
      (List.rel_append (Expr.literals_mapLiterals? isTest)
        (List.rel_append (Expr.literals_mapAllLiterals update update' isUpdate)
          (literals_mapLiterals body body' isBody)))
  | .forEach _ _ _ iterable body, t, h => by
    obtain ⟨iterable', isIterable, h⟩ := Check.bind_ok.mp h
    obtain ⟨body', isBody, h⟩ := Check.bind_ok.mp h
    cases h
    exact List.rel_append (Expr.literals_mapLiterals iterable iterable' isIterable)
      (literals_mapLiterals body body' isBody)
  | .returns _ value, t, h => by
    obtain ⟨value', isValue, h⟩ := Check.bind_ok.mp h
    cases h
    exact Expr.literals_mapLiterals? isValue

/-- Reading the literals of a body reads each for itself. -/
theorem literals_mapAllLiterals : ∀ (ss : List (Stmt α τ)) (ts : List (Stmt β τ)),
    mapAllLiterals g ss = .ok ts → List.Forall₂ (ReadAs g) (literalsOfAll ss) (literalsOfAll ts)
  | [], ts, h => by
    cases h
    exact .nil
  | s :: rest, ts, h => by
    obtain ⟨t, read, h⟩ := Check.bind_ok.mp h
    obtain ⟨others, readAll, h⟩ := Check.bind_ok.mp h
    cases h
    exact List.rel_append (literals_mapLiterals s t read)
      (literals_mapAllLiterals rest others readAll)

end

end Stmt

end Reading

/-! ### Bodies -/

/-- **The literals of a body are those of its text, read one by one.** -/
theorem readBody_literals {text : List Char} {body : List ParsedStmt}
    (h : readBody text = .ok body) : ∃ tokens, Lexer.tokens text = .ok tokens ∧
      List.Forall₂ (ReadAs Literal.value) (literalsOf tokens) (Stmt.literalsOfAll body) := by
  cases scanned : Lexer.tokens text with
  | error illegal =>
    rw [readBody, parseSource, scanned] at h
    cases h
  | ok tokens =>
    obtain ⟨statements, derived, -, -, read⟩ :=
      ((Parser.readBody_grammar scanned).1 body).mp h
    refine ⟨tokens, rfl, ?_⟩
    rw [← Fold.literals_fold, derived.literals]
    exact Stmt.literals_mapAllLiterals statements body read

end Formulary
