/-
The names that a text writes.

What a tree looks up among the variables, declares or calls has been written as a name: that of a
variable somewhere among the tokens, that of a callee in front of a parenthesis.

* `Names` — the names that tokens write.
* `Derives.names`, `Statement.names`, `Body.names` — those that a tree mentions are among them.
* `Stmt.mentions_mapAllLiterals` — reading its literals leaves the names of a tree.
-/

import Formulary.Proofs.Checking
import Formulary.Proofs.RelabeledGrammar

namespace Formulary

theorem Expr.mem_mentionsOfAll {α τ : Type} {m : Mention} {exprs : List (Expr α τ)} :
    m ∈ mentionsOfAll exprs ↔ ∃ expr ∈ exprs, m ∈ expr.mentions := by
  induction exprs with
  | nil => simp [mentionsOfAll]
  | cons expr exprs ih => simp [mentionsOfAll, ih]

theorem Stmt.mem_mentionsOfAll {α τ : Type} {m : Mention} {stmts : List (Stmt α τ)} :
    m ∈ mentionsOfAll stmts ↔ ∃ stmt ∈ stmts, m ∈ stmt.mentions := by
  induction stmts with
  | nil => simp [mentionsOfAll]
  | cons stmt stmts ih => simp [mentionsOfAll, ih]

namespace Grammar

/-- Tokens that write a name which is looked up: that of a variable, or one that is called. -/
def Names (tokens : List Token) : Mention → Prop
  | .variable name => ∃ p, ⟨.name name, p⟩ ∈ tokens
  | .callee name => ∃ p q, [⟨.name name, p⟩, ⟨.symbol .leftParen, q⟩] <:+: tokens

/-- Tokens that write all names of a tree. -/
def NamesAll (tokens : List Token) (mentions : List Mention) : Prop :=
  ∀ m ∈ mentions, Names tokens m

namespace NamesAll

variable {part whole : List Token} {mentions more : List Mention}

theorem nil (tokens : List Token) : NamesAll tokens [] := List.forall_mem_nil _

theorem within (h : NamesAll part mentions) (inside : part <:+: whole) :
    NamesAll whole mentions := by
  intro m isIn
  have named := h m isIn
  cases m with
  | «variable» name =>
    obtain ⟨p, written⟩ := named
    exact ⟨p, inside.subset written⟩
  | callee name =>
    obtain ⟨p, q, written⟩ := named
    exact ⟨p, q, written.trans inside⟩

theorem append (h : NamesAll whole mentions) (h' : NamesAll whole more) :
    NamesAll whole (mentions ++ more) :=
  List.forall_mem_append.mpr ⟨h, h'⟩

theorem front {rest : List Token} (h : NamesAll part mentions) :
    NamesAll (part ++ rest) mentions :=
  h.within (List.prefix_append part rest).isInfix

theorem behind (h : NamesAll part mentions) (before : List Token) :
    NamesAll (before ++ part) mentions :=
  h.within (List.suffix_append before part).isInfix

theorem cons {token : Token} (h : NamesAll part mentions) : NamesAll (token :: part) mentions :=
  h.within (List.suffix_cons token part).isInfix

end NamesAll

theorem Separated.inside {parts : List (List Token)} {tokens : List Token}
    (h : Separated parts tokens) : ∀ part ∈ parts, part <:+: tokens := by
  induction h with
  | nil => exact List.forall_mem_nil _
  | one tokens => exact List.forall_mem_singleton.mpr List.infix_rfl
  | @cons p first second joined more _ ih =>
    refine List.forall_mem_cons.mpr ⟨(List.prefix_append _ _).isInfix, fun part isIn => ?_⟩
    refine (ih part isIn).trans ⟨first ++ [⟨.symbol .comma, p⟩], [], ?_⟩
    simp

theorem names_arguments {args : List (List Token × Parsed)} {inner : List Token}
    (each : ∀ arg ∈ args, NamesAll arg.1 arg.2.expr.mentions)
    (separated : Separated (args.map Prod.fst) inner) :
    NamesAll inner (Expr.mentionsOfAll (args.map (·.2.expr))) := by
  intro m isIn
  obtain ⟨expr, isArg, mentioned⟩ := Expr.mem_mentionsOfAll.mp isIn
  obtain ⟨arg, inArgs, rfl⟩ := List.mem_map.mp isArg
  have inside := separated.inside _ (List.mem_map_of_mem inArgs)
  exact (each arg inArgs).within inside m mentioned

/-- **The names of an expression are written.** -/
theorem Derives.names {phrase : Phrase} {tokens : List Token} {v : Parsed}
    (h : Derives phrase tokens v) : NamesAll tokens v.expr.mentions := by
  induction h with
  | unassigned _ ih | unconditional _ ih | tighter _ ih | operand _ ih | unadorned _ ih
  | unsuffixed _ ih => exact ih
  | assign _ _ _ ih ih' | binary _ _ _ ih ih' | logical _ _ _ ih ih' =>
    exact ih.front.append (ih'.cons.behind _)
  | conditional _ _ _ ih ih' ih'' =>
    exact ih.front.append ((ih'.front.cons.behind _).append ((ih''.cons.behind _).cons.behind _))
  | instanceOf _ _ ih => exact ih.front
  | unary _ _ ih | stepBefore _ ih | castReference _ ih => exact ih.cons
  | castPrimitive _ ih => exact ih.cons.cons.cons
  | field _ ih | stepBehind _ ih => exact ih.front
  | methodCall _ _ separated ih ih' =>
    have inner := names_arguments ih' separated
    exact ih.front.append (inner.front.cons.cons.cons.behind _)
  | index _ _ ih ih' => exact ih.front.append (ih'.front.cons.behind _)
  | literal _ => exact .nil _
  | @name text p =>
    rw [NamesAll, Expr.mentions, List.forall_mem_singleton]
    exact ⟨p, List.mem_singleton_self _⟩
  | @call _ _ text p q _ _ separated ih =>
    have called : NamesAll [⟨.name text, p⟩, ⟨.symbol .leftParen, q⟩] [.callee text] := by
      rw [NamesAll, List.forall_mem_singleton]
      exact ⟨p, q, List.infix_rfl⟩
    exact .append called.front (names_arguments ih separated).front.cons.cons
  | parentheses _ ih => exact ih.front.cons
  | new _ _ separated ih => exact ((names_arguments ih separated).front.cons.behind _).cons

/-! ### Statements -/

theorem Declares.names {tokens : List Token} {declarator : Declarator Lexeme Unit}
    (h : Declares tokens declarator) : NamesAll tokens declarator.mentions := by
  cases h with
  | bare name p => exact List.forall_mem_singleton.mpr ⟨p, List.mem_singleton_self _⟩
  | @initial name p q tokens value derived =>
    refine (derived.names.cons.cons).append (List.forall_mem_singleton.mpr ?_)
    exact ⟨p, List.mem_cons_self⟩

theorem Declarators.names {tokens : List Token} {names : List (Declarator Lexeme Unit)}
    (h : Declarators tokens names) : NamesAll tokens (names.flatMap Declarator.mentions) := by
  obtain ⟨parts, -, declares, separated, rfl⟩ := h
  intro m isIn
  obtain ⟨declarator, isName, mentioned⟩ := List.mem_flatMap.mp isIn
  obtain ⟨part, inParts, rfl⟩ := List.mem_map.mp isName
  have inside := separated.inside _ (List.mem_map_of_mem inParts)
  exact (declares part inParts).names.within inside m mentioned

theorem Expressions.names {tokens : List Token} {values : List Parsed}
    (h : Expressions tokens values) :
    NamesAll tokens (Expr.mentionsOfAll (values.map Parsed.expr)) := by
  obtain ⟨parts, derived, separated, rfl⟩ := h
  rw [List.map_map]
  exact names_arguments (fun part isIn => (derived part isIn).names) separated

theorem Initial.names {tokens : List Token} {init : ForInit Lexeme Unit} (h : Initial tokens init) :
    NamesAll tokens init.mentions := by
  cases h with
  | none => exact .nil _
  | declaration _ names => exact names.names.cons
  | @expressions _ values _ derived =>
    intro m isIn
    obtain ⟨placed, isPlaced, mentioned⟩ := List.mem_flatMap.mp isIn
    obtain ⟨value, isValue, rfl⟩ := List.mem_map.mp isPlaced
    exact derived.names m
      (Expr.mem_mentionsOfAll.mpr ⟨_, List.mem_map_of_mem isValue, mentioned⟩)

theorem Optional.names {tokens : List Token} {value : Option SourceExpr}
    (h : Optional tokens value) : NamesAll tokens (value.elim [] Expr.mentions) := by
  cases h with
  | none => exact .nil _
  | some derived => exact derived.names

theorem names_statements {parts : List (List Token × SourceStmt)}
    (each : ∀ part ∈ parts, NamesAll part.1 part.2.mentions) :
    NamesAll (parts.flatMap Prod.fst) (Stmt.mentionsOfAll (parts.map Prod.snd)) := by
  intro m isIn
  obtain ⟨stmt, isStmt, mentioned⟩ := Stmt.mem_mentionsOfAll.mp isIn
  obtain ⟨part, inParts, rfl⟩ := List.mem_map.mp isStmt
  have inside : part.1 <:+: parts.flatMap Prod.fst := by
    obtain ⟨before, behind, rfl⟩ := List.append_of_mem inParts
    rw [List.flatMap_append, List.flatMap_cons, ← List.append_assoc]
    exact List.infix_append _ _ _
  exact (each part inParts).within inside m mentioned

/-- **The names of a statement are written.** -/
theorem Statement.names {tokens : List Token} {s : SourceStmt} (h : Statement tokens s) :
    NamesAll tokens s.mentions := by
  induction h with
  | block _ ih => exact (names_statements ih).front.cons
  | empty _ | breaks _ _ | continues _ _ => exact .nil _
  | declaration _ names => exact names.names.front.cons
  | expression derived => exact derived.names.front
  | ifThen test _ ih | whileLoop test _ ih =>
    exact (test.names.front.append (ih.cons.behind _)).cons.cons
  | ifThenElse test _ _ ih ih' =>
    refine .cons (.cons (test.names.front.append ?_))
    exact (ih.front.append (ih'.cons.behind _)).cons.behind _
  | doLoop _ test ih =>
    exact (ih.front.append (test.names.front.cons.cons.behind _)).cons
  | forLoop init test update _ ih =>
    refine .cons (.cons (init.names.front.append (.behind (.cons ?_) _)))
    refine test.names.front.append (.behind (.cons ?_) _)
    exact update.names.front.append (ih.cons.behind _)
  | @forEach token type name _ _ _ _ p q r _ _ _ values _ ih =>
    have alone : NamesAll [⟨.name name, r⟩] [.variable name] := by
      rw [NamesAll, List.forall_mem_singleton]
      exact ⟨r, List.mem_singleton_self _⟩
    refine .cons (.cons (.cons (.append ?_ (.append (alone.front) ?_))))
    · exact values.names.front.cons.cons
    · exact ((ih.cons.behind _).cons).cons
  | returns value => exact value.names.front.cons

/-- The names of a body are written. -/
theorem Body.names {tokens : List Token} {body : List SourceStmt} (h : Body tokens body) :
    NamesAll tokens (Stmt.mentionsOfAll body) := by
  obtain ⟨parts, written, rfl, rfl⟩ := h
  exact names_statements fun part isIn => (written part isIn).names

end Grammar

/-! ### Reading literals -/

section Literals

variable {α β τ ε : Type} {g : α → Except ε β}

namespace Expr

mutual

/-- Reading its literals leaves the names of an expression. -/
theorem mentions_mapLiterals : ∀ (e : Expr α τ) (v : Expr β τ), e.mapLiterals g = .ok v →
    v.mentions = e.mentions
  | .literal .., v, h => by
    obtain ⟨value, -, h⟩ := Check.bind_ok.mp h
    cases h
    rfl
  | .name .., v, h | .typeName .., v, h => by
    cases h
    rfl
  | .field _ receiver _, v, h => by
    obtain ⟨w, read, h⟩ := Check.bind_ok.mp h
    cases h
    exact mentions_mapLiterals receiver w read
  | .methodCall _ receiver _ args, v, h => by
    obtain ⟨w, read, h⟩ := Check.bind_ok.mp h
    obtain ⟨ws, readAll, h⟩ := Check.bind_ok.mp h
    cases h
    exact congrArg₂ _ (mentions_mapLiterals receiver w read)
      (mentions_mapAllLiterals args ws readAll)
  | .call _ callee args, v, h => by
    obtain ⟨ws, readAll, h⟩ := Check.bind_ok.mp h
    cases h
    exact congrArg (.callee callee.name :: ·) (mentions_mapAllLiterals args ws readAll)
  | .index _ container place, v, h => by
    obtain ⟨w, read, h⟩ := Check.bind_ok.mp h
    obtain ⟨w', read', h⟩ := Check.bind_ok.mp h
    cases h
    exact congrArg₂ _ (mentions_mapLiterals container w read)
      (mentions_mapLiterals place w' read')
  | .unary _ _ operand, v, h => by
    obtain ⟨w, read, h⟩ := Check.bind_ok.mp h
    cases h
    exact mentions_mapLiterals operand w read
  | .step _ _ target _, v, h => by
    obtain ⟨w, read, h⟩ := Check.bind_ok.mp h
    cases h
    exact mentions_mapLiterals target w read
  | .binary _ _ left right, v, h | .logical _ _ left right, v, h => by
    obtain ⟨w, read, h⟩ := Check.bind_ok.mp h
    obtain ⟨w', read', h⟩ := Check.bind_ok.mp h
    cases h
    exact congrArg₂ _ (mentions_mapLiterals left w read) (mentions_mapLiterals right w' read')
  | .conditional _ test thenValue elseValue, v, h => by
    obtain ⟨w, read, h⟩ := Check.bind_ok.mp h
    obtain ⟨w', read', h⟩ := Check.bind_ok.mp h
    obtain ⟨w'', read'', h⟩ := Check.bind_ok.mp h
    cases h
    exact congrArg₂ _ (mentions_mapLiterals test w read)
      (congrArg₂ _ (mentions_mapLiterals thenValue w' read')
        (mentions_mapLiterals elseValue w'' read''))
  | .assign _ _ target value, v, h => by
    obtain ⟨w, read, h⟩ := Check.bind_ok.mp h
    obtain ⟨w', read', h⟩ := Check.bind_ok.mp h
    cases h
    exact congrArg₂ _ (mentions_mapLiterals target w read) (mentions_mapLiterals value w' read')
  | .cast _ _ operand, v, h => by
    obtain ⟨w, read, h⟩ := Check.bind_ok.mp h
    cases h
    exact mentions_mapLiterals operand w read
  | .instanceOf _ value _, v, h => by
    obtain ⟨w, read, h⟩ := Check.bind_ok.mp h
    cases h
    exact mentions_mapLiterals value w read
  | .new _ _ args, v, h => by
    obtain ⟨ws, readAll, h⟩ := Check.bind_ok.mp h
    cases h
    exact mentions_mapAllLiterals args ws readAll

theorem mentions_mapAllLiterals : ∀ (es : List (Expr α τ)) (vs : List (Expr β τ)),
    mapAllLiterals g es = .ok vs → mentionsOfAll vs = mentionsOfAll es
  | [], vs, h => by
    cases h
    rfl
  | e :: rest, vs, h => by
    obtain ⟨w, read, h⟩ := Check.bind_ok.mp h
    obtain ⟨ws, readAll, h⟩ := Check.bind_ok.mp h
    cases h
    exact congrArg₂ _ (mentions_mapLiterals e w read) (mentions_mapAllLiterals rest ws readAll)

end

theorem mentions_mapLiterals? {value : Option (Expr α τ)} {read : Option (Expr β τ)}
    (h : mapLiterals? g value = .ok read) :
    read.elim [] mentions = value.elim [] mentions := by
  cases value with
  | none =>
    cases h
    rfl
  | some e =>
    simp only [mapLiterals?] at h
    cases found : e.mapLiterals g with
    | error error =>
      rw [found] at h
      cases h
    | ok v =>
      rw [found] at h
      cases h
      exact mentions_mapLiterals e v found

end Expr

/-- What is read piece by piece has the names of the pieces. -/
theorem mentions_mapM {ι υ : Type} {k : ι → Except ε υ} {names : ι → List Mention}
    {names' : υ → List Mention} (keeps : ∀ a b, k a = .ok b → names' b = names a)
    (items : List ι) {read : List υ} (h : items.mapM k = .ok read) :
    read.flatMap names' = items.flatMap names := by
  induction items generalizing read with
  | nil =>
    cases h
    rfl
  | cons item rest ih =>
    rw [List.mapM_cons] at h
    obtain ⟨first, isFirst, h⟩ := Check.bind_ok.mp h
    obtain ⟨others, isRest, h⟩ := Check.bind_ok.mp h
    cases h
    rw [List.flatMap_cons, List.flatMap_cons, keeps item first isFirst, ih isRest]

theorem Declarator.mentions_mapLiterals (declarator : Declarator α τ) (read : Declarator β τ)
    (h : declarator.mapLiterals g = .ok read) : read.mentions = declarator.mentions := by
  obtain ⟨value, isValue, h⟩ := Check.bind_ok.mp h
  cases h
  exact congrArg (· ++ [.variable declarator.name]) (Expr.mentions_mapLiterals? isValue)

theorem ForInit.mentions_mapLiterals (init : ForInit α τ) (read : ForInit β τ)
    (h : init.mapLiterals g = .ok read) : read.mentions = init.mentions := by
  cases init with
  | none =>
    cases h
    rfl
  | declaration position type names =>
    obtain ⟨names', isNames, h⟩ := Check.bind_ok.mp h
    cases h
    exact mentions_mapM Declarator.mentions_mapLiterals names isNames
  | expressions values =>
    obtain ⟨values', isValues, h⟩ := Check.bind_ok.mp h
    cases h
    refine mentions_mapM (fun value value' isValue => ?_) values isValues
    obtain ⟨w, read, isPlaced⟩ := Check.bind_ok.mp isValue
    cases isPlaced
    exact Expr.mentions_mapLiterals value.2 w read

namespace Stmt

mutual

/-- Reading its literals leaves the names of a statement. -/
theorem mentions_mapLiterals : ∀ (s : Stmt α τ) (t : Stmt β τ), s.mapLiterals g = .ok t →
    t.mentions = s.mentions
  | .block _ inner, t, h => by
    obtain ⟨inner', read, h⟩ := Check.bind_ok.mp h
    cases h
    exact mentions_mapAllLiterals inner inner' read
  | .empty _, t, h | .breaks _, t, h | .continues _, t, h => by
    cases h
    rfl
  | .declaration _ _ names, t, h => by
    obtain ⟨names', read, h⟩ := Check.bind_ok.mp h
    cases h
    exact mentions_mapM Declarator.mentions_mapLiterals names read
  | .expression _ value, t, h => by
    obtain ⟨value', read, h⟩ := Check.bind_ok.mp h
    cases h
    exact Expr.mentions_mapLiterals value value' read
  | .ifThen _ test thenBranch, t, h => by
    obtain ⟨test', isTest, h⟩ := Check.bind_ok.mp h
    obtain ⟨then', isThen, h⟩ := Check.bind_ok.mp h
    cases h
    exact congrArg₂ _ (Expr.mentions_mapLiterals test test' isTest)
      (mentions_mapLiterals thenBranch then' isThen)
  | .ifThenElse _ test thenBranch elseBranch, t, h => by
    obtain ⟨else', isElse, h⟩ := Check.bind_ok.mp h
    obtain ⟨test', isTest, h⟩ := Check.bind_ok.mp h
    obtain ⟨then', isThen, h⟩ := Check.bind_ok.mp h
    cases h
    exact congrArg₂ _ (Expr.mentions_mapLiterals test test' isTest)
      (congrArg₂ _ (mentions_mapLiterals thenBranch then' isThen)
        (mentions_mapLiterals elseBranch else' isElse))
  | .whileLoop _ test body, t, h => by
    obtain ⟨test', isTest, h⟩ := Check.bind_ok.mp h
    obtain ⟨body', isBody, h⟩ := Check.bind_ok.mp h
    cases h
    exact congrArg₂ _ (Expr.mentions_mapLiterals test test' isTest)
      (mentions_mapLiterals body body' isBody)
  | .doLoop _ body test, t, h => by
    obtain ⟨body', isBody, h⟩ := Check.bind_ok.mp h
    obtain ⟨test', isTest, h⟩ := Check.bind_ok.mp h
    cases h
    exact congrArg₂ _ (mentions_mapLiterals body body' isBody)
      (Expr.mentions_mapLiterals test test' isTest)
  | .forLoop _ init test update body, t, h => by
    obtain ⟨init', isInit, h⟩ := Check.bind_ok.mp h
    obtain ⟨test', isTest, h⟩ := Check.bind_ok.mp h
    obtain ⟨update', isUpdate, h⟩ := Check.bind_ok.mp h
    obtain ⟨body', isBody, h⟩ := Check.bind_ok.mp h
    cases h
    simp only [mentions, ForInit.mentions_mapLiterals init init' isInit,
      Expr.mentions_mapLiterals? isTest, Expr.mentions_mapAllLiterals update update' isUpdate,
      mentions_mapLiterals body body' isBody]
  | .forEach _ _ name iterable body, t, h => by
    obtain ⟨iterable', isIterable, h⟩ := Check.bind_ok.mp h
    obtain ⟨body', isBody, h⟩ := Check.bind_ok.mp h
    cases h
    exact congrArg₂ _ (Expr.mentions_mapLiterals iterable iterable' isIterable)
      (congrArg (.variable name :: ·) (mentions_mapLiterals body body' isBody))
  | .returns _ value, t, h => by
    obtain ⟨value', isValue, h⟩ := Check.bind_ok.mp h
    cases h
    exact Expr.mentions_mapLiterals? isValue

/-- Reading its literals leaves the names of a body. -/
theorem mentions_mapAllLiterals : ∀ (ss : List (Stmt α τ)) (ts : List (Stmt β τ)),
    mapAllLiterals g ss = .ok ts → mentionsOfAll ts = mentionsOfAll ss
  | [], ts, h => by
    cases h
    rfl
  | s :: rest, ts, h => by
    obtain ⟨t, read, h⟩ := Check.bind_ok.mp h
    obtain ⟨others, readAll, h⟩ := Check.bind_ok.mp h
    cases h
    exact congrArg₂ _ (mentions_mapLiterals s t read)
      (mentions_mapAllLiterals rest others readAll)

end

end Stmt

end Literals

end Formulary
