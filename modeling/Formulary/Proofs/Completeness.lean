/-
Whatever the grammar derives, the parser reads.

How far a phrase goes depends on what stands behind it: a name in front of a parenthesis is the
name of a call, and an operator takes up the operand in front of it. `Stops` says of the tokens
behind a phrase that they leave it alone. In front of such tokens a derived phrase is read as
its derivation has it, given fuel enough.

* `Derives.yields` — every phrase of an expression, in one induction over derivations.
* `expressions_yields`, `arguments_yields` — lists of expressions.
-/

import Formulary.Proofs.Reading

namespace Formulary.Parser

open Grammar

/-! ### Enough fuel -/

section Yields

variable {α β : Type}

/-- A reading that ends well with some result, from some amount of fuel on. -/
def Yields (run : Nat → Except Failure (α × List Token)) (result : α × List Token) : Prop :=
  ∃ enough, ∀ fuel, enough ≤ fuel → run fuel = .ok result

namespace Yields

variable {run : Nat → Except Failure (α × List Token)} {result : α × List Token}

theorem pure : Yields (fun _ => .ok result) result :=
  ⟨0, fun _ _ => rfl⟩

/-- What a call yields is what its body yields. -/
theorem step (h : Yields (fun fuel => run (fuel + 1)) result) : Yields run result := by
  obtain ⟨enough, h⟩ := h
  refine ⟨enough + 1, fun fuel le => ?_⟩
  obtain ⟨fuel, rfl⟩ : ∃ less, fuel = less + 1 := ⟨fuel - 1, by omega⟩
  exact h fuel (Nat.le_of_succ_le_succ le)

theorem bind {next : Nat → α × List Token → Except Failure (β × List Token)}
    {last : β × List Token} (first : Yields run result)
    (goesOn : Yields (fun fuel => next fuel result) last) :
    Yields (fun fuel => run fuel >>= next fuel) last := by
  obtain ⟨enough, h⟩ := first
  obtain ⟨enough', h'⟩ := goesOn
  refine ⟨max enough enough', fun fuel le => ?_⟩
  dsimp only
  rw [h fuel (Nat.le_trans (Nat.le_max_left _ _) le)]
  exact h' fuel (Nat.le_trans (Nat.le_max_right _ _) le)

end Yields

end Yields

/-! ### Where phrases end -/

/-- The lexemes that take up an operand in front of them as something larger. -/
def continuesOperand (lexeme : Lexeme) : Bool :=
  match lexeme with
  | .symbol .dot | .symbol .leftBracket | .symbol .leftParen | .symbol (.step _) => true
  | _ => false

/-- Whether a lexeme takes up a phrase in front of it. -/
def continues (phrase : Phrase) (lexeme : Lexeme) : Bool :=
  match phrase with
  | .primary => lexeme == .symbol .leftParen
  | .suffixed => lexeme == .symbol .leftParen
  | .unary => continuesOperand lexeme
  | .infixes level =>
    continuesOperand lexeme || (infix? lexeme).any fun op => decide (level ≤ op.1)
  | .conditional =>
    continuesOperand lexeme || (infix? lexeme).isSome || lexeme == .symbol .question
  | .expression =>
    continuesOperand lexeme || (infix? lexeme).isSome || lexeme == .symbol .question ||
      (assignment? lexeme).isSome

/-- Tokens that leave a phrase in front of them alone. -/
def Stops (phrase : Phrase) (tokens : List Token) : Prop :=
  ∀ token rest, tokens = token :: rest → continues phrase token.lexeme = false

/-- What a reading of a phrase gives. -/
def readingOf (v : Parsed) (isOperand : Bool) : Reading :=
  ⟨v.expr, v.start, isOperand⟩

/-! ### One step of each function -/

section Step

variable {tokens rest after : List Token} {left : Reading} {out : Reading × List Token}

theorem expression_alone (h : Yields (conditional · tokens) (left, rest))
    (noAssignment : ∀ token after, rest = token :: after → assignment? token.lexeme = none) :
    Yields (expression · tokens) (left, rest) := by
  refine Yields.step ?_
  simp only [expression]
  refine Yields.bind h ?_
  obtain ⟨expr, start, isOperand⟩ := left
  cases isOperand with
  | false => exact Yields.pure
  | true =>
    cases rest with
    | nil => exact Yields.pure
    | cons token after =>
      simp only [noAssignment token after rfl]
      exact Yields.pure

theorem expression_assigned {target value : Reading} {mark : Symbol} {op : Option BinaryOp}
    {p : Position} (h : Yields (conditional · tokens) (target, ⟨.symbol mark, p⟩ :: after))
    (isOperand : target.isOperand = true) (isAssignment : assignment? (.symbol mark) = some op)
    (h' : Yields (expression · after) (value, rest)) :
    Yields (expression · tokens)
      (⟨.assign (startOf tokens) op target.expr value.expr, startOf tokens, false⟩, rest) := by
  refine Yields.step ?_
  simp only [expression]
  refine Yields.bind h ?_
  simp only [isOperand, isAssignment]
  exact Yields.bind h' Yields.pure

theorem conditional_alone (h : Yields (infixes · 1 tokens) (left, rest))
    (noQuestion : comesNext .question rest = false) :
    Yields (conditional · tokens) (left, rest) := by
  refine Yields.step ?_
  simp only [conditional]
  refine Yields.bind h ?_
  simp only [noQuestion]
  exact Yields.pure

theorem conditional_chosen {condition thenValue elseValue : Reading} {p q : Position}
    {more : List Token}
    (h : Yields (infixes · 1 tokens) (condition, ⟨.symbol .question, p⟩ :: after))
    (h' : Yields (expression · after) (thenValue, ⟨.symbol .colon, q⟩ :: more))
    (h'' : Yields (conditional · more) (elseValue, rest)) :
    Yields (conditional · tokens)
      (⟨.conditional (startOf tokens) condition.expr thenValue.expr elseValue.expr,
        startOf tokens, false⟩, rest) := by
  refine Yields.step ?_
  simp only [conditional]
  exact Yields.bind h (Yields.bind h' (Yields.bind h'' Yields.pure))

theorem infixes_operand {level : Nat} (h : Yields (operand · tokens) (left, rest))
    (h' : Yields (climb · level tightest (startOf tokens) left rest) out) :
    Yields (infixes · level tokens) out := by
  refine Yields.step ?_
  simp only [infixes]
  exact Yields.bind h h'

theorem climb_stops {level ceiling : Nat} {start : Position}
    (stops : ∀ token after, rest = token :: after →
      (infix? token.lexeme).any (fun op => decide (level ≤ op.1 ∧ op.1 ≤ ceiling)) = false) :
    Yields (climb · level ceiling start left rest) (left, rest) := by
  refine Yields.step ?_
  cases rest with
  | nil =>
    simp only [climb]
    exact Yields.pure
  | cons token after =>
    have outside := stops token after rfl
    simp only [climb]
    cases isOperator : infix? token.lexeme with
    | none => exact Yields.pure
    | some op =>
      obtain ⟨tightness, op⟩ := op
      rw [isOperator] at outside
      have between : (decide (tightness < level) || decide (ceiling < tightness)) = true := by
        simpa [Decidable.imp_iff_not_or, Nat.not_le] using outside
      simp only [between, if_true]
      exact Yields.pure

/-- As long as no operator follows that is too tight, it makes no difference how tight one may
be. -/
theorem climb_ceiling {level ceiling ceiling' : Nat} {start : Position}
    (loose : ∀ token after, rest = token :: after → ∀ op, infix? token.lexeme = some op →
      op.1 ≤ ceiling ∧ op.1 ≤ ceiling')
    (h : Yields (climb · level ceiling start left rest) out) :
    Yields (climb · level ceiling' start left rest) out := by
  obtain ⟨enough, h⟩ := h
  refine ⟨enough + 1, fun fuel le => ?_⟩
  obtain ⟨fuel, rfl⟩ : ∃ less, fuel = less + 1 := ⟨fuel - 1, by omega⟩
  rw [← h (fuel + 1) (by omega)]
  dsimp only
  cases rest with
  | nil => rw [climb, climb]
  | cons token after =>
    rw [climb, climb]
    cases isOperator : infix? token.lexeme with
    | none => rfl
    | some op =>
      obtain ⟨under, under'⟩ := loose token after rfl op isOperator
      simp only [Nat.not_lt.mpr under, Nat.not_lt.mpr under']

theorem climb_binary {level ceiling : Nat} {start p : Position} {op : BinaryOp} {right : Reading}
    (le : level ≤ binaryLevel op) (le' : binaryLevel op ≤ ceiling)
    (h : Yields (infixes · (binaryLevel op + 1) after) (right, rest))
    (h' : Yields (climb · level (binaryLevel op) start
      ⟨.binary p op left.expr right.expr, start, false⟩ rest) out) :
    Yields (climb · level ceiling start left (⟨.symbol (.binary op), p⟩ :: after)) out := by
  refine Yields.step ?_
  have inside : (decide (binaryLevel op < level) || decide (ceiling < binaryLevel op)) = false := by
    simp [le, le']
  simp only [climb, infix?, inside]
  exact Yields.bind h h'

theorem climb_logical {level ceiling tightness : Nat} {start p : Position} {op : LogicalOp}
    {right : Reading} (isOperator : infix? (.symbol (.logical op)) = some (tightness, .logical op))
    (le : level ≤ tightness) (le' : tightness ≤ ceiling)
    (h : Yields (infixes · (tightness + 1) after) (right, rest))
    (h' : Yields (climb · level tightness start
      ⟨.logical start op left.expr right.expr, start, false⟩ rest) out) :
    Yields (climb · level ceiling start left (⟨.symbol (.logical op), p⟩ :: after)) out := by
  refine Yields.step ?_
  have inside : (decide (tightness < level) || decide (ceiling < tightness)) = false := by
    simp [le, le']
  simp only [climb, isOperator, inside]
  exact Yields.bind h h'

theorem climb_instanceOf {level ceiling : Nat} {start p : Position} {type : TypeName Unit}
    (le : level ≤ comparison) (le' : comparison ≤ ceiling)
    (h : dottedName after = .ok (type, rest))
    (h' : Yields (climb · level comparison start
      ⟨.instanceOf start left.expr type, start, false⟩ rest) out) :
    Yields (climb · level ceiling start left (⟨.keyword .instanceofWord, p⟩ :: after)) out := by
  refine Yields.step ?_
  have inside : (decide (7 < level) || decide (ceiling < 7)) = false := by
    unfold comparison at le le'
    simp [le, le']
  simp only [climb, infix?, inside, h]
  exact h'

/-- A token in front of an operand, which makes up a larger one with it. -/
theorem operand_unary {lexeme : Lexeme} {op : UnaryOp} {p : Position}
    (isUnary : prefixOp? lexeme = some op) (h : Yields (operand · after) (left, rest)) :
    Yields (operand · (⟨lexeme, p⟩ :: after)) (⟨.unary p op left.expr, p, true⟩, rest) := by
  refine Yields.step ?_
  simp only [operand, isUnary]
  exact Yields.bind h Yields.pure

theorem operand_step {op : StepOp} {p : Position} (h : Yields (operand · after) (left, rest)) :
    Yields (operand · (⟨.symbol (.step op), p⟩ :: after))
      (⟨.step p op left.expr true, p, true⟩, rest) :=
  Yields.step (Yields.bind h Yields.pure)

theorem operand_castType {name : String} {p : Position}
    (h : Yields (operand · after) (left, rest)) :
    Yields (operand · (⟨.castType name, p⟩ :: after))
      (⟨.cast p ⟨p, name, ()⟩ left.expr, p, true⟩, rest) :=
  Yields.step (Yields.bind h Yields.pure)

theorem operand_castPrimitive {type : Primitive} {p q r : Position}
    (h : Yields (operand · after) (left, rest)) :
    Yields
      (operand · (⟨.symbol .leftParen, p⟩ :: ⟨.keyword (.primitive type), q⟩ ::
        ⟨.symbol .rightParen, r⟩ :: after))
      (⟨.cast p ⟨q, type.name, ()⟩ left.expr, p, true⟩, rest) :=
  Yields.step (Yields.bind h Yields.pure)

theorem withMembers_primary (h : Yields (primary · tokens) (left, rest))
    (h' : Yields (members · (startOf tokens) left rest) out) :
    Yields (withMembers · tokens) out := by
  refine Yields.step ?_
  simp only [withMembers]
  exact Yields.bind h h'

theorem members_stop {start : Position}
    (stops : ∀ token after, rest = token :: after → continuesOperand token.lexeme = false) :
    Yields (members · start left rest) (left, rest) := by
  refine Yields.step ?_
  cases rest with
  | nil => exact Yields.pure
  | cons token after =>
    have outside := stops token after rfl
    obtain ⟨lexeme, p⟩ := token
    simp only [members]
    split
    · cases outside
    · cases outside
    · cases outside
    · exact Yields.pure

theorem members_field {start p q : Position} {name : String}
    (noParen : comesNext .leftParen after = false)
    (h : Yields (members · start ⟨.field q left.expr name, start, true⟩ after) out) :
    Yields (members · start left (⟨.symbol .dot, p⟩ :: ⟨.name name, q⟩ :: after)) out := by
  refine Yields.step ?_
  simp only [members, expectName, bind, Except.bind, noParen]
  exact h

theorem members_methodCall {start p q r : Position} {name : String} {args : List SourceExpr}
    (h : Yields (arguments · after) (args, rest))
    (h' : Yields (members · start ⟨.methodCall q left.expr name args, start, true⟩ rest) out) :
    Yields
      (members · start left (⟨.symbol .dot, p⟩ :: ⟨.name name, q⟩ :: ⟨.symbol .leftParen, r⟩ ::
        after)) out :=
  Yields.step (Yields.bind Yields.pure (Yields.bind h h'))

theorem members_index {start p q : Position} {place : Reading}
    (h : Yields (expression · after) (place, ⟨.symbol .rightBracket, q⟩ :: rest))
    (h' : Yields (members · start ⟨.index start left.expr place.expr, start, true⟩ rest) out) :
    Yields (members · start left (⟨.symbol .leftBracket, p⟩ :: after)) out :=
  Yields.step (Yields.bind h h')

theorem members_step {start p : Position} {op : StepOp}
    (h : Yields (members · start ⟨.step start op left.expr false, start, true⟩ after) out) :
    Yields (members · start left (⟨.symbol (.step op), p⟩ :: after)) out :=
  Yields.step h

theorem primary_literal {lexeme : Lexeme} {p : Position} (h : isLiteral lexeme = true) :
    Yields (primary · (⟨lexeme, p⟩ :: rest)) (⟨.literal p lexeme, p, true⟩, rest) := by
  refine Yields.step ?_
  simp only [primary, h, if_true]
  exact Yields.pure

theorem primary_name {text : String} {p : Position} (noParen : comesNext .leftParen rest = false) :
    Yields (primary · (⟨.name text, p⟩ :: rest)) (⟨.name p text, p, true⟩, rest) := by
  refine Yields.step ?_
  simp only [primary, isLiteral, noParen]
  exact Yields.pure

theorem primary_call (text : String) {p q : Position} {args : List SourceExpr}
    (h : Yields (arguments · after) (args, rest)) :
    Yields (primary · (⟨.name text, p⟩ :: ⟨.symbol .leftParen, q⟩ :: after))
      (⟨.call p ⟨p, text, ()⟩ args, p, true⟩, rest) :=
  Yields.step (Yields.bind h Yields.pure)

theorem primary_parentheses {inner : Reading} {p q : Position}
    (h : Yields (expression · after) (inner, ⟨.symbol .rightParen, q⟩ :: rest)) :
    Yields (primary · (⟨.symbol .leftParen, p⟩ :: after))
      (⟨inner.expr, inner.start, true⟩, rest) :=
  Yields.step (Yields.bind h Yields.pure)

theorem primary_new {type : TypeName Unit} {p q : Position} {args : List SourceExpr}
    {more : List Token} (h : dottedName after = .ok (type, ⟨.symbol .leftParen, q⟩ :: more))
    (h' : Yields (arguments · more) (args, rest)) :
    Yields (primary · (⟨.keyword .newWord, p⟩ :: after)) (⟨.new p type args, p, true⟩, rest) := by
  refine Yields.step ?_
  simp only [primary, isLiteral, h]
  change Yields (fun fuel => arguments fuel more >>= fun x =>
    .ok (Reading.mk (.new p type x.1) p true, x.2)) _
  exact Yields.bind h' Yields.pure

theorem arguments_none {p : Position} :
    Yields (arguments · (⟨.symbol .rightParen, p⟩ :: rest)) ([], rest) :=
  Yields.step Yields.pure

theorem arguments_some {values : List Reading} {p : Position}
    (noParen : comesNext .rightParen tokens = false)
    (h : Yields (expressions · tokens) (values, ⟨.symbol .rightParen, p⟩ :: rest)) :
    Yields (arguments · tokens) (values.map (·.expr), rest) := by
  refine Yields.step ?_
  simp only [arguments, noParen]
  exact Yields.bind h Yields.pure

theorem expressions_one {value : Reading} (h : Yields (expression · tokens) (value, rest))
    (noComma : comesNext .comma rest = false) :
    Yields (expressions · tokens) ([value], rest) := by
  refine Yields.step ?_
  simp only [expressions]
  refine Yields.bind h ?_
  simp only [noComma]
  exact Yields.pure

theorem expressions_more {value : Reading} {others : List Reading} {p : Position}
    (h : Yields (expression · tokens) (value, ⟨.symbol .comma, p⟩ :: after))
    (h' : Yields (expressions · after) (others, rest)) :
    Yields (expressions · tokens) (value :: others, rest) := by
  refine Yields.step ?_
  simp only [expressions]
  exact Yields.bind h (Yields.bind h' Yields.pure)

end Step

/-! ### What stands behind a phrase -/

namespace Stops

theorem nil (phrase : Phrase) : Stops phrase [] := by
  intro token rest same
  cases same

theorem cons {phrase : Phrase} {token : Token} {rest : List Token}
    (h : continues phrase token.lexeme = false) : Stops phrase (token :: rest) := by
  rintro _ _ ⟨⟩
  exact h

variable {tokens : List Token}

/-- What leaves a phrase alone leaves those alone that bind tighter. -/
theorem tighter {phrase phrase' : Phrase} (h : Stops phrase tokens)
    (fewer : ∀ lexeme, continues phrase lexeme = false → continues phrase' lexeme = false) :
    Stops phrase' tokens :=
  fun token rest same => fewer _ (h token rest same)

theorem infixes (level : Nat) (h : Stops .conditional tokens) : Stops (.infixes level) tokens := by
  refine h.tighter fun lexeme apart => ?_
  simp only [continues, Bool.or_eq_false_iff] at apart ⊢
  have noOperator : infix? lexeme = none := by simpa using apart.1.2
  exact ⟨apart.1.1, by rw [noOperator, Option.any_none]⟩

theorem conditional (h : Stops .expression tokens) : Stops .conditional tokens := by
  refine h.tighter fun lexeme apart => ?_
  simp only [continues, Bool.or_eq_false_iff] at apart ⊢
  exact apart.1

theorem raise {level higher : Nat} (h : Stops (.infixes level) tokens) (le : level ≤ higher) :
    Stops (.infixes higher) tokens := by
  refine h.tighter fun lexeme apart => ?_
  simp only [continues, Bool.or_eq_false_iff] at apart ⊢
  refine ⟨apart.1, ?_⟩
  cases isOperator : infix? lexeme with
  | none => rfl
  | some op =>
    have loose : ¬level ≤ op.1 := by simpa [isOperator] using apart.2
    simp only [Option.any_some, decide_eq_false_iff_not]
    omega

theorem unary {level : Nat} (h : Stops (.infixes level) tokens) : Stops .unary tokens := by
  refine h.tighter fun lexeme apart => ?_
  simp only [continues, Bool.or_eq_false_iff] at apart ⊢
  exact apart.1

theorem suffixed (h : Stops .unary tokens) : Stops .suffixed tokens := by
  refine h.tighter fun lexeme apart => ?_
  simp only [continues] at apart ⊢
  cases isParen : lexeme == .symbol .leftParen with
  | false => rfl
  | true => simp [eq_of_beq isParen, continuesOperand] at apart

/-- A symbol that would take up a phrase does not come next. -/
theorem absent {phrase : Phrase} {symbol : Symbol} (h : Stops phrase tokens)
    (taken : continues phrase (.symbol symbol) = true) : comesNext symbol tokens = false := by
  cases tokens with
  | nil => rfl
  | cons token rest =>
    rw [comesNext, beq_eq_false_iff_ne]
    intro same
    have stops := h token rest rfl
    rw [same, taken] at stops
    cases stops

theorem noAssignment (h : Stops .expression tokens) {token : Token} {rest : List Token}
    (same : tokens = token :: rest) : assignment? token.lexeme = none := by
  have stops := h token rest same
  simp only [continues, Bool.or_eq_false_iff] at stops
  simpa using stops.2

theorem noMember (h : Stops .unary tokens) {token : Token} {rest : List Token}
    (same : tokens = token :: rest) : continuesOperand token.lexeme = false :=
  h token rest same

/-- No operator of a level comes next. -/
theorem infix_none {level : Nat} (h : Stops (.infixes level) tokens) {token : Token}
    {rest : List Token} (same : tokens = token :: rest) {op : Nat × Infix}
    (isOperator : infix? token.lexeme = some op) : op.1 < level := by
  have stops := h token rest same
  simp only [continues, Bool.or_eq_false_iff, isOperator, Option.any_some,
    decide_eq_false_iff_not] at stops
  omega

end Stops

/-- Nothing is joined to an expression in front of tokens that leave it alone. -/
theorem climb_stopped {level ceiling : Nat} {start : Position} {left : Reading}
    {rest : List Token} (stops : Stops (.infixes level) rest) :
    Yields (climb · level ceiling start left rest) (left, rest) := by
  refine climb_stops fun token after same => ?_
  cases isOperator : infix? token.lexeme with
  | none => rfl
  | some op =>
    have loose := stops.infix_none same isOperator
    simp only [Option.any_some, decide_eq_false_iff_not]
    omega

/-- Neither is any to an operand. -/
theorem infixes_alone {level : Nat} {tokens rest : List Token} {left : Reading}
    (h : Yields (operand · tokens) (left, rest)) (stops : Stops (.infixes level) rest) :
    Yields (infixes · level tokens) (left, rest) :=
  infixes_operand h (climb_stopped stops)

theorem operators_binary {op : BinaryOp} {level : Nat} (h : .binary op ∈ operators level) :
    binaryLevel op = level := by
  unfold operators at h
  split at h <;> revert h <;> cases op <;> simp [binaryLevel]

theorem operators_logical {op : LogicalOp} {level : Nat} (h : .logical op ∈ operators level) :
    infix? (.symbol (.logical op)) = some (level, .logical op) := by
  unfold operators at h
  split at h <;> revert h <;> cases op <;> simp [infix?]

theorem infix_level (lexeme : Lexeme) {op : Nat × Infix} (h : infix? lexeme = some op) :
    op.1 ≤ tightest := by
  unfold infix? at h
  split at h
  · cases h
    decide
  · cases h
    decide
  · next op =>
    cases h
    cases op <;> decide
  · cases h
    decide
  · cases h

theorem assignments_read {mark : Symbol} {op : Option BinaryOp} (h : (mark, op) ∈ assignments) :
    assignment? (.symbol mark) = some op ∧ continues .conditional (.symbol mark) = false := by
  have each : ∀ pair ∈ assignments, assignment? (.symbol pair.1) = some pair.2 ∧
      continues .conditional (.symbol pair.1) = false := by decide
  exact each _ h

theorem unaryOperators_read {mark : Symbol} {op : UnaryOp} (h : (mark, op) ∈ unaryOperators) :
    prefixOp? (.symbol mark) = some op := by
  have each : ∀ pair ∈ unaryOperators, prefixOp? (.symbol pair.1) = some pair.2 := by decide
  exact each _ h

theorem literal_read {lexeme : Lexeme} (h : IsLiteral lexeme) : isLiteral lexeme = true := by
  cases h <;> rfl

/-! ### Names -/

theorem dottedRest_yields {tokens rest : List Token} {tail : String} (h : DottedRest tokens tail)
    (noDot : comesNext .dot rest = false) : dottedRest (tokens ++ rest) = .ok (tail, rest) := by
  induction h with
  | nil =>
    rcases rest with - | ⟨token, - | ⟨second, after⟩⟩
    · rfl
    · have other : token.lexeme ≠ .symbol .dot := by simpa [comesNext] using noDot
      rw [List.nil_append, dottedRest, if_neg other]
    · have other : token.lexeme ≠ .symbol .dot := by simpa [comesNext] using noDot
      rw [List.nil_append, dottedRest, if_neg other]
  | cons _ ih =>
    rw [List.cons_append, List.cons_append, dottedRest, if_pos rfl, ih]
    rfl

theorem dottedName_yields {tokens : List Token} {type : TypeName Unit}
    (h : Dotted tokens type) (rest : List Token) (noDot : comesNext .dot rest = false) :
    dottedName (tokens ++ rest) = .ok (type, rest) := by
  cases h with
  | mk h =>
    rw [List.cons_append, dottedName]
    change (dottedRest _ >>= _) = _
    rw [dottedRest_yields h noDot]
    rfl

/-! ### Operands without anything in front -/

/-- Tokens that begin with no operator, step or cast. -/
inductive Plain : List Token → Prop
  | literal {lexeme : Lexeme} {p : Position} {rest : List Token} :
      IsLiteral lexeme → Plain (⟨lexeme, p⟩ :: rest)
  | name (text : String) (p : Position) (rest : List Token) : Plain (⟨.name text, p⟩ :: rest)
  | parenthesis {p : Position} {token : Token} {rest : List Token} :
      Opens token.lexeme → Plain (⟨.symbol .leftParen, p⟩ :: token :: rest)
  | new (p : Position) (rest : List Token) : Plain (⟨.keyword .newWord, p⟩ :: rest)

theorem Plain.append {tokens : List Token} (h : Plain tokens) (more : List Token) :
    Plain (tokens ++ more) := by
  cases h with
  | literal h => exact .literal h
  | name text p rest => exact .name text p _
  | parenthesis h => exact .parenthesis h
  | new p rest => exact .new p _

theorem derives_plain {phrase : Phrase} {tokens : List Token} {v : Parsed}
    (h : Derives phrase tokens v) (isPlain : phrase = .suffixed ∨ phrase = .primary) :
    Plain tokens := by
  induction h with
  | unassigned | assign | unconditional | conditional | tighter | binary | logical | instanceOf
  | operand | unary | stepBefore | castReference | castPrimitive | unadorned =>
    simp at isPlain
  | field _ ih | methodCall _ _ _ ih _ | index _ _ ih _ | stepBehind _ ih =>
    exact (ih (.inl rfl)).append _
  | unsuffixed _ ih => exact ih (.inr rfl)
  | literal h => exact .literal h
  | name => exact .name _ _ _
  | call _ _ _ => exact .name _ _ _
  | parentheses h _ =>
    obtain ⟨token, rest, rfl, opens⟩ := h.opens
    exact .parenthesis opens
  | new _ _ _ _ => exact .new _ _

theorem operand_plain {tokens rest : List Token} {left : Reading} (h : Plain tokens)
    (h' : Yields (withMembers · tokens) (left, rest)) : Yields (operand · tokens) (left, rest) := by
  refine Yields.step ?_
  cases h with
  | literal h => cases h <;> exact h'
  | name text p rest => exact h'
  | new p rest => exact h'
  | @parenthesis p token rest opens =>
    obtain ⟨lexeme, q⟩ := token
    simp only [operand]
    split
    · next isUnary => cases isUnary
    · split
      · next same =>
        cases same
        cases opens with
        | literal h => cases h
      · exact h'

/-! ### Phrases -/

/-- A phrase is read as it was derived, in front of tokens that leave it alone. Of a phrase that
infix operators or members may follow, what follows is read along with it. -/
def Yielded : Phrase → List Token → Parsed → Prop
  | .expression, tokens, v => ∀ rest, Stops .expression rest →
    ∃ flag, Yields (expression · (tokens ++ rest)) (readingOf v flag, rest)
  | .conditional, tokens, v => ∀ rest, Stops .conditional rest →
    ∃ flag, Yields (conditional · (tokens ++ rest)) (readingOf v flag, rest)
  | .infixes level, tokens, v => ∃ flag, ∀ lower rest out, lower ≤ level →
    Stops (.infixes (level + 1)) rest →
    Yields (climb · lower (min level tightest) (startOf tokens) (readingOf v flag) rest) out →
    Yields (infixes · lower (tokens ++ rest)) out
  | .unary, tokens, v => ∀ rest, Stops .unary rest →
    Yields (operand · (tokens ++ rest)) (readingOf v true, rest)
  | .suffixed, tokens, v => ∀ rest out, Stops .suffixed rest →
    Yields (members · (startOf tokens) (readingOf v true) rest) out →
    Yields (withMembers · (tokens ++ rest)) out
  | .primary, tokens, v => ∀ rest, Stops .primary rest →
    Yields (primary · (tokens ++ rest)) (readingOf v true, rest)

theorem separated_first {first joined : List Token} {others : List (List Token)}
    (h : Separated (first :: others) joined) : ∃ more, joined = first ++ more := by
  cases h with
  | one => exact ⟨[], (List.append_nil _).symm⟩
  | cons => exact ⟨_, rfl⟩

/-- Whether an expression may begin with a lexeme. -/
def mayOpen (lexeme : Lexeme) : Bool :=
  isLiteral lexeme || (prefixOp? lexeme).isSome ||
    match lexeme with
    | .name _ | .castType _ | .symbol .leftParen | .symbol (.step _) | .keyword .newWord => true
    | _ => false

theorem opens_mayOpen {lexeme : Lexeme} (h : Opens lexeme) : mayOpen lexeme = true := by
  cases h with
  | literal isLiteral => simp [mayOpen, literal_read isLiteral]
  | unary isIn => simp [mayOpen, unaryOperators_read isIn]
  | name | leftParen | new | step | castType => rfl

/-- A symbol that opens no expression does not come first in one. -/
theorem opens_absent {token : Token} (h : Opens token.lexeme) (symbol : Symbol)
    (closes : mayOpen (.symbol symbol) = false) (rest : List Token) :
    comesNext symbol (token :: rest) = false := by
  rw [comesNext, beq_eq_false_iff_ne]
  intro same
  have opens := opens_mayOpen h
  rw [same, closes] at opens
  cases opens

theorem expressions_yields {parts : List (List Token × Parsed)} {inner : List Token}
    (some : parts ≠ []) (each : ∀ part ∈ parts, Yielded .expression part.1 part.2)
    (separated : Separated (parts.map Prod.fst) inner) (rest : List Token)
    (stops : Stops .expression rest) (noComma : comesNext .comma rest = false) :
    ∃ values : List Reading, values.map Reading.parsed = parts.map Prod.snd ∧
      Yields (expressions · (inner ++ rest)) (values, rest) := by
  induction parts generalizing inner with
  | nil => exact (some rfl).elim
  | cons part parts ih =>
    obtain ⟨tokens, v⟩ := part
    have first := each _ List.mem_cons_self
    cases parts with
    | nil =>
      cases separated
      obtain ⟨flag, read⟩ := first rest stops
      exact ⟨[readingOf v flag], rfl, expressions_one read noComma⟩
    | cons second parts =>
      cases separated with
      | @cons p _ _ joined _ separated =>
        obtain ⟨values, same, others⟩ := ih (List.cons_ne_nil _ _)
          (fun part isIn => each part (List.mem_cons_of_mem _ isIn)) separated
        obtain ⟨flag, read⟩ := first (⟨.symbol .comma, p⟩ :: (joined ++ rest)) (.cons rfl)
        refine ⟨readingOf v flag :: values, by simp [same, readingOf, Reading.parsed], ?_⟩
        rw [List.append_assoc]
        exact expressions_more read others

/-- Arguments are read up to the parenthesis behind them. -/
theorem arguments_yields {args : List (List Token × Parsed)} {inner : List Token}
    (derived : ∀ arg ∈ args, Derives .expression arg.1 arg.2)
    (each : ∀ arg ∈ args, Yielded .expression arg.1 arg.2)
    (separated : Separated (args.map Prod.fst) inner) (p : Position) (rest : List Token) :
    Yields (arguments · (inner ++ ⟨.symbol .rightParen, p⟩ :: rest))
      (args.map (·.2.expr), rest) := by
  cases args with
  | nil =>
    cases separated
    exact arguments_none
  | cons first others =>
    obtain ⟨values, same, read⟩ := expressions_yields (List.cons_ne_nil first others) each separated
      (⟨.symbol .rightParen, p⟩ :: rest) (.cons rfl) rfl
    have exprs : values.map (·.expr) = (first :: others).map (·.2.expr) := by
      have exprs := congrArg (List.map Parsed.expr) same
      simpa [Reading.parsed, Function.comp_def] using exprs
    rw [← exprs]
    refine arguments_some ?_ read
    obtain ⟨token, more, begins, opens⟩ := (derived first List.mem_cons_self).opens
    obtain ⟨rest, rfl⟩ := separated_first separated
    rw [begins]
    exact opens_absent opens _ rfl _

theorem derives_yields {phrase : Phrase} {tokens : List Token} {v : Parsed}
    (h : Derives phrase tokens v) : Yielded phrase tokens v := by
  -- A phrase begins where its first part does.
  have start {phrase : Phrase} {tokens : List Token} {v : Parsed} (h : Derives phrase tokens v)
      (more : List Token) : startOf (tokens ++ more) = startOf tokens :=
    startOf_append h.nonempty
  induction h with
  | unassigned h ih =>
    intro rest stops
    obtain ⟨flag, read⟩ := ih rest stops.conditional
    exact ⟨flag, expression_alone read fun token after same => stops.noAssignment same⟩
  | @assign left right target value mark op p h isIn h' ih ih' =>
    intro rest stops
    obtain ⟨flag, read⟩ := ih' rest stops
    obtain ⟨isAssignment, apart⟩ := assignments_read isIn
    have behind : Stops .conditional (⟨.symbol mark, p⟩ :: (right ++ rest)) := .cons apart
    have target := conditional_alone
      (infixes_alone (ih _ (behind.infixes 1).unary) (behind.infixes 1))
      (behind.absent rfl)
    refine ⟨false, ?_⟩
    rw [List.append_assoc, List.cons_append]
    have whole := expression_assigned target rfl isAssignment read
    rw [start h] at whole
    exact whole
  | unconditional h ih =>
    intro rest stops
    obtain ⟨flag, read⟩ := ih
    exact ⟨flag, conditional_alone
      (read 1 rest _ (Nat.le_refl _) (stops.infixes 2) (climb_stopped (stops.infixes 1)))
      (stops.absent rfl)⟩
  | @conditional first second third condition thenValue elseValue p q h h' h'' ih ih' ih'' =>
    intro rest stops
    obtain ⟨flag, read⟩ := ih
    obtain ⟨flag', read'⟩ := ih' (⟨.symbol .colon, q⟩ :: (third ++ rest)) (.cons rfl)
    obtain ⟨flag'', read''⟩ := ih'' rest stops
    have behind (level : Nat) : Stops (.infixes level)
        (⟨.symbol .question, p⟩ :: (second ++ ⟨.symbol .colon, q⟩ :: (third ++ rest))) :=
      .cons rfl
    have chosen := read 1 _ _ (Nat.le_refl _) (behind _) (climb_stopped (behind _))
    refine ⟨false, ?_⟩
    have whole := conditional_chosen chosen read' read''
    rw [start h] at whole
    simpa only [List.append_assoc, List.cons_append, readingOf] using whole
  | @tighter level tokens v h ih =>
    obtain ⟨flag, read⟩ := ih
    refine ⟨flag, fun lower rest out le stops joined => ?_⟩
    refine read lower rest out (Nat.le_succ_of_le le) (stops.raise (Nat.le_succ _)) ?_
    refine climb_ceiling (fun token after same op isOperator => ?_) joined
    have loose := stops.infix_none same isOperator
    have known := infix_level _ isOperator
    constructor <;> omega
  | @binary level left right a b op p h isIn h' ih ih' =>
    obtain ⟨flag, read⟩ := ih
    obtain ⟨flag', read'⟩ := ih'
    obtain rfl := operators_binary isIn
    have level : min (binaryLevel op) tightest = binaryLevel op :=
      Nat.min_eq_left (infix_level (.symbol (.binary op)) rfl)
    refine ⟨false, fun lower rest out le stops joined => ?_⟩
    have right := read' (binaryLevel op + 1) rest _ (Nat.le_refl _) (stops.raise (Nat.le_succ _))
      (climb_stopped stops)
    rw [start h, level] at joined
    rw [List.append_assoc, List.cons_append]
    refine read lower _ out le (.cons ?_) (climb_binary le (Nat.le_of_eq level.symm) right joined)
    simp [continues, continuesOperand, infix?]
  | @logical level left right a b op p h isIn h' ih ih' =>
    obtain ⟨flag, read⟩ := ih
    obtain ⟨flag', read'⟩ := ih'
    have isOperator := operators_logical isIn
    have same : min level tightest = level := Nat.min_eq_left (infix_level _ isOperator)
    refine ⟨false, fun lower rest out le stops joined => ?_⟩
    have right := read' (level + 1) rest _ (Nat.le_refl _) (stops.raise (Nat.le_succ _))
      (climb_stopped stops)
    rw [start h, same] at joined
    rw [List.append_assoc, List.cons_append]
    refine read lower _ out le (.cons ?_) (climb_logical isOperator le (Nat.le_of_eq same.symm)
      right joined)
    simp [continues, continuesOperand, isOperator]
  | @instanceOf left name a type p h named ih =>
    obtain ⟨flag, read⟩ := ih
    refine ⟨false, fun lower rest out le stops joined => ?_⟩
    have isName := dottedName_yields named rest (stops.unary.absent rfl)
    rw [start h] at joined
    rw [List.append_assoc, List.cons_append]
    refine read lower _ out le (.cons ?_) (climb_instanceOf le (by decide) isName joined)
    simp [continues, continuesOperand, infix?, comparison]
  | operand h ih =>
    refine ⟨true, fun lower rest out le stops joined => ?_⟩
    rw [← start h rest] at joined
    exact infixes_operand (ih rest stops.unary) joined
  | @unary tokens v mark op p isIn h ih =>
    exact fun rest stops => operand_unary (unaryOperators_read isIn) (ih rest stops)
  | stepBefore h ih => exact fun rest stops => operand_step (ih rest stops)
  | castReference h ih => exact fun rest stops => operand_castType (ih rest stops)
  | castPrimitive h ih => exact fun rest stops => operand_castPrimitive (ih rest stops)
  | unadorned h ih =>
    exact fun rest stops => operand_plain ((derives_plain h (.inl rfl)).append rest)
      (ih rest _ stops.suffixed (members_stop fun token after same => stops.noMember same))
  | @field tokens v member p q h ih =>
    intro rest out stops joined
    rw [start h] at joined
    rw [List.append_assoc]
    exact ih _ out (.cons rfl) (members_field (stops.absent rfl) joined)
  | @methodCall tokens inner v args method p q r s h derived separated ih each =>
    intro rest out stops joined
    rw [start h] at joined
    have read := arguments_yields derived each separated s rest
    have whole := ih _ out (.cons rfl) (members_methodCall (p := p) (q := q) (r := r) read joined)
    simpa only [List.append_assoc, List.cons_append, List.nil_append] using whole
  | @index tokens inner v place p q h h' ih ih' =>
    intro rest out stops joined
    rw [start h] at joined
    obtain ⟨flag, read⟩ := ih' (⟨.symbol .rightBracket, q⟩ :: rest) (.cons rfl)
    have whole := ih _ out (.cons rfl) (members_index (p := p) read joined)
    simpa only [List.append_assoc, List.cons_append, List.nil_append] using whole
  | @stepBehind tokens v op p h ih =>
    intro rest out stops joined
    rw [start h] at joined
    rw [List.append_assoc]
    exact ih _ out (.cons rfl) (members_step joined)
  | @unsuffixed tokens v h ih =>
    intro rest out stops joined
    have read := ih rest stops
    rw [← start h rest] at joined
    exact withMembers_primary read joined
  | literal h => exact fun rest _ => primary_literal (literal_read h)
  | name => exact fun rest stops => primary_name (stops.absent rfl)
  | @call inner args text p q r derived separated each =>
    intro rest _
    have read := primary_call text (p := p) (q := q)
      (arguments_yields derived each separated r rest)
    simpa only [List.cons_append, List.append_assoc, List.nil_append, readingOf] using read
  | @parentheses inner v p q h ih =>
    intro rest _
    obtain ⟨flag, read⟩ := ih (⟨.symbol .rightParen, q⟩ :: rest) (.cons rfl)
    have whole := primary_parentheses (p := p) read
    simpa only [List.cons_append, List.append_assoc, List.nil_append, readingOf] using whole
  | @new name inner type args p q r named derived separated each =>
    intro rest _
    have isName := dottedName_yields named
      (⟨.symbol .leftParen, q⟩ :: (inner ++ ⟨.symbol .rightParen, r⟩ :: rest)) rfl
    have read := primary_new (p := p) isName (arguments_yields derived each separated r rest)
    simpa only [List.cons_append, List.append_assoc, List.nil_append, readingOf] using read

end Formulary.Parser
