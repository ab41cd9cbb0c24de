/-
Readings see only what they read.

The parser decides by the tokens that it takes and by the one behind them. So a reading that
has stopped at a token would have stopped there, and in the same way, whatever came behind that
token. And it makes no difference how much fuel a reading is given, once it is enough for the
tokens. `Alike` says both of two readings; every function of the parser has it, with fuel for
sixteen calls on each token.

* `Alike.bind` — one reading after the other.
* `readings_alike` — the functions on expressions.
-/

import Formulary.Syntax.Parser
import Mathlib

namespace Formulary.Parser

/-! ### Two readings -/

section Alike

variable {α β : Type}

/-- The tokens that a reading has not taken, whether it ended well or not. -/
def leftover : Except Failure (α × List Token) → List Token
  | .ok (_, rest) => rest
  | .error rest => rest

/-- A reading that ended the same with other tokens behind it. -/
def withLeftover (rest : List Token) :
    Except Failure (α × List Token) → Except Failure (α × List Token)
  | .ok (a, _) => .ok (a, rest)
  | .error _ => .error rest

/-- The length of the longer one of two lists. -/
abbrev longer (tokens tokens' : List Token) : Nat :=
  max tokens.length tokens'.length

theorem longer_nil : longer [] [] = 0 := rfl

theorem longer_cons (token token' : Token) (rest rest' : List Token) :
    longer (token :: rest) (token' :: rest') = longer rest rest' + 1 := by
  simp only [longer, List.length_cons]
  omega

theorem longer_self (tokens : List Token) : longer tokens tokens = tokens.length :=
  Nat.max_self _

/-- A reading of some tokens and one of others. If the two lists are the same up to some place
and the first reading stops before that place, then so does the second one, and they end alike;
so they do if they have all of their tokens in common. A reading that ends well has taken at
least `least` tokens. -/
structure Alike (least : Nat) (tokens tokens' : List Token)
    (result result' : Except Failure (α × List Token)) : Prop where
  leaves : leftover result <:+ tokens
  takes : ∀ a rest, result = .ok (a, rest) → rest.length + least ≤ tokens.length
  same : ∀ front back back' kept, tokens = front ++ back → tokens' = front ++ back' →
    kept ≠ [] ∨ back = [] ∧ back' = [] → leftover result = kept ++ back →
    result' = withLeftover (kept ++ back') result

namespace Alike

variable {least : Nat} {tokens tokens' rest rest' : List Token}

theorem weaken {result result' : Except Failure (α × List Token)}
    (h : Alike least tokens tokens' result result') : Alike 0 tokens tokens' result result' where
  leaves := h.leaves
  takes := fun a rest same => Nat.le_of_add_right_le (h.takes a rest same)
  same := h.same

theorem fail : Alike least tokens tokens' (.error tokens : Except Failure (α × List Token))
    (.error tokens') where
  leaves := List.suffix_refl tokens
  takes := by
    intro a rest same
    cases same
  same := by
    rintro front back back' kept rfl rfl - stops
    rw [leftover, List.append_left_inj] at stops
    rw [withLeftover, stops]

theorem pure {a : α} : Alike 0 tokens tokens' (.ok (a, tokens)) (.ok (a, tokens')) where
  leaves := List.suffix_refl tokens
  takes := by
    rintro _ _ ⟨⟩
    exact Nat.le_refl _
  same := by
    rintro front back back' kept rfl rfl - stops
    rw [leftover, List.append_left_inj] at stops
    rw [withLeftover, stops]

/-- What is left cannot be longer than the tokens. -/
theorem not_before {result result' : Except Failure (α × List Token)}
    (h : Alike least tokens tokens' result result') (kept : List Token) (some : kept ≠ []) :
    leftover result ≠ kept ++ tokens := by
  intro stops
  have short := h.leaves.length_le
  rw [stops, List.length_append] at short
  have long := List.length_pos_iff.mpr some
  omega

/-- A token that has been taken from both lists. -/
theorem take {m : Nat} {token : Token} {result result' : Except Failure (α × List Token)}
    (h : Alike m rest rest' result result') :
    Alike 1 (token :: rest) (token :: rest') result result' where
  leaves := h.leaves.trans (List.suffix_cons token rest)
  takes := fun a left same => Nat.succ_le_succ (Nat.le_of_add_right_le (h.takes a left same))
  same := by
    intro front back back' kept split split' some stops
    cases front with
    | nil =>
      obtain rfl : token :: rest = back := split
      refine (h.not_before (kept ++ [token]) (by simp) ?_).elim
      rw [stops, List.append_assoc, List.singleton_append]
    | cons first front =>
      obtain ⟨rfl, rfl⟩ := List.cons.inj split
      exact h.same front back back' kept rfl (List.cons.inj split').2 some stops

/-- A reading that takes a token looks at those behind it. -/
theorem untake {token : Token} {result result' : Except Failure (α × List Token)}
    (h : Alike 1 (token :: rest) (token :: rest') result result')
    (takes : leftover result <:+ rest) : Alike 0 rest rest' result result' where
  leaves := takes
  takes := fun a left same => Nat.le_of_succ_le_succ (h.takes a left same)
  same := fun front back back' kept split split' =>
    h.same (token :: front) back back' kept (by rw [split, List.cons_append])
      (by rw [split', List.cons_append])

/-- Readings that begin by looking at the first token. -/
theorem shared {p p' : List Token → Except Failure (α × List Token)}
    (empty : Alike least [] [] (p []) (p' []))
    (h : ∀ token rest rest', longer rest rest' + 1 ≤ longer tokens tokens' →
      Alike least (token :: rest) (token :: rest') (p (token :: rest)) (p' (token :: rest'))) :
    Alike least tokens tokens' (p tokens) (p' tokens') := by
  cases tokens with
  | nil =>
    refine ⟨empty.leaves, empty.takes, fun front back back' kept split split' some stops => ?_⟩
    have none := List.suffix_nil.mp empty.leaves
    obtain ⟨rfl, rfl⟩ := List.append_eq_nil_iff.mp (stops.symm.trans none)
    obtain ⟨rfl, -⟩ := List.append_eq_nil_iff.mp split.symm
    rcases some with some | ⟨-, rfl⟩
    · exact (some rfl).elim
    · subst split'
      exact empty.same [] [] [] [] rfl rfl (.inr ⟨rfl, rfl⟩) stops
  | cons token rest =>
    have alone := h token rest rest (by simp only [longer, List.length_cons]; omega)
    refine ⟨alone.leaves, alone.takes, fun front back back' kept split split' some stops => ?_⟩
    cases front with
    | nil =>
      obtain rfl : token :: rest = back := split
      exact (alone.not_before _ (some.resolve_right (by simp)) stops).elim
    | cons first front =>
      obtain ⟨rfl, rfl⟩ := List.cons.inj split
      subst split'
      have alike := h token (front ++ back) (front ++ back') (Nat.le_of_eq (longer_cons ..).symm)
      exact alike.same (token :: front) back back' kept rfl rfl some stops

/-- Readings that note where they begin. -/
theorem started {p p' : List Token → Except Failure (α × List Token)}
    (h : ∀ rest rest', startOf rest = startOf rest' →
      longer rest rest' ≤ longer tokens tokens' → Alike least rest rest' (p rest) (p' rest')) :
    Alike least tokens tokens' (p tokens) (p' tokens') :=
  shared (h [] [] rfl (by simp)) fun token rest rest' smaller =>
    h (token :: rest) (token :: rest') rfl (by rwa [longer_cons])

theorem bind {m : Nat} {result result' : Except Failure (α × List Token)}
    {next next' : α × List Token → Except Failure (β × List Token)}
    (first : Alike least tokens tokens' result result')
    (goesOn : ∀ a rest rest', longer rest rest' + least ≤ longer tokens tokens' →
      Alike m rest rest' (next (a, rest)) (next' (a, rest'))) :
    Alike least tokens tokens' (result >>= next) (result' >>= next') := by
  rcases result with left | ⟨a, left⟩
  · refine ⟨first.leaves, fun _ _ same => (nomatch same),
      fun front back back' kept split split' some stops => ?_⟩
    rw [first.same front back back' kept split split' some stops]
    rfl
  · have short := first.takes a left rfl
    have alone := goesOn a left left (by simp only [longer]; omega)
    refine ⟨alone.leaves.trans first.leaves, fun b rest same => ?_,
      fun front back back' kept split split' some stops => ?_⟩
    · have shorter := alone.takes b rest same
      omega
    · obtain ⟨taken, isLeft⟩ := alone.leaves
      change leftover (next (a, left)) = _ at stops
      rw [stops, ← List.append_assoc] at isLeft
      subst split split'
      have still : taken ++ kept ≠ [] ∨ back = [] ∧ back' = [] :=
        some.imp_left fun some => by simp [some]
      rw [first.same front back back' (taken ++ kept) rfl rfl still isLeft.symm]
      refine (goesOn a left (taken ++ kept ++ back') ?_).same (taken ++ kept) back back' kept
        isLeft.symm rfl some stops
      rw [← isLeft] at short ⊢
      simp only [longer, List.length_append] at short ⊢
      omega

theorem map {result result' : Except Failure (α × List Token)} {f : α → β}
    (h : Alike least tokens tokens' result result') :
    Alike least tokens tokens' (result.map fun (a, rest) => (f a, rest))
      (result'.map fun (a, rest) => (f a, rest)) := by
  have leftover_map : leftover (result.map fun (a, rest) => (f a, rest)) = leftover result := by
    cases result <;> rfl
  refine ⟨leftover_map ▸ h.leaves, fun b rest same => ?_,
    fun front back back' kept split split' some stops => ?_⟩
  · cases result with
    | error left => cases same
    | ok reading =>
      cases same
      exact h.takes _ _ rfl
  · rw [leftover_map] at stops
    rw [h.same front back back' kept split split' some stops]
    cases result <;> rfl

theorem symbol {m : Nat} {symbol : Symbol}
    {next next' : List Token → Except Failure (α × List Token)}
    (goesOn : ∀ rest rest', longer rest rest' + 1 ≤ longer tokens tokens' →
      Alike m rest rest' (next rest) (next' rest')) :
    Alike 1 tokens tokens' (expectSymbol symbol tokens >>= next)
      (expectSymbol symbol tokens' >>= next') := by
  apply shared
  · exact fail
  · intro token rest rest' smaller
    by_cases same : token.lexeme = .symbol symbol
    · simp only [expectSymbol, same, if_true]
      exact take (goesOn rest rest' smaller)
    · simp only [expectSymbol, same, if_false]
      exact fail

theorem keyword {m : Nat} {word : Keyword}
    {next next' : List Token → Except Failure (α × List Token)}
    (goesOn : ∀ rest rest', longer rest rest' + 1 ≤ longer tokens tokens' →
      Alike m rest rest' (next rest) (next' rest')) :
    Alike 1 tokens tokens' (expectKeyword word tokens >>= next)
      (expectKeyword word tokens' >>= next') := by
  apply shared
  · exact fail
  · intro token rest rest' smaller
    by_cases same : token.lexeme = .keyword word
    · simp only [expectKeyword, same, if_true]
      exact take (goesOn rest rest' smaller)
    · simp only [expectKeyword, same, if_false]
      exact fail

theorem name {m : Nat}
    {next next' : (String × Position) × List Token → Except Failure (α × List Token)}
    (goesOn : ∀ name rest rest', longer rest rest' + 1 ≤ longer tokens tokens' →
      Alike m rest rest' (next (name, rest)) (next' (name, rest'))) :
    Alike 1 tokens tokens' (expectName tokens >>= next)
      (expectName tokens' >>= next') := by
  apply shared
  · exact fail
  · intro token rest rest' smaller
    obtain ⟨lexeme, p⟩ := token
    cases lexeme with
    | name text => exact take (goesOn (text, p) rest rest' smaller)
    | _ => exact fail

theorem ite {c : Prop} [Decidable c] {yes yes' no no' : Except Failure (α × List Token)}
    (holds : c → Alike least tokens tokens' yes yes')
    (fails : ¬c → Alike least tokens tokens' no no') :
    Alike least tokens tokens' (if c then yes else no) (if c then yes' else no') := by
  by_cases h : c
  · rw [if_pos h, if_pos h]
    exact holds h
  · rw [if_neg h, if_neg h]
    exact fails h

end Alike

end Alike

/-! ### Names -/

theorem dottedRest_alike (tokens tokens' : List Token) :
    Alike 0 tokens tokens' (dottedRest tokens) (dottedRest tokens') := by
  induction size : longer tokens tokens' using Nat.strongRecOn generalizing tokens tokens' with
  | ind size ih =>
    apply Alike.shared
    · exact Alike.pure
    · intro dot rest rest' smaller
      by_cases isDot : dot.lexeme = .symbol .dot
      · refine Alike.weaken (Alike.take (m := 0) ?_)
        let behind (rest : List Token) := dottedRest (dot :: rest)
        refine Alike.shared (p := behind) (show Alike 0 [] [] (behind []) (behind []) from ?_) ?_
        · simp only [behind, dottedRest, isDot, if_true]
          exact Alike.fail
        · intro part after after' smaller'
          obtain ⟨lexeme, p⟩ := part
          simp only [behind, dottedRest, isDot, if_true]
          cases lexeme with
          | name text =>
            exact Alike.weaken (Alike.take (Alike.map (ih _ (by omega) after after' rfl)))
          | _ => exact Alike.fail
      · have stops (rest : List Token) : dottedRest (dot :: rest) = .ok ("", dot :: rest) := by
          cases rest <;> simp [dottedRest, isDot]
        rw [stops, stops]
        exact Alike.pure

theorem dottedName_alike (tokens tokens' : List Token) :
    Alike 1 tokens tokens' (dottedName tokens) (dottedName tokens') :=
  Alike.name fun _ rest rest' _ => Alike.bind (dottedRest_alike rest rest')
    fun _ _ _ _ => Alike.pure

/-! ### Expressions -/

/-- Every function on expressions sees only what it reads, and needs no more fuel than this. -/
structure AlikeAt (fuel fuel' : Nat) : Prop where
  /-- An opening parenthesis is taken before anything can fail. -/
  inParens : ∀ p rest, 16 * rest.length + 15 ≤ fuel →
    leftover (primary fuel (⟨.symbol .leftParen, p⟩ :: rest)) <:+ rest
  afterParen : ∀ p rest, 16 * rest.length + 16 ≤ fuel →
    leftover (withMembers fuel (⟨.symbol .leftParen, p⟩ :: rest)) <:+ rest
  expression : ∀ tokens tokens', 16 * longer tokens tokens' + 6 ≤ min fuel fuel' →
    Alike 1 tokens tokens' (expression fuel tokens) (expression fuel' tokens')
  conditional : ∀ tokens tokens', 16 * longer tokens tokens' + 5 ≤ min fuel fuel' →
    Alike 1 tokens tokens' (conditional fuel tokens) (conditional fuel' tokens')
  infixes : ∀ level tokens tokens', 16 * longer tokens tokens' + 4 ≤ min fuel fuel' →
    Alike 1 tokens tokens' (infixes fuel level tokens) (infixes fuel' level tokens')
  climb : ∀ level ceiling start left tokens tokens',
    16 * longer tokens tokens' + 1 ≤ min fuel fuel' →
    Alike 0 tokens tokens' (climb fuel level ceiling start left tokens)
      (climb fuel' level ceiling start left tokens')
  operand : ∀ tokens tokens', 16 * longer tokens tokens' + 3 ≤ min fuel fuel' →
    Alike 1 tokens tokens' (operand fuel tokens) (operand fuel' tokens')
  withMembers : ∀ tokens tokens', 16 * longer tokens tokens' + 2 ≤ min fuel fuel' →
    Alike 1 tokens tokens' (withMembers fuel tokens) (withMembers fuel' tokens')
  members : ∀ start left tokens tokens', 16 * longer tokens tokens' + 1 ≤ min fuel fuel' →
    Alike 0 tokens tokens' (members fuel start left tokens) (members fuel' start left tokens')
  primary : ∀ tokens tokens', 16 * longer tokens tokens' + 1 ≤ min fuel fuel' →
    Alike 1 tokens tokens' (primary fuel tokens) (primary fuel' tokens')
  arguments : ∀ tokens tokens', 16 * longer tokens tokens' + 8 ≤ min fuel fuel' →
    Alike 1 tokens tokens' (arguments fuel tokens) (arguments fuel' tokens')
  expressions : ∀ tokens tokens', 16 * longer tokens tokens' + 7 ≤ min fuel fuel' →
    Alike 1 tokens tokens' (expressions fuel tokens) (expressions fuel' tokens')

section Step

variable {fuel fuel' : Nat}

theorem expression_alike (ih : AlikeAt fuel fuel') (tokens tokens' : List Token)
    (enough : 16 * longer tokens tokens' + 6 ≤ min (fuel + 1) (fuel' + 1)) :
    Alike 1 tokens tokens' (expression (fuel + 1) tokens) (expression (fuel' + 1) tokens') := by
  refine Alike.started fun tokens tokens' start smaller => ?_
  rw [expression, expression, start]
  refine Alike.bind (m := 0) (ih.conditional tokens tokens' (by omega))
    fun left rest rest' smaller => ?_
  obtain ⟨expr, p, isOperand⟩ := left
  cases isOperand with
  | false => exact Alike.pure
  | true =>
    dsimp only
    apply Alike.shared
    · exact Alike.pure
    · intro token rest rest' smaller
      dsimp only
      cases assignment? token.lexeme with
      | none => exact Alike.pure
      | some op =>
        exact Alike.weaken (Alike.take (Alike.bind (ih.expression rest rest' (by omega))
          fun _ _ _ _ => Alike.pure))

theorem conditional_alike (ih : AlikeAt fuel fuel') (tokens tokens' : List Token)
    (enough : 16 * longer tokens tokens' + 5 ≤ min (fuel + 1) (fuel' + 1)) :
    Alike 1 tokens tokens' (conditional (fuel + 1) tokens)
      (conditional (fuel' + 1) tokens') := by
  refine Alike.started fun tokens tokens' start smaller => ?_
  rw [conditional, conditional, start]
  refine Alike.bind (m := 0) (ih.infixes 1 tokens tokens' (by omega))
    fun condition rest rest' smaller => ?_
  dsimp only
  apply Alike.shared
  · exact Alike.pure
  · intro token rest rest' smaller
    refine Alike.ite (fun _ => ?_) fun _ => Alike.pure
    refine Alike.weaken (Alike.take (Alike.bind (m := 1) (ih.expression rest rest' (by omega))
      fun _ rest rest' smaller => ?_))
    exact Alike.symbol fun rest rest' smaller =>
      Alike.bind (ih.conditional rest rest' (by omega)) fun _ _ _ _ => Alike.pure

theorem infixes_alike (ih : AlikeAt fuel fuel') (level : Nat) (tokens tokens' : List Token)
    (enough : 16 * longer tokens tokens' + 4 ≤ min (fuel + 1) (fuel' + 1)) :
    Alike 1 tokens tokens' (infixes (fuel + 1) level tokens)
      (infixes (fuel' + 1) level tokens') := by
  refine Alike.started fun tokens tokens' start smaller => ?_
  rw [infixes, infixes, start]
  exact Alike.bind (ih.operand tokens tokens' (by omega)) fun left rest rest' smaller =>
    ih.climb level tightest _ left rest rest' (by omega)

theorem climb_alike (ih : AlikeAt fuel fuel') (level ceiling : Nat) (start : Position)
    (left : Reading) (tokens tokens' : List Token)
    (enough : 16 * longer tokens tokens' + 1 ≤ min (fuel + 1) (fuel' + 1)) :
    Alike 0 tokens tokens' (climb (fuel + 1) level ceiling start left tokens)
      (climb (fuel' + 1) level ceiling start left tokens') := by
  apply Alike.shared
  · exact Alike.pure
  · intro token rest rest' smaller
    rw [climb, climb]
    cases infix? token.lexeme with
    | none => exact Alike.pure
    | some operator =>
      obtain ⟨tightness, op⟩ := operator
      refine Alike.ite (fun _ => Alike.pure) fun _ => Alike.weaken (Alike.take (m := 1) ?_)
      have goesOn (joined : Reading) (rest rest' : List Token) (smaller) :=
        ih.climb level tightness start joined rest rest' smaller
      cases op with
      | instanceOf =>
        exact Alike.bind (dottedName_alike rest rest') fun _ after after' smaller' =>
          goesOn _ after after' (by omega)
      | binary op =>
        exact Alike.bind (ih.infixes _ rest rest' (by omega)) fun _ after after' smaller' =>
          goesOn _ after after' (by omega)
      | logical op =>
        exact Alike.bind (ih.infixes _ rest rest' (by omega)) fun _ after after' smaller' =>
          goesOn _ after after' (by omega)

theorem operand_alike (ih : AlikeAt fuel fuel') (tokens tokens' : List Token)
    (enough : 16 * longer tokens tokens' + 3 ≤ min (fuel + 1) (fuel' + 1)) :
    Alike 1 tokens tokens' (operand (fuel + 1) tokens) (operand (fuel' + 1) tokens') := by
  apply Alike.shared
  · exact Alike.fail
  · intro token rest rest' smaller
    obtain ⟨lexeme, p⟩ := token
    have before (build : Reading → Reading) :
        Alike 1 (⟨lexeme, p⟩ :: rest) (⟨lexeme, p⟩ :: rest')
          (operand fuel rest >>= fun target => .ok (build target.1, target.2))
          (operand fuel' rest' >>= fun target => .ok (build target.1, target.2)) :=
      Alike.take (Alike.bind (ih.operand rest rest' (by omega))
        fun target _ _ _ => Alike.pure (a := build target))
    unfold operand
    dsimp only
    split
    · exact before fun target => ⟨.unary p _ target.expr, p, true⟩
    · split
      · exact before fun target => ⟨.step p _ target.expr true, p, true⟩
      · exact before fun target => ⟨.cast p ⟨p, _, ()⟩ target.expr, p, true⟩
      · refine Alike.take (m := 0) ?_
        have bare (rest rest' : List Token) (fits : longer rest rest' + 1 ≤ longer tokens tokens') :
            Alike 0 rest rest' (withMembers fuel (⟨.symbol .leftParen, p⟩ :: rest))
              (withMembers fuel' (⟨.symbol .leftParen, p⟩ :: rest')) := by
          have short : rest.length ≤ longer rest rest' := Nat.le_max_left _ _
          exact (ih.withMembers _ _ (by rw [longer_cons]; omega)).untake
            (ih.afterParen p rest (by omega))
        apply Alike.shared
        · exact bare [] [] (by rw [longer_nil]; omega)
        · intro token after after' smaller'
          obtain ⟨lexeme, q⟩ := token
          split
          · next same =>
            cases same
            refine Alike.weaken (Alike.take (m := 1) (Alike.symbol (m := 1)
              fun rest rest' smaller'' => ?_))
            exact Alike.bind (ih.operand rest rest' (by omega)) fun _ _ _ _ => Alike.pure
          · next noType =>
            split
            · next type r rest same =>
              cases same
              exact (noType _ _ _ rfl).elim
            · exact bare _ _ (by rw [longer_cons]; omega)
      · exact ih.withMembers _ _ (by rw [longer_cons]; omega)

theorem withMembers_alike (ih : AlikeAt fuel fuel') (tokens tokens' : List Token)
    (enough : 16 * longer tokens tokens' + 2 ≤ min (fuel + 1) (fuel' + 1)) :
    Alike 1 tokens tokens' (withMembers (fuel + 1) tokens)
      (withMembers (fuel' + 1) tokens') := by
  refine Alike.started fun tokens tokens' start smaller => ?_
  rw [withMembers, withMembers, start]
  exact Alike.bind (ih.primary tokens tokens' (by omega)) fun left rest rest' smaller =>
    ih.members _ left rest rest' (by omega)

theorem members_alike (ih : AlikeAt fuel fuel') (start : Position) (left : Reading)
    (tokens tokens' : List Token)
    (enough : 16 * longer tokens tokens' + 1 ≤ min (fuel + 1) (fuel' + 1)) :
    Alike 0 tokens tokens' (members (fuel + 1) start left tokens)
      (members (fuel' + 1) start left tokens') := by
  apply Alike.shared
  · exact Alike.pure
  · intro token rest rest' smaller
    obtain ⟨lexeme, p⟩ := token
    unfold members
    dsimp only
    split
    · refine Alike.weaken (Alike.take (Alike.name (m := 0) fun name rest rest' smaller => ?_))
      dsimp only
      apply Alike.shared
      · exact ih.members _ _ _ _ (by rw [longer_nil]; omega)
      · intro token rest rest' smaller
        refine Alike.ite (fun _ => ?_) fun _ => ?_
        · exact Alike.weaken (Alike.take (Alike.bind (ih.arguments rest rest' (by omega))
            fun _ after after' smaller => ih.members _ _ _ _ (by omega)))
        · exact ih.members _ _ _ _ (by rw [longer_cons]; omega)
    · refine Alike.weaken (Alike.take (Alike.bind (m := 1) (ih.expression rest rest' (by omega))
        fun place rest rest' smaller => ?_))
      exact Alike.symbol fun rest rest' smaller => ih.members _ _ rest rest' (by omega)
    · exact Alike.weaken (Alike.take (ih.members _ _ rest rest' (by omega)))
    · exact Alike.pure

/-- An expression and a symbol behind it. -/
theorem closed_alike {α : Type} (ih : AlikeAt fuel fuel') (build : Reading → α) (mark : Symbol)
    (tokens tokens' : List Token) (enough : 16 * longer tokens tokens' + 6 ≤ min fuel fuel') :
    Alike 1 tokens tokens'
      (expression fuel tokens >>= fun x => expectSymbol mark x.2 >>= fun rest =>
        .ok (build x.1, rest))
      (expression fuel' tokens' >>= fun x => expectSymbol mark x.2 >>= fun rest =>
        .ok (build x.1, rest)) :=
  Alike.bind (ih.expression tokens tokens' enough) fun _ _ _ _ =>
    Alike.symbol fun _ _ _ => Alike.pure

theorem primary_alike (ih : AlikeAt fuel fuel') (tokens tokens' : List Token)
    (enough : 16 * longer tokens tokens' + 1 ≤ min (fuel + 1) (fuel' + 1)) :
    Alike 1 tokens tokens' (primary (fuel + 1) tokens) (primary (fuel' + 1) tokens') := by
  apply Alike.shared
  · exact Alike.fail
  · intro token rest rest' smaller
    obtain ⟨lexeme, p⟩ := token
    unfold primary
    refine Alike.ite (fun _ => Alike.take Alike.pure) fun _ => ?_
    dsimp only
    split
    · refine Alike.take (m := 0) ?_
      apply Alike.shared
      · exact Alike.pure
      · intro token after after' smaller'
        refine Alike.ite (fun _ => ?_) fun _ => Alike.pure
        exact Alike.weaken (Alike.take (Alike.bind (ih.arguments after after' (by omega))
          fun _ _ _ _ => Alike.pure))
    · exact Alike.take (closed_alike ih (fun inner => Reading.mk inner.expr inner.start true)
        .rightParen rest rest' (by omega))
    · refine Alike.take (Alike.bind (m := 1) (dottedName_alike rest rest')
        fun type after after' smaller => ?_)
      exact Alike.symbol fun after after' smaller =>
        Alike.bind (ih.arguments after after' (by omega)) fun _ _ _ _ => Alike.pure
    · exact Alike.fail

theorem expressions_alike (ih : AlikeAt fuel fuel') (tokens tokens' : List Token)
    (enough : 16 * longer tokens tokens' + 7 ≤ min (fuel + 1) (fuel' + 1)) :
    Alike 1 tokens tokens' (expressions (fuel + 1) tokens)
      (expressions (fuel' + 1) tokens') := by
  rw [expressions, expressions]
  refine Alike.bind (m := 0) (ih.expression tokens tokens' (by omega))
    fun first rest rest' smaller => ?_
  dsimp only
  apply Alike.shared
  · exact Alike.pure
  · intro token rest rest' smaller
    refine Alike.ite (fun _ => ?_) fun _ => Alike.pure
    exact Alike.weaken (Alike.take (Alike.bind (ih.expressions rest rest' (by omega))
      fun _ _ _ _ => Alike.pure))

theorem arguments_alike (ih : AlikeAt fuel fuel') (tokens tokens' : List Token)
    (enough : 16 * longer tokens tokens' + 8 ≤ min (fuel + 1) (fuel' + 1)) :
    Alike 1 tokens tokens' (arguments (fuel + 1) tokens) (arguments (fuel' + 1) tokens') := by
  rw [arguments, arguments]
  have some (tokens tokens' : List Token)
      (enough : 16 * longer tokens tokens' + 7 ≤ min fuel fuel') :
      Alike 1 tokens tokens'
        (do
          let read ← expressions fuel tokens
          let rest ← expectSymbol .rightParen read.2
          return (read.1.map fun value => value.expr, rest))
        (do
          let read ← expressions fuel' tokens'
          let rest ← expectSymbol .rightParen read.2
          return (read.1.map fun value => value.expr, rest)) :=
    Alike.bind (ih.expressions tokens tokens' enough)
      fun _ _ _ _ => Alike.symbol fun _ _ _ => Alike.pure
  apply Alike.shared
  · exact some [] [] (by rw [longer_nil]; omega)
  · intro token rest rest' smaller
    refine Alike.ite (fun _ => Alike.take Alike.pure) fun _ => ?_
    exact some _ _ (by rw [longer_cons]; omega)

theorem inParens_step (ih : AlikeAt fuel fuel) (p : Position) (rest : List Token)
    (enough : 16 * rest.length + 15 ≤ fuel + 1) :
    leftover (primary (fuel + 1) (⟨.symbol .leftParen, p⟩ :: rest)) <:+ rest :=
  (closed_alike ih (fun inner => Reading.mk inner.expr inner.start true) .rightParen rest rest
    (by rw [longer_self]; omega)).leaves

theorem afterParen_step (ih : AlikeAt fuel fuel) (p : Position) (rest : List Token)
    (enough : 16 * rest.length + 16 ≤ fuel + 1) :
    leftover (withMembers (fuel + 1) (⟨.symbol .leftParen, p⟩ :: rest)) <:+ rest := by
  have inside := ih.inParens p rest (by omega)
  rw [withMembers]
  generalize primary fuel (⟨.symbol .leftParen, p⟩ :: rest) = result at inside ⊢
  cases result with
  | error left => exact inside
  | ok reading =>
    obtain ⟨left, after⟩ := reading
    have short : after.length ≤ rest.length := inside.length_le
    exact (ih.members _ left after after (by rw [longer_self]; omega)).leaves.trans inside

end Step

/-- **Expressions.** Every function on expressions sees only what it reads, and needs no more
fuel than it takes for sixteen calls on each token. -/
theorem readings_alike (fuel fuel' : Nat) : AlikeAt fuel fuel' := by
  induction fuel generalizing fuel' with
  | zero =>
    constructor <;> intros <;> omega
  | succ fuel ih =>
    cases fuel' with
    | zero =>
      constructor
      · exact inParens_step (ih fuel)
      · exact afterParen_step (ih fuel)
      all_goals
        intros
        omega
    | succ fuel' =>
      exact {
        inParens := inParens_step (ih fuel)
        afterParen := afterParen_step (ih fuel)
        expression := expression_alike (ih fuel')
        conditional := conditional_alike (ih fuel')
        infixes := infixes_alike (ih fuel')
        climb := climb_alike (ih fuel')
        operand := operand_alike (ih fuel')
        withMembers := withMembers_alike (ih fuel')
        members := members_alike (ih fuel')
        primary := primary_alike (ih fuel')
        arguments := arguments_alike (ih fuel')
        expressions := expressions_alike (ih fuel') }

end Formulary.Parser
