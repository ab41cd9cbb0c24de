/-
Folding tokens that stand elsewhere.

Which tokens make up the name of a type is told by their neighbours, and neither the positions nor
the names of variables in front of a bracket count for it.

* `foldFrom_moved` — folding moved tokens moves the folded ones.
* `fold_seated` — folded tokens have changed names only where they may stand.
-/

import Formulary.Proofs.Folding
import Formulary.Proofs.RelabeledGrammar

namespace Formulary

open Grammar

namespace Fold

variable (place : Position → Position) {ident : String → String}

theorem dottedRest_split (tokens : List Token) :
    (dottedRest tokens).1 ++ (dottedRest tokens).2 = tokens := by
  induction tokens using dottedRest.induct with
  | case1 dot part rest text isPart isDot parts after same ih =>
    rw [dottedRest]
    simp only [isPart, isDot]
    rw [List.cons_append, List.cons_append, ih]
  | case2 dot part rest other =>
    rw [dottedRest]
    split
    · next isDot isPart => exact (other _ isDot isPart).elim
    · rfl
  | case3 rest other =>
    rw [dottedRest.eq_2 rest other]
    rfl

/-- What follows a name in a dotted one is a point. -/
theorem dottedRest_dot {tokens others after : List Token} {dot : Token}
    (h : dottedRest tokens = (dot :: others, after)) : dot.lexeme = .symbol .dot := by
  unfold dottedRest at h
  split at h
  · split at h
    · next isDot _ =>
      cases h
      exact isDot
    · cases h
  · cases h

theorem dottedName_split {tokens parts after : List Token}
    (h : dottedName? tokens = some (parts, after)) :
    ∃ first text rest, parts = first :: rest ∧ first.lexeme = .name text ∧
      tokens = first :: (rest ++ after) ∧ dottedRest (rest ++ after) = (rest, after) := by
  unfold dottedName? at h
  split at h
  · cases h
  · next first tokens =>
    split at h
    · next text isFirst =>
      cases h
      refine ⟨first, text, _, rfl, isFirst, ?_, ?_⟩
      · rw [dottedRest_split]
      · rw [dottedRest_split]
    · cases h

open Grammar (AllSeated Seated)

theorem dottedRest_moved (tokens : List Token) :
    dottedRest (tokens.map (Token.moved place ident)) =
      Prod.map (List.map (Token.moved place ident)) (List.map (Token.moved place ident))
        (dottedRest tokens) := by
  induction tokens using dottedRest.induct with
  | case1 dot part rest text isPart isDot parts after same ih =>
    obtain ⟨lexeme, p⟩ := dot
    obtain ⟨lexeme', q⟩ := part
    obtain rfl : lexeme = .symbol .dot := isDot
    obtain rfl : lexeme' = .name text := isPart
    rw [List.map_cons, List.map_cons]
    simp only [dottedRest, Token.moved, Lexeme.rename]
    rw [ih]
    rfl
  | case2 dot part rest other =>
    have kept : dottedRest (dot :: part :: rest) = ([], dot :: part :: rest) := by
      rw [dottedRest]
      split
      · next isDot isPart => exact (other _ isDot isPart).elim
      · rfl
    have kept' : dottedRest ((dot :: part :: rest).map (Token.moved place ident)) =
        ([], (dot :: part :: rest).map (Token.moved place ident)) := by
      rw [List.map_cons, List.map_cons, dottedRest]
      split
      · next text isDot isPart =>
        obtain ⟨lexeme, p⟩ := dot
        obtain ⟨lexeme', q⟩ := part
        cases lexeme <;> cases isDot
        cases lexeme' <;> cases isPart
        exact (other _ rfl rfl).elim
      · rfl
    rw [kept, kept']
    rfl
  | case3 rest other =>
    have short : ∀ dot part more, rest.map (Token.moved place ident) ≠ dot :: part :: more := by
      intro dot part more same
      obtain ⟨first, others, rfl, -, isPart⟩ := List.map_eq_cons_iff.mp same
      obtain ⟨second, others, rfl, -, -⟩ := List.map_eq_cons_iff.mp isPart
      exact other _ _ _ rfl
    rw [dottedRest.eq_2 rest other, dottedRest.eq_2 _ short]
    rfl

theorem dottedName_moved (tokens : List Token) :
    dottedName? (tokens.map (Token.moved place ident)) =
      (dottedName? tokens).map
        (Prod.map (List.map (Token.moved place ident)) (List.map (Token.moved place ident))) := by
  rcases tokens with - | ⟨⟨lexeme, p⟩, rest⟩
  · rfl
  · cases lexeme with
    | name text =>
      simp only [List.map_cons, dottedName?, Token.moved, Lexeme.rename]
      rw [dottedRest_moved]
      rfl
    | _ => rfl

/-- Names behind points are kept. -/
theorem dottedRest_kept {tokens : List Token} (seated : AllSeated ident tokens) :
    ∀ part ∈ (dottedRest tokens).1, part.lexeme.rename ident = part.lexeme := by
  induction tokens using dottedRest.induct with
  | case1 dot part rest text isPart isDot parts after same ih =>
    rw [dottedRest]
    simp only [isPart, isDot]
    have behind := seated.rest.rest
    refine List.forall_mem_cons.mpr ⟨?_, List.forall_mem_cons.mpr ⟨?_, ih behind⟩⟩
    · rw [isDot]
      rfl
    · obtain ⟨lexeme, p⟩ := part
      obtain rfl : lexeme = .name text := isPart
      have kept : ident text = text :=
        seated.first.kept_behind (by simp [isDot]) (by simp [isDot])
      exact congrArg Lexeme.name kept
  | case2 dot part rest other =>
    rw [dottedRest]
    split
    · next isDot isPart => exact (other _ isDot isPart).elim
    · exact List.forall_mem_nil _
  | case3 rest other =>
    rw [dottedRest.eq_2 rest other]
    exact List.forall_mem_nil _

theorem joined_moved {parts : List Token}
    (kept : ∀ part ∈ parts, part.lexeme.rename ident = part.lexeme) :
    joined (parts.map (Token.moved place ident)) = joined parts := by
  have same : ∀ part ∈ parts, (part.moved place ident).lexeme.chars = part.lexeme.chars :=
    fun part isIn => congrArg Lexeme.chars (kept part isIn)
  rw [joined, joined, List.flatMap_map]
  exact congrArg String.ofList (List.flatMap_congr same)

theorem startsOperand_moved (token : Token) :
    startsOperand (token.moved place ident) = startsOperand token := by
  obtain ⟨lexeme, p⟩ := token
  cases lexeme <;> rfl

theorem castMayFollow_moved (previous : Option Token) :
    castMayFollow (previous.map (Token.moved place ident)) = castMayFollow previous := by
  rcases previous with - | ⟨lexeme, p⟩
  · rfl
  · cases lexeme <;> rfl

theorem rename_eq_symbol {lexeme : Lexeme} {mark : Symbol} :
    lexeme.rename ident = .symbol mark ↔ lexeme = .symbol mark := by
  cases lexeme <;> simp [Lexeme.rename]

theorem castAt_moved (previous : Option Token) {tokens : List Token}
    (seated : AllSeated ident tokens) :
    castAt? (previous.map (Token.moved place ident)) (tokens.map (Token.moved place ident)) =
      (castAt? previous tokens).map (Prod.map (Token.moved place ident) id) := by
  cases tokens with
  | nil => rfl
  | cons paren rest =>
    have isParen : ((paren.moved place ident).lexeme = .symbol .leftParen) =
        (paren.lexeme = .symbol .leftParen) := propext rename_eq_symbol
    rw [List.map_cons, castAt?, castAt?, castMayFollow_moved, dottedName_moved]
    simp only [isParen]
    split
    · next opens =>
      have isParen : paren.lexeme = .symbol .leftParen := by
        simp only [Bool.and_eq_true, decide_eq_true_eq] at opens
        exact opens.1
      cases named : dottedName? rest with
      | none => rfl
      | some found =>
        obtain ⟨parts, after⟩ := found
        obtain ⟨first, text, others, rfl, isFirst, rfl, isRest⟩ := dottedName_split named
        have kept : ∀ part ∈ first :: others, part.lexeme.rename ident = part.lexeme := by
          refine List.forall_mem_cons.mpr ⟨?_, ?_⟩
          · obtain ⟨lexeme, p⟩ := first
            obtain rfl : lexeme = .name text := isFirst
            have kept : ident text = text :=
              seated.first.kept_behind (by simp [isParen])
                (by simp [isParen])
            exact congrArg Lexeme.name kept
          · have behind := dottedRest_kept seated.rest.rest
            rwa [isRest] at behind
        rcases after with - | ⟨closing, - | ⟨operand, more⟩⟩
        · rfl
        · rfl
        · have isClosing : ((closing.moved place ident).lexeme = .symbol .rightParen) =
              (closing.lexeme = .symbol .rightParen) := propext rename_eq_symbol
          have text := joined_moved place kept
          rw [List.map_cons] at text
          simp only [Option.map_some, Prod.map_apply, List.map_cons, isClosing,
            startsOperand_moved, List.head?_cons, List.length_cons, List.length_map, text]
          split <;> rfl
    · rfl

theorem declaredAt_moved {tokens : List Token} (seated : AllSeated ident tokens) :
    declaredAt? (tokens.map (Token.moved place ident)) =
      (declaredAt? tokens).map (Prod.map (Token.moved place ident) id) := by
  rw [declaredAt?, declaredAt?, dottedName_moved]
  cases named : dottedName? tokens with
  | none => rfl
  | some found =>
    obtain ⟨parts, after⟩ := found
    obtain ⟨first, text, others, rfl, isFirst, rfl, isRest⟩ := dottedName_split named
    cases after with
    | nil => rfl
    | cons next more =>
      obtain ⟨lexeme, p⟩ := next
      cases lexeme with
      | name other =>
        -- A name or a point follows the first name, and no bracket.
        have kept : ∀ part ∈ first :: others, part.lexeme.rename ident = part.lexeme := by
          refine List.forall_mem_cons.mpr ⟨?_, ?_⟩
          · obtain ⟨lexeme, q⟩ := first
            obtain rfl : lexeme = .name text := isFirst
            have kept : ident text = text := by
              cases others with
              | nil => exact seated.first.kept_front (by simp)
              | cons dot others =>
                have isDot := dottedRest_dot isRest
                exact seated.first.kept_front (by simp [isDot])
            exact congrArg Lexeme.name kept
          · have behind := dottedRest_kept seated.rest
            rwa [isRest] at behind
        have text := joined_moved place kept
        rw [List.map_cons] at text
        simp only [Option.map_some, Prod.map_apply, List.map_cons, Token.moved, Lexeme.rename,
          List.head?_cons, List.length_cons, List.length_map] at text ⊢
        rw [text]
        rfl
      | _ => rfl

/-- **Folding tokens that stand elsewhere.** -/
theorem foldFrom_moved {tokens : List Token} (seated : AllSeated ident tokens) (skip : Nat)
    (previous : Option Token) :
    foldFrom skip (previous.map (Token.moved place ident))
        (tokens.map (Token.moved place ident)) =
      (foldFrom skip previous tokens).map (Token.moved place ident) := by
  induction tokens generalizing skip previous with
  | nil => cases skip <;> rfl
  | cons token rest ih =>
    have later := ih seated.rest
    cases skip with
    | succ skip => exact later skip (some token)
    | zero =>
      have cast := castAt_moved place previous seated
      have declared := declaredAt_moved place seated
      rw [List.map_cons] at cast declared ⊢
      rw [foldFrom, foldFrom, cast, declared]
      cases isCast : castAt? previous (token :: rest) with
      | some found => exact congrArg (_ :: ·) (later (found.2 - 1) (some token))
      | none =>
        cases isDeclared : declaredAt? (token :: rest) with
        | some found => exact congrArg (_ :: ·) (later (found.2 - 1) (some token))
        | none => exact congrArg (_ :: ·) (later 0 (some token))

/-! ### Neighbours behind folding -/

/-- A name behind a dotted one is kept. -/
theorem dottedRest_nextKept {before next : Token} {first text : String}
    {tokens parts more : List Token}
    (seated : AllSeated ident (before :: tokens)) (isName : before.lexeme = .name first)
    (split : dottedRest tokens = (parts, next :: more)) (isNext : next.lexeme = .name text) :
    ident text = text := by
  induction tokens using dottedRest.induct generalizing before first parts with
  | case1 dot part rest inner isPart isDot parts' after same ih =>
    rw [dottedRest] at split
    simp only [isPart, isDot, same] at split
    obtain ⟨-, rfl⟩ := Prod.mk.inj split
    exact ih seated.rest.rest isPart same
  | case2 dot part rest other =>
    rw [dottedRest] at split
    split at split
    · next isDot isPart => exact (other _ isDot isPart).elim
    · cases split
      obtain ⟨lexeme, p⟩ := next
      obtain rfl : lexeme = .name text := isNext
      exact seated.first.kept_behind (by simp [isName]) (by simp [isName])
  | case3 rest other =>
    rw [dottedRest.eq_2 rest other] at split
    cases split
    obtain ⟨lexeme, p⟩ := next
    obtain rfl : lexeme = .name text := isNext
    exact seated.first.kept_behind (by simp [isName]) (by simp [isName])

/-- A token behind folding, where there was one in front of it: the same one, or a folded one that
takes the place of one that is no bracket. -/
def Follows (folded token : Token) : Prop :=
  folded = token ∨ (∀ text, folded.lexeme ≠ .name text) ∧ token.lexeme ≠ .symbol .leftBracket

theorem Follows.seated {before folded token : Token} (h : Follows folded token)
    (seated : Seated ident before token) : Seated ident before folded := by
  rcases h with rfl | ⟨noName, noBracket⟩
  · exact seated
  · exact ⟨fun text isName => absurd isName (noName text),
      fun text isName changed => absurd (seated.front text isName changed) noBracket⟩

/-- Behind a token that stands for a type, names are as they are behind what it stands for. -/
theorem found_seated {previous : Option Token} {token folded : Token} {rest : List Token}
    {count : Nat} (seated : AllSeated ident (token :: rest))
    (found : (castAt? previous (token :: rest) <|> declaredAt? (token :: rest)) =
      some (folded, count)) :
    Follows folded token ∧ ∀ next, (rest.drop (count - 1)).head? = some next →
      ∀ after, Follows after next → Seated ident folded after := by
  rw [Option.orElse_eq_orElse, Option.orElse_eq_or, Option.or_eq_some_iff] at found
  rcases found with isCast | ⟨-, isDeclared⟩
  · simp only [castAt?] at isCast
    split at isCast
    · next opens =>
      split at isCast
      · split at isCast
        · obtain ⟨first, -, same⟩ := Option.map_eq_some_iff.mp isCast
          obtain ⟨rfl, rfl⟩ := Prod.mk.inj same
          simp only [Bool.and_eq_true, decide_eq_true_eq] at opens
          exact ⟨.inr ⟨fun text => by simp, by simp [opens.1]⟩, fun next _ after _ =>
            ⟨fun _ _ _ => .inr ⟨_, rfl⟩, fun text isName => by simp at isName⟩⟩
        · cases isCast
      · cases isCast
    · cases isCast
  · unfold declaredAt? at isDeclared
    split at isDeclared
    · next parts next more named =>
      split at isDeclared
      · next text isNext =>
        obtain ⟨first, isFirst, same⟩ := Option.map_eq_some_iff.mp isDeclared
        obtain ⟨rfl, rfl⟩ := Prod.mk.inj same
        obtain ⟨start, name, others, rfl, isName, same, isRest⟩ := dottedName_split named
        obtain ⟨rfl, rfl⟩ := List.cons.inj same
        have kept : ident text = text := dottedRest_nextKept seated isName isRest isNext
        refine ⟨.inr ⟨fun text => by simp, by simp [isName]⟩, ?_⟩
        intro following isFollowing after h
        rw [List.length_cons, Nat.add_sub_cancel, List.drop_left, List.head?_cons] at isFollowing
        cases isFollowing
        refine ⟨fun word isWord changed => ?_, fun word isWord => by simp at isWord⟩
        rcases h with rfl | ⟨noName, -⟩
        · rw [isNext] at isWord
          cases isWord
          exact absurd kept changed
        · exact absurd isWord (noName word)
      · cases isDeclared
    · cases isDeclared

/-- **Folding leaves changed names where they may stand.** -/
theorem foldFrom_seated {tokens : List Token} (seated : AllSeated ident tokens) (skip : Nat)
    (previous : Option Token) :
    AllSeated ident (foldFrom skip previous tokens) ∧
      ∀ folded, (foldFrom skip previous tokens).head? = some folded →
        ∃ token, (tokens.drop skip).head? = some token ∧ Follows folded token := by
  induction tokens generalizing skip previous with
  | nil =>
    have none : foldFrom skip previous [] = [] := by cases skip <;> rfl
    rw [none]
    exact ⟨List.IsChain.nil, fun _ found => nomatch found⟩
  | cons token rest ih =>
    have later := ih seated.rest
    -- What is put in front has to be seated in front of what follows.
    have ahead {first : Token} {more : List Token} (chain : AllSeated ident more)
        (first_seated : ∀ after, more.head? = some after → Seated ident first after) :
        AllSeated ident (first :: more) := by
      cases more with
      | nil => exact List.IsChain.singleton first
      | cons after more => exact .cons_cons (first_seated after rfl) chain
    cases skip with
    | succ skip => exact later skip (some token)
    | zero =>
      rw [foldFrom]
      split
      · next folded count found =>
        obtain ⟨follows, behind⟩ := found_seated seated found
        obtain ⟨chain, heads⟩ := later (count - 1) (some token)
        refine ⟨ahead chain fun after isAfter => ?_, ?_⟩
        · obtain ⟨next, isNext, isFollowing⟩ := heads after isAfter
          exact behind next isNext after isFollowing
        · rintro _ ⟨⟩
          exact ⟨token, rfl, follows⟩
      · obtain ⟨chain, heads⟩ := later 0 (some token)
        refine ⟨ahead chain fun after isAfter => ?_, ?_⟩
        · obtain ⟨next, isNext, isFollowing⟩ := heads after isAfter
          obtain ⟨more, same⟩ := List.head?_eq_some_iff.mp isNext
          rw [List.drop_zero] at same
          subst same
          exact isFollowing.seated seated.first
        · rintro _ ⟨⟩
          exact ⟨token, rfl, .inl rfl⟩

theorem fold_seated {tokens : List Token} (seated : AllSeated ident tokens) :
    AllSeated ident (fold tokens) :=
  (foldFrom_seated seated 0 none).1

end Fold

end Formulary
