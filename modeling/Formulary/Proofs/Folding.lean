/-
What is written is folded back.

The folding of type names looks at lexemes only. `Apart` says of lexemes with casts among them
that nothing but the casts is folded once they are written out: no name stands beside a name,
and what a parenthesis encloses is no dotted name alone, unless the parenthesis is one that
opens no cast.

* `fold_apart` — such lexemes, written out, are folded to what they were.
* `Apart.append` — parts that are folded back one by one are folded back together.
-/

import Formulary.Proofs.Printing

namespace Formulary.Fold

open Printing

/-! ### Dotted names -/

def isName : Lexeme → Bool
  | .name _ => true
  | _ => false

/-- Whether a lexeme may be part of a dotted name. -/
def inName : Lexeme → Bool
  | .name _ | .symbol .dot => true
  | _ => false

/-- Lexemes that are not both names. -/
def Unlike (lexeme next : Lexeme) : Prop :=
  isName lexeme = true → isName next = false

/-- The first lexeme that can be no part of a dotted name. -/
def firstOther (lexemes : List Lexeme) : Option Lexeme :=
  lexemes.find? fun lexeme => !inName lexeme

/-- A dotted name ends before the first lexeme that is no part of one. -/
theorem dottedRest_firstOther (tokens : List Token) :
    firstOther ((dottedRest tokens).2.map Token.lexeme) =
      firstOther (tokens.map Token.lexeme) := by
  induction tokens using dottedRest.induct with
  | case1 dot part rest text isPart isDot parts after same ih =>
    rw [dottedRest]
    simp only [isPart, isDot]
    rw [ih]
    simp [firstOther, inName, isPart, isDot]
  | case2 dot part rest other =>
    rw [dottedRest]
    split
    · next isDot isPart => exact (other _ isDot isPart).elim
    · rfl
  | case3 rest other =>
    rw [dottedRest.eq_2 rest other]

/-- Behind a dotted name stands no name, if no name stands beside a name. -/
theorem dottedRest_next {name : Token} {tokens : List Token}
    (h : ((name :: tokens).map Token.lexeme).IsChain Unlike) (named : isName name.lexeme = true) :
    ∀ next more, (dottedRest tokens).2 = next :: more → isName next.lexeme = false := by
  have beside (next : Token) (more : List Token) (same : tokens = next :: more) :
      isName next.lexeme = false := by
    subst same
    exact (List.isChain_cons_cons.mp h).1 named
  induction tokens using dottedRest.induct generalizing name with
  | case1 dot part rest text isPart isDot parts after same ih =>
    have behind : ((part :: rest).map Token.lexeme).IsChain Unlike :=
      (List.isChain_cons_cons.mp (List.isChain_cons_cons.mp h).2).2
    have named : isName part.lexeme = true := by rw [isPart]; rfl
    intro next more follows
    rw [dottedRest] at follows
    simp only [isPart, isDot] at follows
    refine ih behind named (fun next more same => ?_) next more follows
    subst same
    exact (List.isChain_cons_cons.mp behind).1 named
  | case2 dot part rest other =>
    intro next more follows
    rw [dottedRest] at follows
    split at follows
    · next isDot isPart => exact (other _ isDot isPart).elim
    · exact beside next more follows
  | case3 rest other =>
    intro next more follows
    rw [dottedRest.eq_2 rest other] at follows
    exact beside next more follows

theorem dottedName_some {tokens parts after : List Token}
    (h : dottedName? tokens = some (parts, after)) :
    ∃ first rest, tokens = first :: rest ∧ isName first.lexeme = true ∧
      after = (dottedRest rest).2 := by
  unfold dottedName? at h
  split at h
  · cases h
  · next first rest =>
    split at h
    · next isFirst =>
      cases h
      exact ⟨first, rest, rfl, by rw [isFirst]; rfl, rfl⟩
    · cases h

/-- A parenthesis opens no cast if what it encloses is no dotted name alone. -/
theorem castAt_none {previous : Option Token} {paren : Token} {tokens : List Token}
    {other : Lexeme} (h : firstOther (tokens.map Token.lexeme) = some other)
    (inside : other ≠ .symbol .rightParen) : castAt? previous (paren :: tokens) = none := by
  rw [castAt?]
  split
  · split
    · next parts closing operand more named =>
      obtain ⟨first, rest, rfl, isFirst, follows⟩ := dottedName_some named
      have noClosing : closing.lexeme ≠ .symbol .rightParen := by
        intro closes
        have found : firstOther ((closing :: operand :: more).map Token.lexeme) =
            some (.symbol .rightParen) := by
          simp [firstOther, closes, inName]
        have named : inName first.lexeme = true := by
          revert isFirst
          cases first.lexeme <;> simp [isName, inName]
        rw [follows, dottedRest_firstOther] at found
        rw [List.map_cons, firstOther, List.find?_cons_of_neg (by simp [named])] at h
        exact inside (Option.some.inj (h.symm.trans found))
      simp [noClosing]
    · rfl
  · rfl

/-- No type is declared where no name stands beside a name. -/
theorem declaredAt_none {tokens : List Token}
    (h : (tokens.map Token.lexeme).IsChain Unlike) : declaredAt? tokens = none := by
  unfold declaredAt?
  split
  · next parts next more named =>
    obtain ⟨first, rest, rfl, isFirst, follows⟩ := dottedName_some named
    have noName := dottedRest_next h isFirst next more follows.symm
    split
    · next isNext =>
      rw [isNext] at noName
      cases noName
    · rfl
  · rfl

/-! ### Casts -/

/-- Points and names are taken up to what is no point. -/
theorem dottedRest_points {names : List String} {tokens after : List Token}
    (same : tokens.map Token.lexeme =
      names.flatMap fun name => [.symbol .dot, .name name])
    (stops : ∀ next more, after = next :: more → next.lexeme ≠ .symbol .dot) :
    dottedRest (tokens ++ after) = (tokens, after) := by
  induction names generalizing tokens with
  | nil =>
    obtain rfl := List.map_eq_nil_iff.mp same
    rw [List.nil_append]
    rcases after with - | ⟨next, - | ⟨second, more⟩⟩
    · rfl
    · rfl
    · have noDot := stops next _ rfl
      rw [dottedRest]
      split
      · next isDot _ => exact absurd isDot noDot
      · rfl
  | cons name names ih =>
    rw [List.flatMap_cons, List.cons_append, List.singleton_append] at same
    obtain ⟨dot, tokens, rfl, isDot, same⟩ := List.map_eq_cons_iff.mp same
    obtain ⟨part, tokens, rfl, isPart, same⟩ := List.map_eq_cons_iff.mp same
    rw [List.cons_append, List.cons_append, dottedRest]
    simp only [isDot, isPart, ih same]

theorem dottedName_points {names : List String} {tokens after : List Token} (some : names ≠ [])
    (same : tokens.map Token.lexeme = dotted names)
    (stops : ∀ next more, after = next :: more → next.lexeme ≠ .symbol .dot) :
    dottedName? (tokens ++ after) = .some (tokens, after) := by
  obtain ⟨name, names, rfl⟩ := List.exists_cons_of_ne_nil some
  obtain ⟨first, tokens, rfl, isFirst, same⟩ := List.map_eq_cons_iff.mp same
  rw [List.cons_append, dottedName?]
  simp only [isFirst, dottedRest_points same stops]

theorem nameParts_some (name : String) : nameParts name ≠ [] := by
  simp [nameParts]

theorem dotted_intercalate (first : List Char) (more : List (List Char)) :
    (dotted ((first :: more).map String.ofList)).flatMap Lexeme.chars =
      ['.'].intercalate (first :: more) := by
  induction more generalizing first with
  | nil => simp [dotted, Lexeme.chars]
  | cons second more ih =>
    have others := ih second
    simp only [dotted, List.map_cons, List.flatMap_cons, Lexeme.chars, String.toList_ofList,
      List.flatMap_append] at others ⊢
    rw [List.intercalate_cons_cons, ← others]
    simp [Symbol.text]

/-- The text of the parts of a name, with points between them, is the name. -/
theorem dotted_chars (name : String) :
    (dotted (nameParts name)).flatMap Lexeme.chars = name.toList := by
  obtain ⟨first, more, split⟩ := List.exists_cons_of_ne_nil
    (List.splitOn_ne_nil '.' name.toList)
  have whole : ['.'].intercalate (name.toList.splitOn '.') = name.toList :=
    List.intercalate_splitOn '.'
  rw [split] at whole
  rw [nameParts, split, dotted_intercalate, whole]

theorem joined_dotted {name : String} {parts : List Token}
    (same : parts.map Token.lexeme = dotted (nameParts name)) : joined parts = name := by
  have chars : parts.flatMap (fun part => part.lexeme.chars) =
      (parts.map Token.lexeme).flatMap Lexeme.chars := by
    rw [List.flatMap_map]
  rw [joined, chars, same, dotted_chars, String.ofList_toList]

/-- The lexemes behind which a parenthesis opens no cast. -/
def barsCast : Lexeme → Bool
  | .name _ | .keyword .ifWord | .keyword .whileWord | .keyword .forWord => true
  | _ => false

theorem castMayFollow_eq (previous : Option Token) :
    castMayFollow previous = !(previous.map Token.lexeme).any barsCast := by
  rcases previous with - | ⟨lexeme, p⟩
  · rfl
  · cases lexeme with
    | keyword word => cases word <;> rfl
    | _ => rfl

/-- A type name in parentheses in front of an operand is folded. -/
theorem castAt_type {name : String} {previous : Option Token} {paren closing operand : Token}
    {parts : List Token} (isParen : paren.lexeme = .symbol .leftParen)
    (mayFollow : (previous.map Token.lexeme).any barsCast = false)
    (same : parts.map Token.lexeme = dotted (nameParts name))
    (isClosing : closing.lexeme = .symbol .rightParen) (starts : startsOperand operand = true)
    (more : List Token) :
    ∃ p, castAt? previous (paren :: (parts ++ closing :: operand :: more)) =
      some (⟨.castType name, p⟩, (parts ++ [closing]).length + 1) := by
  have noDot : ∀ next rest, closing :: operand :: more = next :: rest →
      next.lexeme ≠ .symbol .dot := by
    rintro _ _ ⟨⟩ isDot
    rw [isDot] at isClosing
    cases isClosing
  have named := dottedName_points (nameParts_some name) same noDot
  obtain ⟨first, rest, rfl⟩ : ∃ first rest, parts = first :: rest := by
    refine List.exists_cons_of_ne_nil ?_
    rintro rfl
    obtain ⟨part, others, split⟩ := List.exists_cons_of_ne_nil (nameParts_some name)
    rw [split] at same
    cases same
  refine ⟨first.position, ?_⟩
  rw [castAt?, castMayFollow_eq, mayFollow]
  simp only [isParen, named, isClosing, starts, joined_dotted same, List.head?_cons,
    Option.map_some, List.length_append, List.length_singleton]
  simp

/-! ### Folding -/

theorem foldFrom_skip (tokens rest : List Token) (last : Token) (previous : Option Token) :
    foldFrom (tokens ++ [last]).length previous (tokens ++ last :: rest) =
      foldFrom 0 (some last) rest := by
  induction tokens generalizing previous with
  | nil => rfl
  | cons token tokens ih =>
    exact ih (some token)

/-- Whether an operand may start with the first lexeme of what is written out. -/
def startsWritten : Lexeme → Bool
  | .castType _ => true
  | lexeme => startsOperand ⟨lexeme, Position.start⟩

/-- Whether a lexeme, between the one in front and those behind, is folded back to itself. -/
def Keeps (previous : Option Lexeme) (rest : List Lexeme) : Lexeme → Prop
  | .castType _ => previous.any barsCast = false ∧
    ∃ next more, rest = next :: more ∧ startsWritten next = true
  | .symbol .leftParen => previous.any barsCast = true ∨
    ∃ other, firstOther rest = some other ∧ other ≠ .symbol .rightParen
  | .name _ => ∀ next more, rest = next :: more → isName next = false
  | .declaredType _ => False
  | _ => True

/-- The last lexeme that a lexeme is written with. -/
def lastWritten : Lexeme → Lexeme
  | .castType _ => .symbol .rightParen
  | lexeme => lexeme

/-- Lexemes each of which is folded back to itself. -/
def Apart (previous : Option Lexeme) : List Lexeme → Prop
  | [] => True
  | lexeme :: rest => Keeps previous rest lexeme ∧ Apart (some (lastWritten lexeme)) rest

theorem isChain_cons_of_noName {lexeme : Lexeme} {rest : List Lexeme}
    (noName : isName lexeme = false) (h : rest.IsChain Unlike) :
    (lexeme :: rest).IsChain Unlike := by
  refine List.isChain_cons.mpr ⟨fun next _ isName => ?_, h⟩
  rw [noName] at isName
  cases isName

theorem points_chain {names : List String} {back : List Lexeme}
    (h : ∀ name, (.name name :: back).IsChain Unlike) (name : String) :
    (.name name :: (names.flatMap (fun name => [.symbol .dot, .name name]) ++ back)).IsChain
      Unlike := by
  induction names generalizing name with
  | nil => exact h name
  | cons second names ih =>
    refine List.isChain_cons_cons.mpr ⟨fun _ => rfl, ?_⟩
    exact isChain_cons_of_noName rfl (ih second)

theorem typeName_chain {parts : List String} (some : parts ≠ []) {back : List Lexeme}
    (h : ∀ name, (.name name :: back).IsChain Unlike) : (dotted parts ++ back).IsChain Unlike := by
  obtain ⟨first, more, rfl⟩ := List.exists_cons_of_ne_nil some
  exact points_chain h first

theorem writtenOut_head {lexeme : Lexeme} (noName : isName lexeme = false) (rest : List Lexeme) :
    ∃ first more, writtenOut lexeme ++ rest = first :: more ∧ isName first = false := by
  cases lexeme with
  | castType name => exact ⟨_, _, rfl, rfl⟩
  | name text => cases noName
  | _ => exact ⟨_, _, rfl, rfl⟩

/-- In what is written out no name stands beside a name. -/
theorem Apart.chain {pieces : List Lexeme} {previous : Option Lexeme}
    (h : Apart previous pieces) : (pieces.flatMap writtenOut).IsChain Unlike := by
  induction pieces generalizing previous with
  | nil => exact List.isChain_nil
  | cons lexeme rest ih =>
    obtain ⟨keeps, others⟩ := h
    have chain := ih others
    rw [List.flatMap_cons]
    cases lexeme with
    | castType name =>
      rw [writtenOut, parenthesized, List.cons_append, List.append_assoc, List.singleton_append]
      refine isChain_cons_of_noName rfl (typeName_chain (nameParts_some name) fun part => ?_)
      exact List.isChain_cons_cons.mpr ⟨fun _ => rfl, isChain_cons_of_noName rfl chain⟩
    | name text =>
      refine List.isChain_cons.mpr ⟨fun first isFirst _ => ?_, chain⟩
      cases rest with
      | nil => cases isFirst
      | cons next more =>
        obtain ⟨head, tail, same, noName⟩ := writtenOut_head (keeps next more rfl)
          (more.flatMap writtenOut)
        rw [List.flatMap_cons, same] at isFirst
        obtain rfl : head = first := by simpa using isFirst
        exact noName
    | _ => exact isChain_cons_of_noName rfl chain

/-- What encloses more than a dotted name does so when it is written out. -/
theorem firstOther_written {pieces : List Lexeme} {other : Lexeme}
    (h : firstOther pieces = some other) (inside : other ≠ .symbol .rightParen) :
    ∃ other, firstOther (pieces.flatMap writtenOut) = some other ∧
      other ≠ .symbol .rightParen := by
  induction pieces with
  | nil => cases h
  | cons lexeme rest ih =>
    rw [List.flatMap_cons]
    by_cases named : inName lexeme = true
    · have single : writtenOut lexeme = [lexeme] := by
        cases lexeme with
        | castType name => cases named
        | _ => rfl
      rw [firstOther, List.find?_cons_of_neg (by simp [named])] at h
      rw [single, List.singleton_append, firstOther, List.find?_cons_of_neg (by simp [named])]
      exact ih h
    · rw [firstOther, List.find?_cons_of_pos (by simp [named])] at h
      obtain rfl := Option.some.inj h
      cases lexeme with
      | castType name => exact ⟨.symbol .leftParen, rfl, by simp⟩
      | _ =>
        refine ⟨_, List.find?_cons_of_pos ?_, inside⟩
        simpa using named

/-- What an operand may start with is written as something that one may start with. -/
theorem startsWritten_operand {next : Lexeme} {more : List Lexeme} {tokens : List Token}
    (starts : startsWritten next = true)
    (same : tokens.map Token.lexeme = (next :: more).flatMap writtenOut) :
    ∃ operand after, tokens = operand :: after ∧ startsOperand operand = true := by
  have first : ∃ lexeme rest, (next :: more).flatMap writtenOut = lexeme :: rest ∧
      startsOperand ⟨lexeme, Position.start⟩ = true := by
    cases next with
    | castType name => exact ⟨_, _, rfl, rfl⟩
    | _ => exact ⟨_, _, rfl, starts⟩
  obtain ⟨lexeme, rest, begins, starts⟩ := first
  rw [begins] at same
  obtain ⟨operand, after, rfl, rfl, -⟩ := List.map_eq_cons_iff.mp same
  exact ⟨operand, after, rfl, starts⟩

/-- **Folding.** Lexemes with casts among them, written out, are folded to what they were. -/
theorem fold_apart {pieces : List Lexeme} {previous : Option Token} {front : Option Lexeme}
    {tokens : List Token} (isFront : previous.map Token.lexeme = front) (h : Apart front pieces)
    (same : tokens.map Token.lexeme = pieces.flatMap writtenOut) :
    (foldFrom 0 previous tokens).map Token.lexeme = pieces := by
  induction pieces generalizing previous front tokens with
  | nil =>
    obtain rfl := List.map_eq_nil_iff.mp same
    rfl
  | cons lexeme rest ih =>
    have chain : (tokens.map Token.lexeme).IsChain Unlike := same ▸ h.chain
    obtain ⟨keeps, others⟩ := h
    rw [List.flatMap_cons] at same
    -- A lexeme that is written as it is stays where no cast begins with it.
    have single (plain : writtenOut lexeme = [lexeme]) (last : lastWritten lexeme = lexeme)
        (noCast : ∀ token more, tokens = token :: more → token.lexeme = lexeme →
          more.map Token.lexeme = rest.flatMap writtenOut →
          castAt? previous (token :: more) = none) :
        (foldFrom 0 previous tokens).map Token.lexeme = lexeme :: rest := by
      rw [plain, List.singleton_append] at same
      obtain ⟨token, more, rfl, isFirst, behind⟩ := List.map_eq_cons_iff.mp same
      rw [foldFrom, noCast token more rfl isFirst behind, declaredAt_none chain]
      change token.lexeme :: (foldFrom 0 (some token) more).map Token.lexeme = _
      have isFront : (some token).map Token.lexeme = some (lastWritten lexeme) := by
        rw [last, ← isFirst]
        rfl
      rw [ih isFront others behind, isFirst]
    have noParen (open_ : lexeme ≠ .symbol .leftParen) (token : Token) (more : List Token)
        (isFirst : token.lexeme = lexeme) : castAt? previous (token :: more) = none := by
      rw [castAt?, isFirst]
      simp [open_]
    cases lexeme with
    | castType name =>
      obtain ⟨mayFollow, next, more, rfl, starts⟩ := keeps
      rw [writtenOut, parenthesized, List.cons_append, List.append_assoc,
        List.singleton_append] at same
      obtain ⟨paren, tokens, rfl, isParen, same⟩ := List.map_eq_cons_iff.mp same
      obtain ⟨parts, tokens, rfl, isType, same⟩ := List.map_eq_append_iff.mp same
      obtain ⟨closing, tokens, rfl, isClosing, behind⟩ := List.map_eq_cons_iff.mp same
      obtain ⟨operand, after, rfl, isOperand⟩ := startsWritten_operand starts behind
      obtain ⟨p, isCast⟩ := castAt_type isParen (isFront ▸ mayFollow) isType isClosing isOperand after
      have isFront : (some closing).map Token.lexeme =
          some (lastWritten (.castType name)) := congrArg some isClosing
      rw [foldFrom, isCast]
      change _ :: List.map _ (foldFrom (parts ++ [closing]).length _ _) = _
      rw [foldFrom_skip, ih isFront others behind]
    | symbol mark =>
      refine single rfl rfl fun token more _ isFirst behind => ?_
      by_cases isParen : mark = .leftParen
      · subst isParen
        rcases keeps with barred | ⟨other, isOther, inside⟩
        · rw [castAt?, castMayFollow_eq, isFront, barred]
          simp
        · obtain ⟨other, isOther, inside⟩ := firstOther_written isOther inside
          exact castAt_none (behind ▸ isOther) inside
      · exact noParen (by simp [isParen]) token more isFirst
    | declaredType name => exact keeps.elim
    | _ => exact single rfl rfl fun token more _ isFirst _ => noParen (by simp) token more isFirst

/-! ### Parts -/

theorem keeps_append {front : Option Lexeme} {rest back : List Lexeme} {lexeme : Lexeme}
    (h : Keeps front rest lexeme) (noName : ∀ next more, back = next :: more →
      isName next = false) : Keeps front (rest ++ back) lexeme := by
  have longer : ∀ next more, rest ++ back = next :: more →
      (∀ next more, rest = next :: more → isName next = false) → isName next = false := by
    intro next more same apart
    cases rest with
    | nil => exact noName next more same
    | cons first rest =>
      obtain rfl := (List.cons.inj same).1
      exact apart _ _ rfl
  cases lexeme with
  | castType name =>
    obtain ⟨mayFollow, next, more, rfl, starts⟩ := h
    exact ⟨mayFollow, next, more ++ back, rfl, starts⟩
  | name text => exact fun next more same => longer next more same h
  | symbol mark =>
    cases mark with
    | leftParen =>
      rcases h with barred | ⟨other, found, inside⟩
      · exact .inl barred
      · refine .inr ⟨other, ?_, inside⟩
        rw [firstOther] at found ⊢
        rw [List.find?_append, found]
        rfl
    | _ => trivial
  | declaredType name => exact h.elim
  | _ => trivial

/-- Lexemes that are folded back, wherever they stand, stay so behind others. -/
theorem Apart.append {front : Option Lexeme} {lexemes back : List Lexeme}
    (h : Apart front lexemes)
    (noName : ∀ next more, back = next :: more → isName next = false)
    (h' : ∀ front, Apart front back) : Apart front (lexemes ++ back) := by
  induction lexemes generalizing front with
  | nil => exact h' front
  | cons lexeme lexemes ih => exact ⟨keeps_append h.1 noName, ih h.2⟩

end Formulary.Fold
