/-
Printed expressions are folded back.

A parenthesis of a printed expression belongs to a cast, to a call or to an operand that is too
loose for its place. Behind the name of a call no cast can begin, and a loose operand is no dotted
name: it has an operator in it, and no parenthesis closes in front of that.

* `bare_firstOther`, `bare_loose` — where the dotted name ends that an expression begins with.
* `bare_starts` — a suffixed expression begins like an operand.
* `bare_apart` — nothing but the casts of a printed expression is folded.
-/

import Formulary.Proofs.Folding

namespace Formulary.Printing

open Grammar Fold

/-! ### The dotted name at the beginning -/

/-- Lexemes that no parenthesis closes right behind the dotted name that they begin with. -/
def Inner (lexemes : List Lexeme) : Prop :=
  ∀ other, firstOther lexemes = some other → other ≠ .symbol .rightParen

theorem inner_append {front back : List Lexeme} (h : Inner front) (h' : Inner back) :
    Inner (front ++ back) := by
  intro other found
  rw [firstOther, List.find?_append] at found
  cases ends : firstOther front with
  | none =>
    rw [firstOther] at ends
    rw [ends] at found
    exact h' other found
  | some stop =>
    have same := ends
    rw [firstOther] at same
    rw [same] at found
    obtain rfl : stop = other := Option.some.inj found
    exact h _ ends

theorem inner_other {lexeme : Lexeme} {rest : List Lexeme} (outside : inName lexeme = false)
    (open_ : lexeme ≠ .symbol .rightParen) : Inner (lexeme :: rest) := by
  intro other found
  rw [firstOther, List.find?_cons_of_pos (by simp [outside])] at found
  obtain rfl := Option.some.inj found
  exact open_

theorem inner_named {lexeme : Lexeme} {rest : List Lexeme} (named : inName lexeme = true)
    (h : Inner rest) : Inner (lexeme :: rest) := by
  intro other found
  rw [firstOther, List.find?_cons_of_neg (by simp [named])] at found
  exact h other found

theorem inner_nil : Inner [] :=
  fun _ found => nomatch found

theorem inner_parenthesized (inner : List Lexeme) : Inner (parenthesized inner) :=
  inner_other rfl (by simp)

theorem inner_within {phrase : Phrase} {e : PrintedExpr} {written : List Lexeme}
    (h : Inner written) : Inner (within phrase e written) := by
  unfold within
  split
  · exact inner_parenthesized written
  · exact h

theorem inner_guarded {operand : List Lexeme} (h : Inner operand) : Inner (guarded operand) := by
  unfold guarded
  split
  · exact inner_parenthesized operand
  · exact h

theorem inner_dotted (parts : List String) : Inner (dotted parts) := by
  have points (names : List String) :
      Inner (names.flatMap fun name => [.symbol .dot, .name name]) := by
    induction names with
    | nil => exact inner_nil
    | cons name names ih => exact inner_named rfl (inner_named rfl ih)
  cases parts with
  | nil => exact inner_nil
  | cons part more => exact inner_named rfl (points more)

theorem spells_other {lexeme : Lexeme} {value : Value} (h : Spells lexeme value) :
    inName lexeme = false ∧ lexeme ≠ .symbol .rightParen ∧ startsWritten lexeme = true := by
  cases h <;> exact ⟨rfl, by simp, rfl⟩

/-- No parenthesis closes right behind the dotted name that an expression begins with. -/
theorem bare_inner : ∀ e : PrintedExpr, Inner (bare e)
  | .literal _ literal => by
    obtain ⟨outside, open_, -⟩ := spells_other literal.spells
    exact inner_other outside open_
  | .name .. => inner_named rfl inner_nil
  | .typeName .. => inner_dotted _
  | .field _ receiver _ =>
    inner_append (inner_within (bare_inner receiver)) (inner_named rfl (inner_named rfl inner_nil))
  | .methodCall _ receiver _ _ =>
    inner_append (inner_within (bare_inner receiver))
      (inner_named rfl (inner_named rfl (inner_parenthesized _)))
  | .call .. => inner_named rfl (inner_parenthesized _)
  | .index _ container _ =>
    inner_append (inner_within (bare_inner container)) (inner_other rfl (by simp))
  | .unary _ op _ => by cases op <;> exact inner_other rfl (by simp [unaryMark])
  | .step _ _ _ true => inner_other rfl (by simp)
  | .step _ _ target false =>
    inner_append (inner_within (bare_inner target)) (inner_other rfl (by simp))
  | .binary _ _ left _ | .logical _ _ left _ =>
    inner_append (inner_within (bare_inner left)) (inner_other rfl (by simp))
  | .conditional _ condition _ _ =>
    inner_append (inner_within (bare_inner condition)) (inner_other rfl (by simp))
  | .assign _ op target _ => by
    refine inner_append (inner_within (bare_inner target)) ?_
    cases op <;> exact inner_other rfl (by simp [assignMark])
  | .cast _ type operand => by
    rw [bare]
    split <;> exact inner_other rfl (by simp)
  | .instanceOf _ value _ =>
    inner_append (inner_within (bare_inner value)) (inner_other rfl (by simp))
  | .new .. => inner_other rfl (by simp)

/-- An expression that is no suffixed one is no dotted name. -/
theorem bare_loose {e : PrintedExpr} (h : tightness (phraseOf e) ≤ operandLevel + 1) :
    ∃ other, firstOther (bare e) = some other := by
  have behind (front back : List Lexeme) {lexeme : Lexeme} (outside : inName lexeme = false) :
      ∃ other, firstOther (front ++ lexeme :: back) = some other := by
    refine Option.isSome_iff_exists.mp ?_
    simp [firstOther, outside]
  cases e with
  | literal | name | typeName | field | methodCall | call | index | new =>
    simp [phraseOf, tightness] at h
  | unary p op operand => cases op <;> exact ⟨_, rfl⟩
  | step p op target before =>
    cases before with
    | true => exact ⟨_, rfl⟩
    | false => simp [phraseOf, tightness] at h
  | assign p op target value => cases op <;> exact behind _ _ rfl
  | cast p type operand =>
    rw [bare]
    split <;> exact ⟨_, rfl⟩
  | binary | logical | conditional | instanceOf => exact behind _ _ rfl

/-! ### The beginning of an operand -/

/-- Lexemes that an operand of a cast may begin with. -/
def Starts (lexemes : List Lexeme) : Prop :=
  ∃ next more, lexemes = next :: more ∧ startsWritten next = true

theorem starts_append {front back : List Lexeme} (h : Starts front) : Starts (front ++ back) := by
  obtain ⟨next, more, rfl, starts⟩ := h
  exact ⟨next, more ++ back, rfl, starts⟩

theorem starts_within {phrase : Phrase} {e : PrintedExpr} {written : List Lexeme}
    (h : tightness phrase ≤ tightness (phraseOf e) → Starts written) :
    Starts (within phrase e written) := by
  unfold within
  split
  · exact ⟨_, _, rfl, rfl⟩
  · next tight => exact h (Nat.not_lt.mp tight)

/-- A suffixed expression begins like an operand. -/
theorem bare_starts : ∀ {e : PrintedExpr}, Printable e →
    tightness .suffixed ≤ tightness (phraseOf e) → Starts (bare e)
  | .literal _ literal, _, _ => ⟨_, _, rfl, (spells_other literal.spells).2.2⟩
  | .name .., _, _ => ⟨_, _, rfl, rfl⟩
  | .typeName .., printable, _ => printable.elim
  | .field _ receiver _, ⟨printable, _⟩, _ =>
    starts_append (starts_within (bare_starts printable))
  | .methodCall _ receiver _ _, ⟨printable, _⟩, _ =>
    starts_append (starts_within (bare_starts printable))
  | .call .., _, _ => ⟨_, _, rfl, rfl⟩
  | .index _ container _, ⟨printable, _⟩, _ =>
    starts_append (starts_within (bare_starts printable))
  | .step _ _ target false, printable, _ =>
    starts_append (starts_within (bare_starts printable))
  | .new .., _, _ => ⟨_, _, rfl, rfl⟩
  | .unary .., _, tight | .step _ _ _ true, _, tight | .cast .., _, tight
  | .conditional .., _, tight | .assign .., _, tight | .instanceOf .., _, tight => by
    simp [phraseOf, tightness, operandLevel, comparison] at tight
  | .binary _ op _ _, _, tight => by
    cases op <;> simp [phraseOf, tightness, operandLevel, Parser.binaryLevel] at tight
  | .logical _ op _ _, _, tight => by
    cases op <;> simp [phraseOf, tightness, operandLevel, logicalLevel] at tight

/-- What is written behind a cast begins like an operand. -/
theorem guarded_starts {e : PrintedExpr} (printable : Printable e) :
    Starts (guarded (within .unary e (bare e))) := by
  unfold guarded
  split
  · exact ⟨_, _, rfl, rfl⟩
  · next unsigned =>
    refine starts_within fun tight => ?_
    have bare_ : within .unary e (bare e) = bare e := if_neg (Nat.not_lt.mpr tight)
    rw [bare_] at unsigned
    cases e with
    | unary p op operand =>
      cases op with
      | minus | plus => exact absurd rfl unsigned
      | not | complement => exact ⟨_, _, rfl, rfl⟩
    | step p op target before =>
      cases before with
      | true => exact absurd rfl unsigned
      | false => exact bare_starts printable (Nat.le_refl _)
    | cast p type operand =>
      rw [bare]
      split <;> exact ⟨_, _, rfl, rfl⟩
    | conditional | assign | instanceOf =>
      simp [phraseOf, tightness, operandLevel, comparison] at tight
    | binary p op =>
      cases op <;> simp [phraseOf, tightness, operandLevel, Parser.binaryLevel] at tight
    | logical p op => cases op <;> simp [phraseOf, tightness, operandLevel, logicalLevel] at tight
    | _ => exact bare_starts printable (by simp [phraseOf, tightness])

/-! ### Folding -/

/-- Lexemes that are folded back wherever a cast may follow. -/
def Free (lexemes : List Lexeme) : Prop :=
  ∀ front : Option Lexeme, front.any barsCast = false → Apart front lexemes

theorem apart_points {names : List String} {back : List Lexeme}
    (noName : ∀ next more, back = next :: more → isName next = false)
    (h : ∀ name, Apart (some (.name name)) back) (name : String) :
    Apart (some (.name name))
      (names.flatMap (fun name => [.symbol .dot, .name name]) ++ back) := by
  induction names generalizing name with
  | nil => exact h name
  | cons second names ih =>
    refine ⟨trivial, ?_, ih second⟩
    intro next more same
    cases names with
    | nil => exact noName next more same
    | cons third names =>
      cases same
      rfl

/-- The name of a type is folded back in front of what may follow a name. -/
theorem apart_dotted {parts : List String} (some : parts ≠ []) {front : Option Lexeme}
    {back : List Lexeme} (noName : ∀ next more, back = next :: more → isName next = false)
    (h : ∀ name, Apart (.some (.name name)) back) : Apart front (dotted parts ++ back) := by
  obtain ⟨first, names, rfl⟩ := List.exists_cons_of_ne_nil some
  refine ⟨?_, apart_points noName h first⟩
  intro next more same
  cases names with
  | nil => exact noName next more same
  | cons second names =>
    cases same
    rfl

theorem apart_parenthesized {front : Option Lexeme} {inner : List Lexeme}
    (keeps : front.any barsCast = true ∨ Inner inner ∧ ∃ other, firstOther inner = some other)
    (h : Free inner) : Apart front (parenthesized inner) := by
  have closed : Apart (some (.symbol .leftParen)) (inner ++ [.symbol .rightParen]) :=
    Apart.append (h _ rfl) (by rintro _ _ ⟨⟩; rfl) fun _ => ⟨trivial, trivial⟩
  refine ⟨?_, closed⟩
  rcases keeps with barred | ⟨open_, other, found⟩
  · exact .inl barred
  · refine .inr ⟨other, ?_, open_ other found⟩
    rw [firstOther] at found ⊢
    rw [List.find?_append, found]
    rfl

theorem free_within (phrase : Phrase) {e : PrintedExpr}
    (some : tightness phrase ≤ operandLevel + 2) (h : Free (bare e)) :
    Free (within phrase e (bare e)) := by
  intro front mayFollow
  unfold within
  split
  · next loose =>
    exact apart_parenthesized (.inr ⟨bare_inner e, bare_loose (by omega)⟩) h
  · exact h front mayFollow

theorem free_guarded {operand : List Lexeme} (h : Free operand) : Free (guarded operand) := by
  intro front mayFollow
  unfold guarded
  split
  · next signed =>
    refine apart_parenthesized (.inr ?_) h
    unfold beginsSigned at signed
    split at signed
    · exact ⟨inner_other rfl (by simp), _, rfl⟩
    · exact ⟨inner_other rfl (by simp), _, rfl⟩
    · exact ⟨inner_other rfl (by simp), _, rfl⟩
    · cases signed
  · exact h front mayFollow

theorem noName_cons {lexeme : Lexeme} {rest : List Lexeme} (h : isName lexeme = false) :
    ∀ next more, lexeme :: rest = next :: more → isName next = false := by
  rintro _ _ ⟨⟩
  exact h

theorem apart_name {front : Option Lexeme} (text : String) : Apart front [.name text] :=
  ⟨fun _ _ same => (nomatch same), trivial⟩

/-- What is behind an operator, or a keyword, is folded as if it stood alone. -/
theorem free_infix {phrase : Phrase} {e : PrintedExpr} {lexeme : Lexeme} {back : List Lexeme}
    (some : tightness phrase ≤ operandLevel + 2) (h : Free (bare e))
    (noName : isName lexeme = false) (h' : ∀ front, Apart front (lexeme :: back)) :
    Free (within phrase e (bare e) ++ lexeme :: back) :=
  fun front mayFollow =>
    Apart.append (free_within phrase some h front mayFollow) (noName_cons noName) h'

theorem binary_loose (op : BinaryOp) :
    tightness (.infixes (Parser.binaryLevel op + 1)) ≤ operandLevel + 2 := by
  cases op <;> decide

theorem logical_loose (op : LogicalOp) :
    tightness (.infixes (logicalLevel op + 1)) ≤ operandLevel + 2 := by
  cases op <;> decide

mutual

/-- **Printed expressions.** Of what is written nothing is folded but the casts. -/
theorem bare_free : ∀ e : PrintedExpr, Printable e → Free (bare e)
  | .literal _ ⟨_, _, spells⟩, _ => by
    intro front mayFollow
    cases spells <;> exact ⟨trivial, trivial⟩
  | .name _ ident, _ => fun front _ => apart_name ident
  | .typeName .., printable => printable.elim
  | .field _ receiver member, ⟨printable, _⟩ =>
    free_infix (Nat.le_refl _) (bare_free receiver printable) rfl fun _ => ⟨trivial, apart_name member⟩
  | .methodCall _ receiver method args, ⟨printable, _, printable'⟩ => by
    have isArgs : Apart (some (.name method)) (parenthesized (bareAll args)) :=
      apart_parenthesized (.inl rfl) (bareAll_free args printable')
    exact free_infix (Nat.le_refl _) (bare_free receiver printable) rfl fun _ =>
      ⟨trivial, noName_cons rfl, isArgs⟩
  | .call _ callee args, ⟨_, printable⟩ => by
    intro front mayFollow
    exact ⟨noName_cons rfl, apart_parenthesized (.inl rfl) (bareAll_free args printable)⟩
  | .index _ container place, ⟨printable, printable'⟩ => by
    refine free_infix (Nat.le_refl _) (bare_free container printable) rfl fun _ => ⟨trivial, ?_⟩
    exact Apart.append (bare_free place printable' _ rfl) (noName_cons rfl) fun _ => ⟨trivial, trivial⟩
  | .unary _ op operand, printable => by
    have inner := free_within .unary (by decide) (bare_free operand printable)
    intro front mayFollow
    cases op <;> exact ⟨trivial, inner _ rfl⟩
  | .step _ op target true, printable => by
    have inner := free_within .unary (by decide) (bare_free target printable)
    exact fun front mayFollow => ⟨trivial, inner _ rfl⟩
  | .step _ op target false, printable =>
    free_infix (Nat.le_refl _) (bare_free target printable) rfl fun _ => ⟨trivial, trivial⟩
  | .binary _ op left right, ⟨printable, printable'⟩ => by
    have inner := free_within _ (binary_loose op) (bare_free right printable')
    refine free_infix ?_ (bare_free left printable) rfl fun _ => ⟨trivial, inner _ rfl⟩
    exact Nat.le_of_succ_le (binary_loose op)
  | .logical _ op left right, ⟨printable, printable'⟩ => by
    have inner := free_within _ (logical_loose op) (bare_free right printable')
    refine free_infix ?_ (bare_free left printable) rfl fun _ => ⟨trivial, inner _ rfl⟩
    exact Nat.le_of_succ_le (logical_loose op)
  | .conditional _ condition thenValue elseValue, ⟨printable, printable', printable''⟩ => by
    have inner := free_within .conditional (by decide) (bare_free elseValue printable'')
    refine free_infix (by decide) (bare_free condition printable) rfl fun _ => ⟨trivial, ?_⟩
    exact Apart.append (bare_free thenValue printable' _ rfl) (noName_cons rfl)
      fun _ => ⟨trivial, inner _ rfl⟩
  | .assign _ op target value, ⟨_, printable, printable'⟩ => by
    have inner := bare_free value printable'
    cases op <;> exact free_infix (by decide) (bare_free target printable) rfl
      fun _ => ⟨trivial, inner _ rfl⟩
  | .cast _ type operand, ⟨_, printable⟩ => by
    have inner := free_within .unary (by decide) (bare_free operand printable)
    intro front mayFollow
    rw [bare]
    split
    · refine ⟨.inr ⟨_, rfl, by simp⟩, trivial, trivial, inner _ rfl⟩
    · exact ⟨⟨mayFollow, guarded_starts printable⟩, free_guarded inner _ rfl⟩
  | .instanceOf _ value type, ⟨printable, _⟩ => by
    refine free_infix (by decide) (bare_free value printable) rfl fun _ => ⟨trivial, ?_⟩
    rw [← List.append_nil (dotted _)]
    exact apart_dotted (nameParts_some type.name) (fun _ _ same => nomatch same) fun _ => trivial
  | .new _ type args, ⟨_, printable⟩ => by
    intro front mayFollow
    refine ⟨trivial, apart_dotted (nameParts_some type.name) (noName_cons rfl) fun _ => ?_⟩
    exact apart_parenthesized (.inl rfl) (bareAll_free args printable)

theorem bareAll_free : ∀ es : List PrintedExpr, AllPrintable es → Free (bareAll es)
  | [], _ => fun _ _ => trivial
  | [e], ⟨printable, _⟩ => bare_free e printable
  | e :: second :: more, ⟨printable, others⟩ => by
    intro front mayFollow
    exact Apart.append (bare_free e printable front mayFollow) (noName_cons rfl)
      fun _ => ⟨trivial, bareAll_free (second :: more) others _ rfl⟩

end

end Formulary.Printing
