/-
Texts with slots for the name of the arguments.

Substitution writes the name of the arguments into a body, always behind the parenthesis that
closes a type and in front of a bracket. No parameter has a parenthesis or a blank in its name, so
what is written there is never taken apart again by a later pass: the body after substitution is a
row of cells that does not depend on the name, with the name filled in.

* `standsFree_fill` — where a word stands free does not depend on the name.
* `exists_replaced` — replacing a word in a filled row fills another row.
* `containsFree_fill` — whether a word stands free in a filled row.
-/

import Formulary.Proofs.Arguments

namespace Formulary.Slots

open Text (bounds isBoundary standsFree replaceFrom replaceFree occurrencesFrom containsFree)

/-! ### Names of the arguments -/

/-- A name that arguments have at some time. -/
def IsArgsName (name : List Char) : Prop :=
  ∃ clock, name = argsAt clock

namespace IsArgsName

variable {name : List Char} (isArgs : IsArgsName name)

include isArgs

/-- A letter with digits behind it. -/
theorem spelled : ∃ digits, digits ≠ [] ∧ (∀ c ∈ digits, c.isDigit = true) ∧
    name = 'o' :: digits := by
  obtain ⟨clock, rfl⟩ := isArgs
  exact ⟨Nat.toDigits 10 clock, Nat.toDigits_ne_nil,
    fun c isIn => Nat.isDigit_of_mem_toDigits (by decide) (by decide) isIn, rfl⟩

theorem some : name ≠ [] := by
  obtain ⟨digits, -, -, rfl⟩ := isArgs.spelled
  exact List.cons_ne_nil _ _

theorem mem {c : Char} (h : c ∈ name) : c = 'o' ∨ c.isDigit = true := by
  obtain ⟨digits, -, isDigit, rfl⟩ := isArgs.spelled
  exact (List.mem_cons.mp h).imp_right (isDigit c)

theorem not_boundary {c : Char} (h : c ∈ name) : isBoundary c = false := by
  obtain ⟨clock, rfl⟩ := isArgs
  exact argsAt_plain clock c h

/-- A character that is neither the letter nor a digit. -/
theorem not_mem {c : Char} (noLetter : c ≠ 'o') (noDigit : c.isDigit = false) : c ∉ name := by
  intro isIn
  rcases isArgs.mem isIn with rfl | isDigit
  · exact noLetter rfl
  · rw [noDigit] at isDigit
    cases isDigit

end IsArgsName

/-! ### Cells -/

/-- A part of a text: a character, or a slot for the name of the arguments, with the parenthesis
and the blank in front of it and the bracket behind it. -/
inductive Cell where
  | char (c : Char)
  | slot
deriving DecidableEq, Repr

/-- The text of a cell. -/
def Cell.text (name : List Char) : Cell → List Char
  | char c => [c]
  | slot => ')' :: ' ' :: (name ++ ['['])

/-- The first character of a cell. -/
def Cell.first : Cell → Char
  | char c => c
  | slot => ')'

/-- A row of cells with the name of the arguments in its slots. -/
def fill (name : List Char) (cells : List Cell) : List Char :=
  cells.flatMap (Cell.text name)

/-- A text without slots. -/
def plain (text : List Char) : List Cell :=
  text.map Cell.char

section Filling

variable (name : List Char)

@[simp]
theorem fill_nil : fill name [] = [] := rfl

@[simp]
theorem fill_char (c : Char) (cells : List Cell) :
    fill name (.char c :: cells) = c :: fill name cells := rfl

@[simp]
theorem fill_slot (cells : List Cell) :
    fill name (.slot :: cells) = ')' :: ' ' :: (name ++ '[' :: fill name cells) := by
  rw [fill, List.flatMap_cons, Cell.text]
  simp [fill]

@[simp]
theorem fill_append (front back : List Cell) :
    fill name (front ++ back) = fill name front ++ fill name back :=
  List.flatMap_append

@[simp]
theorem fill_plain (text : List Char) : fill name (plain text) = text := by
  induction text with
  | nil => rfl
  | cons c text ih =>
    have split : plain (c :: text) = .char c :: plain text := rfl
    rw [split, fill_char, ih]

theorem head?_fill (cells : List Cell) :
    (fill name cells).head? = cells.head?.map Cell.first := by
  rcases cells with - | ⟨- | -, cells⟩ <;> rfl

end Filling

@[simp]
theorem plain_nil : plain [] = [] := rfl

@[simp]
theorem plain_cons (c : Char) (text : List Char) : plain (c :: text) = .char c :: plain text := rfl

@[simp]
theorem plain_append (front back : List Char) : plain (front ++ back) = plain front ++ plain back :=
  List.map_append

theorem length_plain (text : List Char) : (plain text).length = text.length :=
  List.length_map _

/-- A text without a closing parenthesis begins no slot. -/
theorem prefix_fill {word : List Char} (noParen : ')' ∉ word) (name : List Char)
    (cells : List Cell) : word <+: fill name cells ↔ plain word <+: cells := by
  induction word generalizing cells with
  | nil => simp
  | cons c word ih =>
    have others : ')' ∉ word := fun isIn => noParen (List.mem_cons_of_mem c isIn)
    rcases cells with - | ⟨d | -, cells⟩
    · simp
    · rw [fill_char, plain_cons, List.cons_prefix_cons, List.cons_prefix_cons, ih others,
        Cell.char.injEq]
    · have noSlot : c ≠ ')' := fun same => noParen (same ▸ List.mem_cons_self)
      rw [fill_slot, plain_cons, List.cons_prefix_cons, List.cons_prefix_cons]
      simp [noSlot]

/-! ### Where a text does not occur -/

/-- A list that occurs in two parts with something between them that it does not have occurs in one
of the parts. -/
theorem infix_apart {α : Type} {part front back : List α} {x : α} (absent : x ∉ part)
    (h : part <:+: front ++ x :: back) : part <:+: front ∨ part <:+: back := by
  obtain ⟨before, after, same⟩ := h
  rcases List.append_eq_append_iff.mp same with ⟨more, rfl, -⟩ | ⟨more, within, behind⟩
  · exact .inl ⟨before, more, rfl⟩
  · rcases List.append_eq_append_iff.mp within with ⟨inner, rfl, rfl⟩ | ⟨inner, rfl, split⟩
    · cases more with
      | nil => exact .inl ⟨before, [], by simp⟩
      | cons y more =>
        obtain ⟨rfl, -⟩ := List.cons.inj behind
        exact absurd (List.mem_append_right inner List.mem_cons_self) absent
    · cases inner with
      | nil =>
        cases part with
        | nil => exact .inr List.nil_infix
        | cons y part =>
          rw [List.nil_append] at split
          rw [split, List.cons_append] at behind
          obtain ⟨rfl, -⟩ := List.cons.inj behind
          exact absurd List.mem_cons_self absent
      | cons y inner =>
        rw [split, List.cons_append, List.cons_append] at behind
        exact .inr ⟨inner, after, (List.cons.inj behind).2.symm⟩

/-- What has nothing of a front occurs behind it. -/
theorem infix_behind {α : Type} {part front back : List α} (apart : ∀ x ∈ front, x ∉ part)
    (h : part <:+: front ++ back) : part <:+: back := by
  induction front with
  | nil => exact h
  | cons x front ih =>
    obtain ⟨absent, others⟩ := List.forall_mem_cons.mp apart
    rcases List.infix_cons_iff.mp h with begins | behind
    · cases part with
      | nil => exact List.nil_infix
      | cons y part =>
        rw [List.cons_prefix_cons] at begins
        exact absurd (begins.1 ▸ List.mem_cons_self) absent
    · exact ih others behind

theorem plain_infix_plain {text other : List Char} (h : plain text <:+: plain other) :
    text <:+: other := by
  obtain ⟨front, back, same⟩ := h
  obtain ⟨front', rest, rfl, isFront, isBack⟩ := List.map_eq_append_iff.mp same.symm
  obtain ⟨before, middle, rfl, -, isText⟩ := List.map_eq_append_iff.mp isFront
  have inj : Function.Injective Cell.char := fun _ _ => Cell.char.inj
  rw [List.map_injective_iff.mpr inj isText]
  exact ⟨before, rest, rfl⟩

theorem char_not_mem_plain {c : Char} {text : List Char} (h : c ∉ text) : .char c ∉ plain text := by
  rw [plain, List.mem_map]
  rintro ⟨d, isIn, same⟩
  obtain rfl := Cell.char.inj same
  exact h isIn

theorem slot_not_mem_plain (text : List Char) : .slot ∉ plain text := by
  rw [plain, List.mem_map]
  rintro ⟨d, -, ⟨⟩⟩

/-! ### Words that stand free -/

section Words

variable {word : List Char} (noParen : ')' ∉ word)

include noParen in
/-- **Where a word stands free in a filled row does not depend on the name.** -/
theorem standsFree_fill (name : List Char) (before : Option Char) (cells : List Cell) :
    standsFree word before (fill name cells) = true ↔ bounds before = true ∧
      ∃ later, cells = plain word ++ later ∧ bounds (later.head?.map Cell.first) = true := by
  simp only [standsFree, Bool.and_eq_true, List.isPrefixOf_iff_prefix, prefix_fill noParen]
  constructor
  · rintro ⟨⟨⟨later, rfl⟩, starts⟩, ends⟩
    rw [fill_append, fill_plain, List.drop_left, head?_fill] at ends
    exact ⟨starts, later, rfl, ends⟩
  · rintro ⟨starts, later, rfl, ends⟩
    rw [fill_append, fill_plain, List.drop_left, head?_fill]
    exact ⟨⟨List.prefix_append _ _, starts⟩, ends⟩

/-- A part of a text in which a word stands free nowhere, with a text behind it. -/
def Passes (word : List Char) : (before : Option Char) → (part rest : List Char) → Prop
  | _, [], _ => True
  | before, c :: part, rest =>
    standsFree word before (c :: part ++ rest) = false ∧ Passes word (some c) part rest

theorem passes_append {before : Option Char} (part later rest : List Char) :
    Passes word before (part ++ later) rest ↔ Passes word before part (later ++ rest) ∧
      Passes word (part.getLast?.or before) later rest := by
  induction part generalizing before with
  | nil => exact (and_iff_right trivial).symm
  | cons c part ih =>
    have last : (c :: part).getLast?.or before = part.getLast?.or (some c) := by
      rw [List.getLast?_cons]
      cases part.getLast? <;> rfl
    rw [List.cons_append, Passes, Passes, ih, last, ← and_assoc, List.cons_append,
      List.cons_append, List.append_assoc]

theorem replaceFrom_passes {part rest : List Char} {before : Option Char}
    (h : Passes word before part rest) (replacement : List Char) :
    replaceFrom word replacement 0 before (part ++ rest) =
      part ++ replaceFrom word replacement 0 (part.getLast?.or before) rest := by
  induction part generalizing before with
  | nil => rfl
  | cons c part ih =>
    obtain ⟨here, behind⟩ := h
    rw [List.cons_append] at here ⊢
    rw [replaceFrom, here, if_neg Bool.false_ne_true, ih behind, List.getLast?_cons,
      List.cons_append]
    cases part.getLast? <;> rfl

theorem replaceFrom_skip (replacement skipped rest : List Char) (before : Option Char) :
    replaceFrom word replacement skipped.length before (skipped ++ rest) =
      replaceFrom word replacement 0 (skipped.getLast?.or before) rest := by
  induction skipped generalizing before with
  | nil => rfl
  | cons c skipped ih =>
    rw [List.cons_append, List.length_cons, replaceFrom, ih, List.getLast?_cons]
    cases skipped.getLast? <;> rfl

theorem occurrencesFrom_eq_nil (before : Option Char) (offset : Nat) (text : List Char) :
    occurrencesFrom word 0 before offset text = [] ↔ Passes word before text [] := by
  induction text generalizing before offset with
  | nil => exact iff_of_true rfl trivial
  | cons c text ih =>
    rw [occurrencesFrom, Passes, List.append_nil]
    cases standsFree word before (c :: text) with
    | true => simp
    | false => simp [ih]

/-- Behind a character that is no boundary no word stands free. -/
theorem passes_within {before : Option Char} (within : bounds before = false) {part : List Char}
    (plain : ∀ c ∈ part, isBoundary c = false) (rest : List Char) :
    Passes word before part rest := by
  induction part generalizing before with
  | nil => trivial
  | cons c part ih =>
    obtain ⟨plainFirst, plainRest⟩ := List.forall_mem_cons.mp plain
    exact ⟨by simp [standsFree, within], ih plainFirst plainRest⟩

end Words

/-! ### Words that pass slots -/

/-- A word that a pass looks for: it has characters, and neither closing parentheses nor blanks are
among them. -/
structure Sought (word : List Char) : Prop where
  some : word ≠ []
  noParen : ')' ∉ word
  noBlank : ' ' ∉ word

section Names

variable {word : List Char} (sought : Sought word) {name : List Char} (isArgs : IsArgsName name)
  (absent : ¬name <:+: word)

include isArgs absent in
/-- In front of a bracket a name is no word that it does not occur in. -/
theorem standsFree_name (before : Option Char) (rest : List Char) :
    standsFree word before (name ++ '[' :: rest) = false := by
  rw [Bool.eq_false_iff]
  intro free
  simp only [standsFree, Bool.and_eq_true, List.isPrefixOf_iff_prefix] at free
  obtain ⟨⟨⟨later, same⟩, -⟩, ends⟩ := free
  rw [← same, List.drop_left] at ends
  rcases List.append_eq_append_iff.mp same with ⟨more, within, rfl⟩ | ⟨more, rfl, -⟩
  · cases more with
    | nil =>
      rw [List.append_nil] at within
      exact absent (within ▸ List.infix_rfl)
    | cons c more =>
      have inName : c ∈ name := within ▸ List.mem_append_right word List.mem_cons_self
      rw [List.cons_append, List.head?_cons, bounds, isArgs.not_boundary inName] at ends
      cases ends
  · exact absent (List.prefix_append name more).isInfix

include sought isArgs absent

/-- **No word stands free in a slot.** -/
theorem slot_passes (before : Option Char) (rest : List Char) :
    Passes word before (Cell.text name .slot) rest := by
  have notFirst {c : Char} (noSuch : c ∉ word) (before : Option Char) (text : List Char) :
      standsFree word before (c :: text) = false := by
    cases word with
    | nil => exact absurd rfl sought.some
    | cons d word =>
      have ne : d ≠ c := fun same => noSuch (same ▸ List.mem_cons_self)
      simp [standsFree, List.isPrefixOf, ne]
  obtain ⟨digits, -, -, rfl⟩ := isArgs.spelled
  have isPlain : ∀ c ∈ digits ++ ['['], isBoundary c = false := by
    simp only [List.forall_mem_append, List.forall_mem_singleton]
    exact ⟨fun c isIn => isArgs.not_boundary (List.mem_cons_of_mem _ isIn), by decide⟩
  have name := standsFree_name isArgs absent (some ' ') rest
  refine ⟨notFirst sought.noParen _ _, notFirst sought.noBlank _ _, ?_,
    passes_within (by decide) isPlain rest⟩
  simpa using name

end Names

theorem last_slot (name : List Char) : (Cell.text name .slot).getLast? = some '[' := by
  rw [Cell.text, ← List.cons_append, ← List.cons_append, List.getLast?_concat]

theorem fill_slot_eq (name : List Char) (cells : List Cell) :
    fill name (.slot :: cells) = Cell.text name .slot ++ fill name cells := rfl

/-- **Where a word stands free does not depend on the name** that fills the slots. -/
theorem passes_fill {word : List Char} (sought : Sought word) {name other : List Char}
    (isArgs : IsArgsName name) (absent : ¬name <:+: word) (isArgs' : IsArgsName other)
    (absent' : ¬other <:+: word) (before : Option Char) (cells : List Cell) :
    Passes word before (fill name cells) [] ↔ Passes word before (fill other cells) [] := by
  induction cells generalizing before with
  | nil => exact Iff.rfl
  | cons cell cells ih =>
    cases cell with
    | char c =>
      have same : standsFree word before (fill name (.char c :: cells)) =
          standsFree word before (fill other (.char c :: cells)) := by
        rw [Bool.eq_iff_iff, standsFree_fill sought.noParen, standsFree_fill sought.noParen]
      rw [fill_char, fill_char] at same ⊢
      rw [Passes, Passes, List.append_nil, List.append_nil, same, ih]
    | slot =>
      rw [fill_slot_eq, fill_slot_eq, passes_append, passes_append, last_slot, last_slot]
      exact and_congr (iff_of_true (slot_passes sought isArgs absent before _)
        (slot_passes sought isArgs' absent' before _)) (ih _)

theorem containsFree_fill {word : List Char} (sought : Sought word) {name other : List Char}
    (isArgs : IsArgsName name) (absent : ¬name <:+: word) (isArgs' : IsArgsName other)
    (absent' : ¬other <:+: word) (cells : List Cell) :
    containsFree word (fill name cells) = containsFree word (fill other cells) := by
  have nonempty : word.isEmpty = false := List.isEmpty_eq_false_iff.mpr sought.some
  rw [Bool.eq_iff_iff]
  simp only [containsFree, Text.occurrences, nonempty, Bool.not_eq_true', Bool.false_eq_true,
    if_false, List.isEmpty_eq_false_iff, ne_eq, occurrencesFrom_eq_nil,
    passes_fill sought isArgs absent isArgs' absent']

/-! ### Replacing words in filled rows -/

/-- A pass over a row of cells that puts other cells in the place of a word where it stands
free. -/
inductive Replaces (word : List Char) (put : List Cell) :
    (before : Option Char) → (cells replaced : List Cell) → Prop
  | nil {before : Option Char} : Replaces word put before [] []
  | word {before : Option Char} {later replaced : List Cell} (starts : bounds before = true)
      (ends : bounds (later.head?.map Cell.first) = true)
      (rest : Replaces word put word.getLast? later replaced) :
      Replaces word put before (plain word ++ later) (put ++ replaced)
  | char {before : Option Char} {c : Char} {later replaced : List Cell}
      (bound : ¬(bounds before = true ∧ ∃ behind, .char c :: later = plain word ++ behind ∧
        bounds (behind.head?.map Cell.first) = true))
      (rest : Replaces word put (some c) later replaced) :
      Replaces word put before (.char c :: later) (.char c :: replaced)
  | slot {before : Option Char} {later replaced : List Cell}
      (rest : Replaces word put (some '[') later replaced) :
      Replaces word put before (.slot :: later) (.slot :: replaced)

namespace Replaces

variable {word : List Char} {put : List Cell}

theorem exists_replaced (sought : Sought word) (put : List Cell) (before : Option Char)
    (cells : List Cell) : ∃ replaced, Replaces word put before cells replaced := by
  induction size : cells.length using Nat.strong_induction_on generalizing before cells with
  | _ n ih =>
    rcases cells with - | ⟨c | -, cells⟩
    · exact ⟨[], .nil⟩
    · by_cases free : bounds before = true ∧ ∃ behind, .char c :: cells = plain word ++ behind ∧
          bounds (behind.head?.map Cell.first) = true
      · obtain ⟨starts, behind, same, ends⟩ := free
        have positive := List.length_pos_of_ne_nil sought.some
        obtain ⟨replaced, rest⟩ := ih behind.length (by
          rw [← size, same, List.length_append, length_plain]
          omega) word.getLast? behind rfl
        rw [same]
        exact ⟨_, .word starts ends rest⟩
      · have shorter : cells.length < n := by
          rw [← size]
          exact Nat.lt_succ_self _
        obtain ⟨replaced, rest⟩ := ih _ shorter (some c) cells rfl
        exact ⟨_, .char free rest⟩
    · have shorter : cells.length < n := by
        rw [← size]
        exact Nat.lt_succ_self _
      obtain ⟨replaced, rest⟩ := ih _ shorter (some '[') cells rfl
      exact ⟨_, .slot rest⟩

/-- **Replacing a word in a filled row fills another row**, whatever the name. -/
theorem fill_eq (sought : Sought word) {name : List Char} (isArgs : IsArgsName name)
    (absent : ¬name <:+: word) {before : Option Char} {cells replaced : List Cell}
    (h : Replaces word put before cells replaced) :
    replaceFrom word (fill name put) 0 before (fill name cells) = fill name replaced := by
  induction h with
  | nil => rfl
  | @word before later replaced starts ends _ ih =>
    have free : standsFree word before (fill name (plain word ++ later)) = true :=
      (standsFree_fill sought.noParen _ _ _).mpr ⟨starts, later, rfl, ends⟩
    obtain ⟨c, others, rfl⟩ := List.exists_cons_of_ne_nil sought.some
    rw [fill_append, fill_plain, List.cons_append] at free ⊢
    rw [replaceFrom, if_pos free, List.length_cons, Nat.add_sub_cancel, replaceFrom_skip,
      fill_append, ← ih, List.getLast?_cons]
    cases others.getLast? <;> rfl
  | @char before c later replaced bound _ ih =>
    have bound' : ¬standsFree word before (fill name (.char c :: later)) = true :=
      fun free => bound ((standsFree_fill sought.noParen _ _ _).mp free)
    rw [fill_char] at bound' ⊢
    rw [replaceFrom, if_neg bound', ih, fill_char]
  | slot _ ih =>
    rw [fill_slot_eq, replaceFrom_passes (slot_passes sought isArgs absent _ _), last_slot,
      fill_slot_eq, ← ih]
    rfl

variable {inner : List Cell} (opened : put = .char '(' :: (inner ++ [.char ')']))

include opened

/-- A text without parentheses that a pass leaves in front has been there. -/
theorem infix_front {text : List Char} (noOpen : '(' ∉ text) {before : Option Char}
    {cells replaced : List Cell} (h : Replaces word put before cells replaced)
    (found : plain text <+: replaced) : plain text <+: cells := by
  induction h generalizing text with
  | nil => exact found
  | word starts ends _ _ =>
    cases text with
    | nil => exact List.nil_prefix
    | cons c text =>
      rw [opened, plain_cons, List.cons_append, List.cons_prefix_cons, Cell.char.injEq] at found
      exact absurd (found.1 ▸ List.mem_cons_self) noOpen
  | char bound _ ih =>
    cases text with
    | nil => exact List.nil_prefix
    | cons c text =>
      rw [plain_cons, List.cons_prefix_cons] at found ⊢
      exact ⟨found.1, ih (fun isIn => noOpen (List.mem_cons_of_mem c isIn)) found.2⟩
  | slot _ _ =>
    cases text with
    | nil => exact List.nil_prefix
    | cons c text => simp at found

/-- A text without parentheses that is there behind a pass has been there before, or is put
there. -/
theorem infix_of_infix {text : List Char} (some : text ≠ []) (noOpen : '(' ∉ text)
    (noClose : ')' ∉ text) {before : Option Char} {cells replaced : List Cell}
    (h : Replaces word put before cells replaced) (found : plain text <:+: replaced) :
    plain text <:+: cells ∨ plain text <:+: put := by
  induction h with
  | nil => exact .inl found
  | @word before later replaced _ _ _ ih =>
    have split : put ++ replaced = .char '(' :: inner ++ .char ')' :: replaced := by
      simp [opened]
    rw [split] at found
    rcases infix_apart (char_not_mem_plain noClose) found with inPut | inRest
    · refine .inr (inPut.trans ?_)
      rw [opened, ← List.cons_append]
      exact (List.prefix_append _ _).isInfix
    · exact (ih inRest).imp_left fun found => found.trans (List.suffix_append _ _).isInfix
  | @char before c later replaced bound rest ih =>
    rcases List.infix_cons_iff.mp found with front | behind
    · exact .inl ((Replaces.char bound rest).infix_front opened noOpen front).isInfix
    · exact (ih behind).imp_left fun found => found.trans (List.suffix_cons _ _).isInfix
  | slot _ ih =>
    rcases List.infix_cons_iff.mp found with front | behind
    · obtain ⟨c, text, rfl⟩ := List.exists_cons_of_ne_nil some
      simp at front
    · exact (ih behind).imp_left fun found => found.trans (List.suffix_cons _ _).isInfix

end Replaces

end Formulary.Slots
