/-
Signatures that are written out.

A signature whose parameters all have a type of their own is written with single blanks and
split into what it was written from: the parameters keep their order, and each is declared at
its own place.

* `split_written` — the parts of a signature that is written out.
* `declare_written` — its declarations.
* `find?_declarations` — the declaration that a name belongs to stands at the first place that
  has the name.
-/

import Formulary.Signature
import Mathlib

namespace Formulary

/-! ### Cutting texts -/

namespace Text

theorem cut?_here (mark rest : List Char) (some : mark ≠ []) :
    cut? mark (mark ++ rest) = .some ([], rest) := by
  obtain ⟨c, mark, rfl⟩ := List.exists_cons_of_ne_nil some
  have here : (c :: mark).isPrefixOf (c :: (mark ++ rest)) = true :=
    List.isPrefixOf_iff_prefix.mpr (List.prefix_append (c :: mark) rest)
  rw [List.cons_append, cut?, if_pos here]
  simp

/-- A text is cut at the first of the characters that are the mark. -/
theorem cut?_first {c : Char} {front : List Char} (h : c ∉ front) (rest : List Char) :
    cut? [c] (front ++ c :: rest) = some (front, rest) := by
  induction front with
  | nil => exact cut?_here [c] rest (List.cons_ne_nil c [])
  | cons d front ih =>
    have other : c ≠ d := fun same => h (same ▸ List.mem_cons_self)
    rw [List.cons_append, cut?, if_neg (by simp [List.isPrefixOf, other]),
      ih fun isIn => h (List.mem_cons_of_mem d isIn)]
    rfl

theorem pieces_some (separator : Char) (text : List Char) :
    ∃ piece more, pieces separator text = piece :: more := by
  cases text with
  | nil => exact ⟨_, _, rfl⟩
  | cons c text =>
    rw [pieces]
    split
    · exact ⟨_, _, rfl⟩
    · split
      · exact ⟨_, _, rfl⟩
      · exact ⟨_, _, rfl⟩

theorem pieces_none {separator : Char} {text : List Char} (h : separator ∉ text) :
    pieces separator text = [text] := by
  induction text with
  | nil => rfl
  | cons c text ih =>
    have other : c ≠ separator := fun same => h (same ▸ List.mem_cons_self)
    rw [pieces, if_neg other, ih fun isIn => h (List.mem_cons_of_mem c isIn)]

theorem pieces_append {separator : Char} {text : List Char} (h : separator ∉ text)
    (rest : List Char) :
    pieces separator (text ++ separator :: rest) = text :: pieces separator rest := by
  induction text with
  | nil => rw [List.nil_append, pieces, if_pos rfl]
  | cons c text ih =>
    have other : c ≠ separator := fun same => h (same ▸ List.mem_cons_self)
    rw [List.cons_append, pieces, if_neg other, ih fun isIn => h (List.mem_cons_of_mem c isIn)]

/-! ### Blanks -/

/-- Nothing but characters that are not blank, and at least one. -/
def IsSolid (text : List Char) : Prop :=
  text ≠ [] ∧ ∀ c ∈ text, isBlank c = false

theorem stripEnd_solid {text : List Char} (h : ∀ c ∈ text, isBlank c = false) :
    stripEnd text = text := by
  induction text with
  | nil => rfl
  | cons c text ih =>
    rw [stripEnd, ih fun d isIn => h d (List.mem_cons_of_mem c isIn)]
    cases text with
    | nil => simp [h c List.mem_cons_self]
    | cons d text => rfl

theorem stripEnd_append (front : List Char) {back : List Char} (h : IsSolid back) :
    stripEnd (front ++ back) = front ++ back := by
  induction front with
  | nil => exact stripEnd_solid h.2
  | cons c front ih =>
    obtain ⟨d, rest, split⟩ :=
      List.exists_cons_of_ne_nil (List.append_ne_nil_of_right_ne_nil front h.1)
    rw [List.cons_append, stripEnd, ih, split]

theorem strip_blank {c : Char} (blank : isBlank c = true) (text : List Char) :
    strip (c :: text) = strip text := by
  rw [strip, strip, List.dropWhile_cons_of_pos blank]

/-- Two words with a blank between them have no blanks at their ends. -/
theorem strip_pair {first second : List Char} (h : IsSolid first) (h' : IsSolid second) :
    strip (first ++ ' ' :: second) = first ++ ' ' :: second := by
  obtain ⟨c, more, rfl⟩ := List.exists_cons_of_ne_nil h.1
  have kept := stripEnd_append (c :: more ++ [' ']) h'
  rw [List.append_assoc, List.singleton_append] at kept
  rw [strip, List.cons_append, List.dropWhile_cons_of_neg (by simp [h.2 c List.mem_cons_self])]
  exact kept

theorem strip_solid {text : List Char} (h : IsSolid text) : strip text = text := by
  obtain ⟨c, more, rfl⟩ := List.exists_cons_of_ne_nil h.1
  rw [strip, List.dropWhile_cons_of_neg (by simp [h.2 c List.mem_cons_self])]
  exact stripEnd_solid h.2

theorem wordsAfter_solid (current : List Char) {word : List Char}
    (h : ∀ c ∈ word, isBlank c = false) (rest : List Char) :
    wordsAfter current (word ++ rest) = wordsAfter (current ++ word) rest := by
  induction word generalizing current with
  | nil => rw [List.nil_append, List.append_nil]
  | cons c word ih =>
    rw [List.cons_append, wordsAfter, h c List.mem_cons_self,
      if_neg (by simp), ih _ fun d isIn => h d (List.mem_cons_of_mem c isIn), List.append_assoc,
      List.singleton_append]

/-- Two words with a blank between them. -/
theorem words_pair {first second : List Char} (h : IsSolid first) (h' : IsSolid second) :
    words (first ++ ' ' :: second) = [first, second] := by
  have behind := wordsAfter_solid [] h'.2 []
  rw [List.append_nil, List.nil_append] at behind
  rw [words, wordsAfter_solid [] h.2, List.nil_append, wordsAfter, if_pos (by decide),
    if_neg (by simpa using h.1), behind, wordsAfter, if_neg (by simpa using h'.1)]

end Text

namespace Signature

open Text (IsSolid)

/-! ### Parameters -/

/-- A parameter with a type of its own. -/
structure Parameter where
  typeName : List Char
  name : List Char
deriving DecidableEq, Repr

/-- The characters that end a parameter or a list of parameters. -/
def marks : List Char := ['(', ')', ',']

/-- A word of a parameter list. -/
def IsWord (text : List Char) : Prop :=
  IsSolid text ∧ ∀ c ∈ text, c ∉ marks

instance (text : List Char) : Decidable (IsWord text) :=
  decidable_of_iff ((text ≠ [] ∧ text.all (!Text.isBlank ·) = true) ∧
    text.all (!marks.contains ·) = true) (by simp [IsWord, IsSolid])

namespace Parameter

/-- A parameter made of two words. -/
structure IsPlain (parameter : Parameter) : Prop where
  typeName : IsWord parameter.typeName
  name : IsWord parameter.name

/-- How a parameter is written. -/
def text (parameter : Parameter) : List Char :=
  parameter.typeName ++ ' ' :: parameter.name

theorem IsPlain.noMark {parameter : Parameter} (plain : parameter.IsPlain) {mark : Char}
    (isMark : mark ∈ marks) : mark ∉ parameter.text := by
  intro isIn
  rcases List.mem_append.mp isIn with isIn | isIn
  · exact plain.typeName.2 mark isIn isMark
  · rcases List.mem_cons.mp isIn with rfl | isIn
    · revert isMark
      decide
    · exact plain.name.2 mark isIn isMark

theorem IsPlain.strip {parameter : Parameter} (plain : parameter.IsPlain) :
    Text.strip parameter.text = parameter.text :=
  Text.strip_pair plain.typeName.1 plain.name.1

end Parameter

/-- The list of parameters as it stands between the parentheses. -/
def listText (parameters : List Parameter) : List Char :=
  ", ".toList.intercalate (parameters.map Parameter.text)

/-- A function string that is written out. -/
def functionText (returnType : List Char) (parameters : List Parameter) (body : List Char) :
    List Char :=
  returnType ++ '(' :: (listText parameters ++ ')' :: (arrow ++ body))

/-! ### Splitting -/

variable {parameters : List Parameter}

theorem listText_cons (first second : Parameter) (others : List Parameter) :
    listText (first :: second :: others) =
      first.text ++ ',' :: ' ' :: listText (second :: others) := by
  rw [listText, List.map_cons, List.map_cons, List.intercalate_cons_cons, List.append_assoc]
  rfl

theorem listText_noParen (h : ∀ parameter ∈ parameters, parameter.IsPlain) {mark : Char}
    (isMark : mark ∈ marks) (noComma : mark ≠ ',') : mark ∉ listText parameters := by
  induction parameters with
  | nil => exact List.not_mem_nil
  | cons first others ih =>
    have here := (h first List.mem_cons_self).noMark isMark
    cases others with
    | nil =>
      have alone : listText [first] = first.text := List.intercalate_singleton
      rwa [alone]
    | cons second others =>
      have blank : mark ≠ ' ' := by
        rintro rfl
        revert isMark
        decide
      rw [listText_cons]
      have others := ih fun parameter isIn => h parameter (List.mem_cons_of_mem _ isIn)
      simp [here, noComma, blank, others]

/-- The pieces of a list of parameters, blanks dropped, are the parameters. -/
theorem pieces_listText (some : parameters ≠ [])
    (h : ∀ parameter ∈ parameters, parameter.IsPlain) :
    (Text.pieces ',' (listText parameters)).map Text.strip = parameters.map Parameter.text := by
  induction parameters with
  | nil => exact absurd rfl some
  | cons first others ih =>
    have plain := h first List.mem_cons_self
    have noComma : ',' ∉ first.text := plain.noMark (by decide)
    cases others with
    | nil =>
      have alone : listText [first] = first.text := List.intercalate_singleton
      rw [alone, Text.pieces_none noComma, List.map_singleton, plain.strip, List.map_singleton]
    | cons second others =>
      have rest := ih (List.cons_ne_nil _ _) fun parameter isIn =>
        h parameter (List.mem_cons_of_mem _ isIn)
      -- The blank behind the comma belongs to the next piece, where it is dropped.
      have blank : ∀ text, (Text.pieces ',' (' ' :: text)).map Text.strip =
          (Text.pieces ',' text).map Text.strip := by
        intro text
        obtain ⟨piece, more, split⟩ := Text.pieces_some ',' text
        rw [Text.pieces, if_neg (by decide), split, List.map_cons, List.map_cons,
          Text.strip_blank (by decide)]
      rw [listText_cons, Text.pieces_append noComma, List.map_cons, blank, rest, plain.strip]
      rfl

theorem parametersOf_written (some : parameters ≠ [])
    (h : ∀ parameter ∈ parameters, parameter.IsPlain) (text : List Char) :
    parametersOf (listText parameters) text = .ok (parameters.map Parameter.text) := by
  obtain ⟨first, others, rfl⟩ := List.exists_cons_of_ne_nil some
  obtain ⟨⟨nonempty, solid⟩, -⟩ := (h first List.mem_cons_self).typeName
  obtain ⟨c, more, begins⟩ := List.exists_cons_of_ne_nil nonempty
  have isFirst : c ∈ listText (first :: others) := by
    have inFirst : c ∈ first.text := by simp [Parameter.text, begins]
    cases others with
    | nil =>
      have alone : listText [first] = first.text := List.intercalate_singleton
      rwa [alone]
    | cons second others =>
      rw [listText_cons]
      exact List.mem_append_left _ inFirst
  have notBlank : ¬Text.isAllBlank (listText (first :: others)) = true := by
    intro blank
    have isBlank := List.all_eq_true.mp blank c isFirst
    rw [solid c (by simp [begins])] at isBlank
    cases isBlank
  have noEmpty : ¬((first :: others).map Parameter.text).any List.isEmpty = true := by
    simp [Parameter.text]
  rw [parametersOf, if_neg notBlank]
  simp only [pieces_listText some h]
  rw [if_neg noEmpty]

/-- **Splitting.** A function string that is written out is split into what it was written
from. -/
theorem split_written {returnType body : List Char} (returns : IsWord returnType)
    (some : parameters ≠ []) (h : ∀ parameter ∈ parameters, parameter.IsPlain) :
    split (functionText returnType parameters body) =
      .ok { returnType, parameters := parameters.map Parameter.text, ignored := [], body } := by
  have noOpen : '(' ∉ returnType := fun isIn => returns.2 _ isIn (by decide)
  have noClose : ')' ∉ listText parameters := listText_noParen h (by decide) (by decide)
  have noNested : ¬(listText parameters).contains '(' = true := by
    simpa using listText_noParen h (by decide : '(' ∈ marks) (by decide)
  have type : returnTypeOf returnType = returnType := by
    rw [returnTypeOf, Text.strip_solid returns.1]
    obtain ⟨c, rest, begins⟩ := List.exists_cons_of_ne_nil returns.1.1
    rw [begins]
  rw [split, openMark, functionText, Text.cut?_first noOpen]
  dsimp only
  rw [closeMark, Text.cut?_first noClose]
  dsimp only
  rw [if_neg noNested, Text.cut?_here arrow body (by decide)]
  dsimp only
  rw [parametersOf_written some h, type]
  rfl

/-! ### Declarations -/

/-- The declarations of parameters, counted from a place on. -/
def declarations (parameters : List Parameter) (index : Nat) : List Declaration :=
  (parameters.zipIdx index).map fun entry => ⟨entry.2, entry.1.name, entry.1.typeName⟩

theorem declareFrom_written (h : ∀ parameter ∈ parameters, parameter.IsPlain)
    (type? : Option (List Char)) (index : Nat) :
    declareFrom type? index (parameters.map Parameter.text) =
      .ok (declarations parameters index) := by
  induction parameters generalizing type? index with
  | nil => rfl
  | cons first others ih =>
    have plain := h first List.mem_cons_self
    have words : wordsOf first.text = [first.typeName, first.name] := by
      rw [wordsOf, Parameter.text, Text.words_pair plain.typeName.1 plain.name.1]
    rw [List.map_cons, declareFrom, words]
    dsimp only
    rw [ih fun parameter isIn => h parameter (List.mem_cons_of_mem _ isIn)]
    rfl

/-- **Declaring.** Every parameter is declared at its own place. -/
theorem declare_written (h : ∀ parameter ∈ parameters, parameter.IsPlain) :
    declare (parameters.map Parameter.text) = .ok (declarations parameters 0) :=
  declareFrom_written h none 0

/-- The place of the first parameter of a name. -/
def firstPlace (parameters : List Parameter) (name : List Char) : Nat :=
  parameters.findIdx (·.name == name)

/-- The declaration of a name stands at the first place that has the name. -/
theorem find?_declarations {name : List Char} (index : Nat)
    (h : firstPlace parameters name < parameters.length) :
    (declarations parameters index).find? (·.name == name) =
      some ⟨index + firstPlace parameters name, name,
        parameters[firstPlace parameters name].typeName⟩ := by
  induction parameters generalizing index with
  | nil => exact absurd h (Nat.not_lt_zero _)
  | cons first others ih =>
    have split : declarations (first :: others) index =
        ⟨index, first.name, first.typeName⟩ :: declarations others (index + 1) := rfl
    rw [split]
    by_cases same : first.name = name
    · have place : firstPlace (first :: others) name = 0 := by
        simp [firstPlace, List.findIdx_cons, same]
      rw [List.find?_cons_of_pos (by simp [same])]
      simp [place, same]
    · have place : firstPlace (first :: others) name = firstPlace others name + 1 := by
        rw [firstPlace, List.findIdx_cons, beq_false_of_ne same]
        rfl
      have inOthers : firstPlace others name < others.length := by
        rw [place] at h
        exact Nat.lt_of_succ_lt_succ h
      rw [List.find?_cons_of_neg (by simp [same]), ih (index + 1) inOthers]
      simp only [place, List.getElem_cons_succ]
      rw [Nat.add_assoc, Nat.add_comm 1]

end Signature

end Formulary
