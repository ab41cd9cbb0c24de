/-
The shape of signatures.

A function string has three marks: its first opening parenthesis, the first closing one behind it,
and the first arrow behind that. They cut it into the return type, the list of parameters, a part
that is ignored, and the body, which is kept as it is. The marks may stand anywhere else, too; only
an opening parenthesis inside the list is refused, and an empty place in it.

* `FirstAt`, `cut?_cases` — the first place of a mark, and cutting a text there.
* `pieces_eq_splitOn`, `strip_eq_trimmed` — the pieces and the ends of a text.
* `Outline`, `IsSplit` — the places of the marks, and the parts between them.
* `split_exact` — what is accepted, and what comes of it.
-/

import Formulary.Proofs.Splitting

namespace Formulary

/-! ### Cutting at a mark -/

namespace Text

variable {mark : List Char}

/-- The first place, from a place on, where a mark stands in a text. -/
structure FirstAt (mark text : List Char) (start place : Nat) : Prop where
  reached : start ≤ place
  here : mark <+: text.drop place
  first : ∀ earlier, start ≤ earlier → earlier < place → ¬mark <+: text.drop earlier

instance (mark text : List Char) (start place : Nat) : Decidable (FirstAt mark text start place) :=
  decidable_of_iff (start ≤ place ∧ mark <+: text.drop place ∧
      ∀ earlier < place, start ≤ earlier → ¬mark <+: text.drop earlier)
    ⟨fun ⟨reached, here, first⟩ => ⟨reached, here, fun earlier atLeast before =>
      first earlier before atLeast⟩,
    fun first => ⟨first.reached, first.here, fun earlier before atLeast =>
      first.first earlier atLeast before⟩⟩

/-- The part of a text from a place up to another one. -/
def slice (text : List Char) (start stop : Nat) : List Char :=
  (text.drop start).take (stop - start)

theorem FirstAt.unique {text : List Char} {start place other : Nat}
    (first : FirstAt mark text start place) (firstToo : FirstAt mark text start other) :
    place = other := by
  rcases lt_trichotomy place other with before | same | behind
  · exact absurd first.here (firstToo.first place first.reached before)
  · exact same
  · exact absurd firstToo.here (first.first other firstToo.reached behind)

/-- A text is cut at the first place of a mark, or the mark stands nowhere in it. -/
theorem cut?_found (nonempty : mark ≠ []) (text : List Char) :
    (∃ place, FirstAt mark text 0 place ∧
        cut? mark text = some (text.take place, text.drop (place + mark.length))) ∨
      ((∀ place, ¬mark <+: text.drop place) ∧ cut? mark text = none) := by
  induction text with
  | nil =>
    refine .inr ⟨fun place => ?_, ?_⟩
    · rw [List.drop_nil, List.prefix_nil]
      exact nonempty
    · rw [cut?, if_neg (by simpa using nonempty)]
  | cons c rest ih =>
    rw [cut?]
    split
    · next isPrefix =>
      refine .inl ⟨0, ⟨le_rfl, List.isPrefixOf_iff_prefix.mp isPrefix, fun _ _ => by omega⟩, ?_⟩
      rw [List.take_zero, Nat.zero_add]
    · next noPrefix =>
      have notHere : ¬mark <+: c :: rest := mt List.isPrefixOf_iff_prefix.mpr noPrefix
      rcases ih with ⟨place, first, isCut⟩ | ⟨nowhere, noCut⟩
      · refine .inl ⟨place + 1, ⟨Nat.zero_le _, first.here, fun earlier _ before => ?_⟩, ?_⟩
        · cases earlier with
          | zero => exact notHere
          | succ earlier => exact first.first earlier (Nat.zero_le _) (by omega)
        · rw [isCut, Option.map_some, List.take_succ_cons, Nat.add_right_comm, List.drop_succ_cons]
      · refine .inr ⟨fun place => ?_, ?_⟩
        · cases place with
          | zero => exact notHere
          | succ place => exact nowhere place
        · rw [noCut, Option.map_none]

/-- **Cutting from a place on:** at the first place of the mark, or nowhere. -/
theorem cut?_cases (nonempty : mark ≠ []) (text : List Char) (start : Nat) :
    (∃ place, FirstAt mark text start place ∧ cut? mark (text.drop start) =
        some (slice text start place, text.drop (place + mark.length))) ∨
      ((∀ place, ¬FirstAt mark text start place) ∧ cut? mark (text.drop start) = none) := by
  rcases cut?_found nonempty (text.drop start) with ⟨place, first, isCut⟩ | ⟨nowhere, noCut⟩
  · refine .inl ⟨start + place, ⟨Nat.le_add_right _ _, ?_, fun earlier reached before => ?_⟩, ?_⟩
    · rw [← List.drop_drop]
      exact first.here
    · have behind := first.first (earlier - start) (Nat.zero_le _) (by omega)
      rwa [List.drop_drop, Nat.add_sub_cancel' reached] at behind
    · rw [isCut, slice, Nat.add_sub_cancel_left, List.drop_drop, Nat.add_assoc]
  · refine .inr ⟨fun place first => nowhere (place - start) ?_, noCut⟩
    rw [List.drop_drop, Nat.add_sub_cancel' first.reached]
    exact first.here

/-! ### Pieces and ends -/

/-- The pieces of a text are what stands between the separators. -/
theorem pieces_eq_splitOn (separator : Char) (text : List Char) :
    pieces separator text = text.splitOn separator := by
  rw [List.splitOn_eq_splitOnP]
  induction text with
  | nil => rfl
  | cons c rest ih =>
    rw [pieces, List.splitOnP_cons_eq_if_modifyHead, ih]
    by_cases same : c = separator
    · rw [if_pos same, if_pos (by simpa using same)]
    · obtain ⟨piece, more, split⟩ := pieces_some separator rest
      rw [if_neg same, if_neg (by simpa using same), ← ih, split]
      rfl

/-- A text without the blanks at its ends. -/
def trimmed (text : List Char) : List Char :=
  (text.dropWhile isBlank).rdropWhile isBlank

theorem rdropWhile_cons (p : Char → Bool) (c : Char) (rest : List Char) :
    (c :: rest).rdropWhile p =
      if rest.rdropWhile p = [] then if p c then [] else [c] else c :: rest.rdropWhile p := by
  rw [List.rdropWhile, List.rdropWhile, List.reverse_cons, List.dropWhile_append]
  simp only [List.isEmpty_iff, List.reverse_eq_nil_iff]
  split
  · exact List.rdropWhile_singleton p c
  · rw [List.reverse_append]
    rfl

theorem stripEnd_eq (text : List Char) : stripEnd text = text.rdropWhile isBlank := by
  induction text with
  | nil => rfl
  | cons c rest ih =>
    rw [stripEnd, ih, rdropWhile_cons]
    cases rest.rdropWhile isBlank with
    | nil => rw [if_pos rfl]
    | cons d kept => rw [if_neg (List.cons_ne_nil d kept)]

theorem strip_eq_trimmed (text : List Char) : strip text = trimmed text :=
  stripEnd_eq _

/-- Nothing is left of a blank text, and of no other one. -/
theorem trimmed_eq_nil_iff (text : List Char) : trimmed text = [] ↔ isAllBlank text = true := by
  have twice := List.dropWhile_idempotent isBlank text
  rw [trimmed, List.rdropWhile_eq_nil_iff, isAllBlank, List.all_eq_true,
    ← List.dropWhile_eq_nil_iff, twice, List.dropWhile_eq_nil_iff]

end Text

/-! ### The parts of a signature -/

/-- The errors of texts without the shape of a signature. -/
def SignatureError.IsMalformed : SignatureError → Prop
  | .missing .. | .nestedParenthesis _ | .emptyParameter _ => True
  | .missingType _ | .tooManyWords _ => False

namespace Signature

open Text (FirstAt slice trimmed isAllBlank)

variable {text : List Char} {opening closing arrowing : Nat}

/-- The places of the marks of a signature: the first opening parenthesis, the first closing one
behind it and the first arrow behind that. The list between the parentheses has no other opening
one, and it is blank or none of its pieces is. -/
structure Outline (text : List Char) (opening closing arrowing : Nat) : Prop where
  opens : FirstAt ['('] text 0 opening
  closes : FirstAt [')'] text (opening + 1) closing
  flat : '(' ∉ slice text (opening + 1) closing
  points : FirstAt ['-', '>'] text (closing + 1) arrowing
  filled : isAllBlank (slice text (opening + 1) closing) = true ∨
    ∀ piece ∈ (slice text (opening + 1) closing).splitOn ',', isAllBlank piece = false

instance (text : List Char) (opening closing arrowing : Nat) :
    Decidable (Outline text opening closing arrowing) :=
  decidable_of_iff (FirstAt ['('] text 0 opening ∧ FirstAt [')'] text (opening + 1) closing ∧
      '(' ∉ slice text (opening + 1) closing ∧ FirstAt ['-', '>'] text (closing + 1) arrowing ∧
      (isAllBlank (slice text (opening + 1) closing) = true ∨
        ∀ piece ∈ (slice text (opening + 1) closing).splitOn ',', isAllBlank piece = false))
    ⟨fun ⟨opens, closes, flat, points, filled⟩ => ⟨opens, closes, flat, points, filled⟩,
    fun ⟨opens, closes, flat, points, filled⟩ => ⟨opens, closes, flat, points, filled⟩⟩

/-- The parts that a text is split into at the marks of a signature. -/
structure IsSplit (text : List Char) (opening closing arrowing : Nat) (signature : Signature) :
    Prop where
  returnType : signature.returnType =
    if isAllBlank (slice text 0 opening) then "Object".toList else trimmed (slice text 0 opening)
  parameters : signature.parameters =
    if isAllBlank (slice text (opening + 1) closing) then [[]]
    else ((slice text (opening + 1) closing).splitOn ',').map trimmed
  ignored : signature.ignored = trimmed (slice text (closing + 1) arrowing)
  body : signature.body = text.drop (arrowing + 2)
  warnings : warnings signature = if isAllBlank (slice text (closing + 1) arrowing) then 0 else 1

theorem Outline.unique {opening' closing' arrowing' : Nat}
    (outline : Outline text opening closing arrowing)
    (outlineToo : Outline text opening' closing' arrowing') :
    opening = opening' ∧ closing = closing' ∧ arrowing = arrowing' := by
  obtain rfl := outline.opens.unique outlineToo.opens
  obtain rfl := outline.closes.unique outlineToo.closes
  exact ⟨rfl, rfl, outline.points.unique outlineToo.points⟩

theorem returnTypeOf_eq (front : List Char) :
    returnTypeOf front = if isAllBlank front then "Object".toList else trimmed front := by
  rw [returnTypeOf, Text.strip_eq_trimmed]
  split
  · next none => rw [if_pos ((Text.trimmed_eq_nil_iff front).mp none), defaultReturnType]
  · next some => rw [if_neg ((Text.trimmed_eq_nil_iff front).not.mp some)]

/-- The parameters of a list: those between its commas, none of which may be blank. -/
theorem parametersOf_cases (list text : List Char) :
    (isAllBlank list = true ∧ parametersOf list text = .ok [[]]) ∨
      (isAllBlank list = false ∧ (∀ piece ∈ list.splitOn ',', isAllBlank piece = false) ∧
        parametersOf list text = .ok ((list.splitOn ',').map trimmed)) ∨
      (isAllBlank list = false ∧ (∃ piece ∈ list.splitOn ',', isAllBlank piece = true) ∧
        parametersOf list text = .error (.emptyParameter text)) := by
  rw [parametersOf, Text.pieces_eq_splitOn, funext Text.strip_eq_trimmed]
  cases isAllBlank list with
  | true => exact .inl ⟨rfl, rfl⟩
  | false =>
    rw [if_neg Bool.false_ne_true]
    dsimp only
    have empty : ((list.splitOn ',').map trimmed).any List.isEmpty = true ↔
        ∃ piece ∈ list.splitOn ',', isAllBlank piece = true := by
      simp only [List.any_map, List.any_eq_true, Function.comp_apply, List.isEmpty_iff,
        Text.trimmed_eq_nil_iff]
    split
    · next some => exact .inr (.inr ⟨rfl, empty.mp some, rfl⟩)
    · next none =>
      rw [empty] at none
      push Not at none
      exact .inr (.inl ⟨rfl, fun piece isIn => by simpa using none piece isIn, rfl⟩)

theorem warnings_eq (signature : Signature) {between : List Char}
    (ignored : signature.ignored = trimmed between) :
    warnings signature = if isAllBlank between then 0 else 1 := by
  simp only [warnings, ignored, List.isEmpty_iff, Text.trimmed_eq_nil_iff]

/-- **How a text is split:** at the marks of a signature, or not at all. -/
theorem split_cases (text : List Char) :
    (∃ opening closing arrowing signature, Outline text opening closing arrowing ∧
        split text = .ok signature ∧ IsSplit text opening closing arrowing signature) ∨
      ((∀ opening closing arrowing, ¬Outline text opening closing arrowing) ∧
        ∃ error, split text = .error error ∧ error.IsMalformed) := by
  rw [split, openMark, closeMark, arrow]
  rcases Text.cut?_cases (List.cons_ne_nil '(' []) text 0 with
    ⟨opening, opens, isCut⟩ | ⟨noOpening, noCut⟩
  swap
  · rw [List.drop_zero] at noCut
    rw [noCut]
    exact .inr ⟨fun opening _ _ outline => noOpening opening outline.opens, _, rfl, trivial⟩
  rw [List.drop_zero] at isCut
  rw [isCut]
  dsimp only [List.length_singleton]
  rcases Text.cut?_cases (List.cons_ne_nil ')' []) text (opening + 1) with
    ⟨closing, closes, isCut⟩ | ⟨noClosing, noCut⟩
  swap
  · rw [noCut]
    refine .inr ⟨fun other closing _ outline => noClosing closing ?_, _, rfl, trivial⟩
    rw [opens.unique outline.opens]
    exact outline.closes
  rw [isCut]
  dsimp only [List.length_singleton]
  -- The marks of any outline are the ones that have been found.
  have found {opening' closing' arrowing : Nat}
      (outline : Outline text opening' closing' arrowing) :
      Outline text opening closing arrowing := by
    obtain rfl := opens.unique outline.opens
    obtain rfl := closes.unique outline.closes
    exact outline
  split
  · next nested =>
    refine .inr ⟨fun _ _ _ outline => (found outline).flat ?_, _, rfl, trivial⟩
    exact List.contains_iff_mem.mp nested
  next flat =>
  have flat : '(' ∉ slice text (opening + 1) closing := mt List.contains_iff_mem.mpr flat
  rcases Text.cut?_cases (List.cons_ne_nil '-' ['>']) text (closing + 1) with
    ⟨arrowing, points, isCut⟩ | ⟨noArrow, noCut⟩
  swap
  · rw [noCut]
    refine .inr ⟨fun _ _ arrowing outline => ?_, _, rfl, trivial⟩
    exact noArrow arrowing (found outline).points
  rw [isCut]
  dsimp only [List.length_cons, List.length_nil]
  have ignored := Text.strip_eq_trimmed (slice text (closing + 1) arrowing)
  rcases parametersOf_cases (slice text (opening + 1) closing) text with
    ⟨blank, parameters⟩ | ⟨notBlank, filled, parameters⟩ | ⟨notBlank, ⟨piece, isIn, blank⟩, refused⟩
  · rw [parameters]
    refine .inl ⟨opening, closing, arrowing, _, ⟨opens, closes, flat, points, .inl blank⟩, rfl,
      returnTypeOf_eq _, ?_, ignored, rfl, warnings_eq _ ignored⟩
    rw [if_pos blank]
  · rw [parameters]
    refine .inl ⟨opening, closing, arrowing, _, ⟨opens, closes, flat, points, .inr filled⟩, rfl,
      returnTypeOf_eq _, ?_, ignored, rfl, warnings_eq _ ignored⟩
    rw [if_neg (by simp [notBlank])]
  · rw [refused]
    refine .inr ⟨fun _ _ _ outline => ?_, _, rfl, trivial⟩
    rcases (found outline).filled with isBlank | filled
    · rw [notBlank] at isBlank
      cases isBlank
    · rw [filled piece isIn] at blank
      cases blank

/-- **Splitting signatures.** A text is accepted exactly if it has the marks of a signature, with a
list of parameters that is blank or has no blank place. Then it is split at the marks, and nothing
of the body is lost. Any other text is refused as malformed. -/
theorem split_exact (text : List Char) :
    ((∃ signature, split text = .ok signature) ↔
        ∃ opening closing arrowing, Outline text opening closing arrowing) ∧
      (∀ opening closing arrowing, Outline text opening closing arrowing →
        ∃ signature, split text = .ok signature ∧
          IsSplit text opening closing arrowing signature) ∧
      ((¬∃ opening closing arrowing, Outline text opening closing arrowing) →
        ∃ error, split text = .error error ∧ error.IsMalformed) := by
  rcases split_cases text with
    ⟨opening, closing, arrowing, signature, outline, accepted, isSplit⟩ |
    ⟨none, error, refused, malformed⟩
  · refine ⟨⟨fun _ => ⟨opening, closing, arrowing, outline⟩, fun _ => ⟨signature, accepted⟩⟩, ?_,
      fun noOutline => absurd ⟨opening, closing, arrowing, outline⟩ noOutline⟩
    intro opening' closing' arrowing' outlineToo
    obtain ⟨rfl, rfl, rfl⟩ := outline.unique outlineToo
    exact ⟨signature, accepted, isSplit⟩
  · refine ⟨⟨?_, ?_⟩, ?_, fun _ => ⟨error, refused, malformed⟩⟩
    · rintro ⟨signature, accepted⟩
      rw [refused] at accepted
      cases accepted
    · rintro ⟨opening, closing, arrowing, outline⟩
      exact absurd outline (none opening closing arrowing)
    · intro opening closing arrowing outline
      exact absurd outline (none opening closing arrowing)

/-- A signature with marks in its return type and in its body. -/
def strewnMarks : List Char :=
  "-> ( Integer a,b ) so -> a -> (b)".toList

theorem strewnMarks_split :
    Outline strewnMarks 3 17 22 ∧
      (∃ signature, split strewnMarks = .ok signature ∧ IsSplit strewnMarks 3 17 22 signature) ∧
      split strewnMarks = .ok
        { returnType := "->".toList, parameters := ["Integer a".toList, "b".toList],
          ignored := "so".toList, body := " a -> (b)".toList } := by
  have outline : Outline strewnMarks 3 17 22 := by decide +kernel
  exact ⟨outline, (split_exact strewnMarks).2.1 3 17 22 outline, by decide⟩

end Signature

end Formulary
