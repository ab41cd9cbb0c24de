/-
The scan for a free-standing word.

The scan goes from left to right and skips over each word it has found, so it passes over a
free-standing occurrence only inside an earlier one. A word may hold boundary characters itself;
where it does not, two of its occurrences never touch and nothing is passed over.

* `FreeAt`, `RunAt` — an occurrence that stands free, and a longest part without boundary
  characters.
* `scans_occurrencesFrom` — what the scan finds behind a part of a text that has been passed.
* `containsFree_iff` — a word without boundary characters is contained if it is a run.
* `runAt_iff_freeAt` — a word without boundary characters stands free where it is a run.
* `replaceFrom_pieces` — the text between the places is kept.
* `occurrences_scan` — the scan as a whole.
-/

import Formulary.Proofs.Runs

namespace Formulary.Text

/-- Whether a word stands free at a place of a text. -/
def FreeAt (word text : List Char) (place : Nat) : Prop :=
  ∃ front back, text = front ++ word ++ back ∧ front.length = place ∧
    bounds front.getLast? = true ∧ bounds back.head? = true

/-- Whether a part of a text at a place is a run: it has no boundary characters, and no longer part
around it has none. -/
structure RunAt (run text : List Char) (place : Nat) : Prop where
  nonempty : run ≠ []
  plain : Plain run
  here : ∃ front back, text = front ++ run ++ back ∧ front.length = place
  longest : ∀ front wider back, text = front ++ wider ++ back → Plain wider →
    front.length ≤ place → place + run.length ≤ front.length + wider.length →
    front.length = place ∧ wider = run

/-- The places of the separators in a row of pieces that begins at a place. -/
def joints (separator : List Char) : (place : Nat) → List (List Char) → List Nat
  | place, piece :: next :: more =>
    (place + piece.length) ::
      joints separator (place + piece.length + separator.length) (next :: more)
  | _, _ => []

variable {word : List Char}

/-! ### Occurrences -/

/-- The test of the scan, behind a part of the text that has been passed. -/
theorem standsFree_iff (passed text : List Char) :
    standsFree word passed.getLast? text = true ↔ FreeAt word (passed ++ text) passed.length := by
  rw [standsFree, Bool.and_eq_true, Bool.and_eq_true, List.isPrefixOf_iff_prefix]
  constructor
  · rintro ⟨⟨⟨back, same⟩, starts⟩, ends⟩
    rw [← same, List.drop_left] at ends
    exact ⟨passed, back, by rw [List.append_assoc, same], rfl, starts, ends⟩
  · rintro ⟨front, back, same, length, starts, ends⟩
    rw [List.append_assoc] at same
    obtain ⟨rfl, rfl⟩ := List.append_inj same length.symm
    refine ⟨⟨List.prefix_append word back, starts⟩, ?_⟩
    rwa [List.drop_left]

theorem FreeAt.lt_length (nonempty : word ≠ []) {text : List Char} {place : Nat}
    (free : FreeAt word text place) : place < text.length := by
  obtain ⟨front, back, rfl, rfl, -, -⟩ := free
  have positive := List.length_pos_iff.mpr nonempty
  simp only [List.length_append]
  omega

/-- What a scan that starts at a place finds: free-standing occurrences, far enough from each other,
and every one that is missing starts inside one that is found. -/
structure Scans (word text : List Char) (start : Nat) (places : List Nat) : Prop where
  reached : ∀ place ∈ places, start ≤ place
  free : ∀ place ∈ places, FreeAt word text place
  apart : places.Pairwise fun place next => place + word.length ≤ next
  complete : ∀ place, start ≤ place → FreeAt word text place → place ∉ places →
    ∃ earlier ∈ places, earlier < place ∧ place < earlier + word.length

theorem scans_nil (nonempty : word ≠ []) {text : List Char} {start : Nat}
    (behind : text.length ≤ start) : Scans word text start [] where
  reached := nofun
  free := nofun
  apart := .nil
  complete place reached free _ := by
    have inside := free.lt_length nonempty
    omega

/-- An occurrence in front of what a scan finds behind it. -/
theorem Scans.found {text : List Char} {start : Nat} {places : List Nat}
    (free : FreeAt word text start) (later : Scans word text (start + word.length) places) :
    Scans word text start (start :: places) where
  reached place isIn := by
    rcases List.mem_cons.mp isIn with rfl | isLater
    · exact le_rfl
    · have := later.reached place isLater
      omega
  free place isIn := by
    rcases List.mem_cons.mp isIn with rfl | isLater
    · exact free
    · exact later.free place isLater
  apart := List.pairwise_cons.mpr ⟨later.reached, later.apart⟩
  complete place reached isFree missing := by
    rw [List.mem_cons, not_or] at missing
    by_cases behind : start + word.length ≤ place
    · obtain ⟨earlier, isLater, inside⟩ := later.complete place behind isFree missing.2
      exact ⟨earlier, List.mem_cons_of_mem _ isLater, inside⟩
    · exact ⟨start, List.mem_cons_self, by omega, by omega⟩

/-- A place where the word does not stand free is passed. -/
theorem Scans.passed {text : List Char} {start : Nat} {places : List Nat}
    (notFree : ¬FreeAt word text start) (later : Scans word text (start + 1) places) :
    Scans word text start places where
  reached place isIn := Nat.le_of_succ_le (later.reached place isIn)
  free := later.free
  apart := later.apart
  complete place reached isFree missing := by
    have different : place ≠ start := by
      rintro rfl
      exact notFree isFree
    exact later.complete place (by omega) isFree missing

/-- **The scan,** behind a part of the text that has been passed and so many characters that still
belong to the word found last. -/
theorem scans_occurrencesFrom (nonempty : word ≠ []) (skip : Nat) (passed text : List Char) :
    Scans word (passed ++ text) (passed.length + skip)
      (occurrencesFrom word skip passed.getLast? passed.length text) := by
  have positive := List.length_pos_iff.mpr nonempty
  induction text generalizing skip passed with
  | nil =>
    have none : occurrencesFrom word skip passed.getLast? passed.length [] = [] := by
      cases skip <;> rfl
    rw [none]
    exact scans_nil nonempty (by simp)
  | cons c rest ih =>
    -- The scan of the rest, with this character passed.
    have later (skip : Nat) : Scans word (passed ++ c :: rest) (passed.length + 1 + skip)
        (occurrencesFrom word skip (some c) (passed.length + 1) rest) := by
      have behind := ih skip (passed ++ [c])
      rwa [List.append_assoc, List.singleton_append, List.length_append, List.length_singleton,
        List.getLast?_append_cons, List.getLast?_singleton] at behind
    cases skip with
    | succ skip =>
      rw [occurrencesFrom, Nat.add_comm skip, ← Nat.add_assoc]
      exact later skip
    | zero =>
      rw [occurrencesFrom, Nat.add_zero]
      split
      · next free =>
        have next := later (word.length - 1)
        rw [show passed.length + 1 + (word.length - 1) = passed.length + word.length by omega]
          at next
        exact next.found ((standsFree_iff passed (c :: rest)).mp free)
      · next bound =>
        exact (later 0).passed ((standsFree_iff passed (c :: rest)).not.mp bound)

theorem scans_occurrences (nonempty : word ≠ []) (text : List Char) :
    Scans word text 0 (occurrences word text) := by
  rw [occurrences, if_neg (by simpa using nonempty)]
  exact scans_occurrencesFrom nonempty 0 [] text

/-- A word is contained if it stands free anywhere. -/
theorem containsFree_iff_freeAt (nonempty : word ≠ []) (text : List Char) :
    containsFree word text = true ↔ ∃ place, FreeAt word text place := by
  have scans := scans_occurrences nonempty text
  rw [containsFree, Bool.not_eq_true', List.isEmpty_eq_false_iff_exists_mem]
  constructor
  · rintro ⟨place, isIn⟩
    exact ⟨place, scans.free place isIn⟩
  · rintro ⟨place, free⟩
    by_cases isIn : place ∈ occurrences word text
    · exact ⟨place, isIn⟩
    · obtain ⟨earlier, isEarlier, -⟩ := scans.complete place (Nat.zero_le _) free isIn
      exact ⟨earlier, isEarlier⟩

/-! ### Runs -/

/-- **A word without boundary characters stands free in a text exactly if it is a run of it.** -/
theorem containsFree_iff (nonempty : word ≠ []) (plain : Plain word) (text : List Char) :
    containsFree word text = true ↔ word ∈ runs text := by
  rw [containsFree_iff_freeAt nonempty, mem_runs]
  constructor
  · rintro ⟨place, front, back, same, -, starts, ends⟩
    exact ⟨nonempty, plain, front, back, same, starts, ends⟩
  · rintro ⟨-, -, front, back, same, starts, ends⟩
    exact ⟨front.length, front, back, same, rfl, starts, ends⟩

/-- Nothing plain ends at a boundary. -/
theorem Plain.nil_of_getLast? {part : List Char} (plain : Plain part) (front : List Char)
    (ends : bounds (front ++ part).getLast? = true) : part = [] := by
  rcases List.eq_nil_or_concat' part with rfl | ⟨part, c, rfl⟩
  · rfl
  · have inside := plain c (List.mem_append_right part List.mem_cons_self)
    rw [← List.append_assoc, List.getLast?_concat, bounds, inside] at ends
    cases ends

/-- Nothing plain begins at a boundary. -/
theorem Plain.nil_of_head? {part : List Char} (plain : Plain part) (back : List Char)
    (starts : bounds (part ++ back).head? = true) : part = [] := by
  cases part with
  | nil => rfl
  | cons c part =>
    rw [List.cons_append, List.head?_cons, bounds, plain.head] at starts
    cases starts

/-- **A word without boundary characters stands free where it is a run.** -/
theorem runAt_iff_freeAt (nonempty : word ≠ []) (plain : Plain word) {text : List Char}
    {place : Nat} : RunAt word text place ↔ FreeAt word text place := by
  constructor
  · intro run
    obtain ⟨front, back, rfl, rfl⟩ := run.here
    refine ⟨front, back, rfl, rfl, ?_, ?_⟩
    · -- A character in front that is no boundary would make the run longer.
      rcases List.eq_nil_or_concat' front with rfl | ⟨front, c, rfl⟩
      · rfl
      · by_contra inside
        rw [List.getLast?_concat, bounds, Bool.not_eq_true] at inside
        have wider := run.longest front (c :: word) back (by simp)
          (List.forall_mem_cons.mpr ⟨inside, plain⟩) (by simp) (by simp; omega)
        simp at wider
    · cases back with
      | nil => rfl
      | cons c back =>
        by_contra inside
        rw [List.head?_cons, bounds, Bool.not_eq_true] at inside
        have wider := run.longest front (word ++ [c]) back (by simp)
          (List.forall_mem_append.mpr ⟨plain, by simpa using inside⟩) le_rfl (by simp)
        simp at wider
  · rintro ⟨front, back, rfl, rfl, starts, ends⟩
    refine ⟨nonempty, plain, ⟨front, back, rfl, rfl⟩, ?_⟩
    intro front' wider back' same plainWider before behind
    -- What a wider part has more in front or behind would be plain, and touches a boundary.
    rw [List.append_assoc, List.append_assoc] at same
    obtain ⟨more, rfl⟩ : front' <+: front :=
      List.prefix_of_prefix_length_le ⟨wider ++ back', same.symm⟩ ⟨word ++ back, rfl⟩ before
    rw [List.append_assoc, List.append_cancel_left_eq] at same
    obtain ⟨rest, rfl⟩ : more ++ word <+: wider :=
      List.prefix_of_prefix_length_le ⟨back, by rw [List.append_assoc, same]⟩
        ⟨back', rfl⟩ (by simp only [List.length_append] at behind ⊢; omega)
    simp only [List.append_assoc, List.append_cancel_left_eq] at same
    subst same
    have plainMore : Plain more := fun c isIn => plainWider c (by simp [isIn])
    have plainRest : Plain rest := fun c isIn => plainWider c (by simp [isIn])
    rw [plainMore.nil_of_getLast? front' starts, plainRest.nil_of_head? back' ends]
    simp

/-- Two occurrences of a word without boundary characters do not overlap. -/
theorem FreeAt.not_inside {text : List Char} (plain : Plain word) {place earlier : Nat}
    (free : FreeAt word text place) (isEarlier : FreeAt word text earlier)
    (after : earlier < place) : earlier + word.length ≤ place := by
  obtain ⟨front, back, rfl, rfl, starts, -⟩ := free
  obtain ⟨front', back', same, rfl, -, -⟩ := isEarlier
  by_contra overlap
  -- The part of the earlier occurrence in front of the later one is plain.
  rw [List.append_assoc, List.append_assoc] at same
  obtain ⟨part, rfl⟩ : front' <+: front :=
    List.prefix_of_prefix_length_le ⟨word ++ back', same.symm⟩ ⟨word ++ back, rfl⟩ after.le
  rw [List.append_assoc, List.append_cancel_left_eq] at same
  obtain ⟨rest, isWord⟩ : part <+: word :=
    List.prefix_of_prefix_length_le ⟨word ++ back, same⟩ ⟨back', rfl⟩
      (by simp only [List.length_append] at overlap; omega)
  have plainPart : Plain part := fun c isIn => plain c (by simp [← isWord, isIn])
  rw [plainPart.nil_of_getLast? front' starts] at after
  simp at after

/-! ### The text around the places -/

theorem intercalate_nil_cons {separator : List Char} {kept : List (List Char)} (some : kept ≠ []) :
    separator.intercalate ([] :: kept) = separator ++ separator.intercalate kept := by
  obtain ⟨piece, more, rfl⟩ := List.exists_cons_of_ne_nil some
  rw [List.intercalate_cons_cons, List.nil_append]

theorem intercalate_cons_first {separator : List Char} (c : Char) (piece : List Char)
    (more : List (List Char)) :
    separator.intercalate ((c :: piece) :: more) =
      c :: separator.intercalate (piece :: more) := by
  cases more with
  | nil => rw [List.intercalate_singleton, List.intercalate_singleton]
  | cons next more => rw [List.intercalate_cons_cons, List.intercalate_cons_cons]; rfl

theorem joints_nil_cons {separator : List Char} (place : Nat) {kept : List (List Char)}
    (some : kept ≠ []) :
    joints separator place ([] :: kept) =
      place :: joints separator (place + separator.length) kept := by
  obtain ⟨piece, more, rfl⟩ := List.exists_cons_of_ne_nil some
  rfl

theorem joints_cons_first {separator : List Char} (place : Nat) (c : Char) (piece : List Char)
    (more : List (List Char)) :
    joints separator place ((c :: piece) :: more) =
      joints separator (place + 1) (piece :: more) := by
  cases more with
  | nil => rfl
  | cons next more =>
    have behind : place + (c :: piece).length = place + 1 + piece.length := by
      rw [List.length_cons, Nat.add_assoc, Nat.add_comm 1]
    rw [joints, joints, behind]

/-- **The text between the places is kept.** The rest of a text, behind the characters that still
belong to the word found last, is a row of pieces with the word between them; the places are where
the word stands in the row, and replacing the word puts the replacement there. -/
theorem replaceFrom_pieces (nonempty : word ≠ []) (replacement : List Char) (skip : Nat)
    (before : Option Char) (offset : Nat) (text : List Char) : ∃ kept, kept ≠ [] ∧
      word.intercalate kept = text.drop skip ∧
      occurrencesFrom word skip before offset text = joints word (offset + skip) kept ∧
      replaceFrom word replacement skip before text = replacement.intercalate kept := by
  have positive := List.length_pos_iff.mpr nonempty
  induction text generalizing skip before offset with
  | nil =>
    refine ⟨[[]], List.cons_ne_nil _ _, ?_, ?_, ?_⟩
    · rw [List.drop_nil, List.intercalate_singleton]
    · cases skip <;> rfl
    · rw [List.intercalate_singleton]
      cases skip <;> rfl
  | cons c rest ih =>
    cases skip with
    | succ skip =>
      obtain ⟨kept, some, isText, places, replaced⟩ := ih skip (.some c) (offset + 1)
      refine ⟨kept, some, isText, ?_, replaced⟩
      rw [occurrencesFrom, places, Nat.add_right_comm, Nat.add_assoc]
    | zero =>
      rw [occurrencesFrom, replaceFrom]
      split
      · next free =>
        obtain ⟨kept, some, isText, places, replaced⟩ := ih (word.length - 1) (.some c) (offset + 1)
        simp only [standsFree, Bool.and_eq_true, List.isPrefixOf_iff_prefix] at free
        obtain ⟨back, same⟩ := free.1.1
        have isBack : rest.drop (word.length - 1) = back := by
          have behind : (c :: rest).drop word.length = back := by rw [← same, List.drop_left]
          rwa [← Nat.succ_pred_eq_of_pos positive, List.drop_succ_cons] at behind
        refine ⟨[] :: kept, List.cons_ne_nil _ _, ?_, ?_, ?_⟩
        · rw [intercalate_nil_cons some, isText, isBack, same, List.drop_zero]
        · rw [Nat.add_zero offset, joints_nil_cons _ some, places, Nat.add_assoc offset,
            Nat.add_sub_cancel' positive]
        · rw [intercalate_nil_cons some, replaced]
      · obtain ⟨kept, some, isText, places, replaced⟩ := ih 0 (.some c) (offset + 1)
        obtain ⟨piece, more, rfl⟩ := List.exists_cons_of_ne_nil some
        refine ⟨(c :: piece) :: more, List.cons_ne_nil _ _, ?_, ?_, ?_⟩
        · rw [intercalate_cons_first, isText, List.drop_zero, List.drop_zero]
        · rw [joints_cons_first, places]
        · rw [intercalate_cons_first, replaced]

/-! ### The scan as a whole -/

/-- **The scan is sound, complete and lossless.** The places that are found follow each other with
at least the word between them, the word stands free at each of them, and every other free-standing
occurrence starts inside one that is found. For a word without boundary characters they are the
places where it is a run. The text is a row of pieces with the word at the places that are found,
and replacing the word keeps the pieces. The word is contained if it stands free anywhere. -/
theorem occurrences_scan (nonempty : word ≠ []) (text replacement : List Char) :
    ((occurrences word text).Pairwise fun place next =>
        place < next ∧ place + word.length ≤ next) ∧
      (∀ place ∈ occurrences word text, FreeAt word text place) ∧
      (∀ place, FreeAt word text place → place ∉ occurrences word text →
        ∃ earlier ∈ occurrences word text, earlier < place ∧ place < earlier + word.length) ∧
      (Plain word → ∀ place, place ∈ occurrences word text ↔ RunAt word text place) ∧
      (∃ kept, word.intercalate kept = text ∧ occurrences word text = joints word 0 kept ∧
        replaceFree word replacement text = replacement.intercalate kept) ∧
      (containsFree word text = true ↔ ∃ place, FreeAt word text place) := by
  have positive := List.length_pos_iff.mpr nonempty
  have scans := scans_occurrences nonempty text
  refine ⟨?_, scans.free, fun place => scans.complete place (Nat.zero_le _), ?_, ?_, ?_⟩
  · exact scans.apart.imp fun apart => ⟨by omega, apart⟩
  · intro plain place
    rw [runAt_iff_freeAt nonempty plain]
    refine ⟨scans.free place, fun free => ?_⟩
    by_contra missing
    obtain ⟨earlier, isIn, after, inside⟩ := scans.complete place (Nat.zero_le _) free missing
    have apart := free.not_inside plain (scans.free earlier isIn) after
    omega
  · have given : ¬word.isEmpty = true := by simpa using nonempty
    obtain ⟨kept, -, isText, places, replaced⟩ :=
      replaceFrom_pieces nonempty replacement 0 none 0 text
    rw [occurrences, replaceFree, if_neg given, if_neg given]
    exact ⟨kept, isText, places, replaced⟩
  · exact containsFree_iff_freeAt nonempty text

/-- A word with a boundary character, one of whose occurrences lies across two others. -/
theorem overlapping_scan :
    "a-a".toList ≠ [] ∧ occurrences "a-a".toList "a-a-a+a-a".toList = [0, 6] ∧
      (∀ place, FreeAt "a-a".toList "a-a-a+a-a".toList place →
        place ∉ occurrences "a-a".toList "a-a-a+a-a".toList →
          ∃ earlier ∈ occurrences "a-a".toList "a-a-a+a-a".toList,
            earlier < place ∧ place < earlier + 3) ∧
      FreeAt "a-a".toList "a-a-a+a-a".toList 2 ∧
      replaceFree "a-a".toList "b".toList "a-a-a+a-a".toList = "b-a+b".toList := by
  have scan := occurrences_scan (by decide : "a-a".toList ≠ []) "a-a-a+a-a".toList "b".toList
  exact ⟨by decide, by decide, scan.2.2.1,
    ⟨"a-".toList, "+a-a".toList, by decide, rfl, rfl, rfl⟩, by decide⟩

end Formulary.Text
