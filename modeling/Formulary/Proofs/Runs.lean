/-
The runs of a text: its longest parts without boundary characters.

A word that stands free in a text is one of its runs, so that replacing free-standing words
is a change of single runs (`mapRuns`), and a series of such replacements is one change of
runs again.

* `mem_runs` — the runs of a text are its longest parts without boundary characters.
* `mapRuns_mapRuns` — changing the runs of a text twice is changing them once: what is
  written in the place of a run never grows together with what stands around it.
* `replaceFree_eq_mapRuns` — replacing a word where it stands free changes the runs that are
  the word, and nothing else.
-/

import Formulary.Text.FreeStanding
import Mathlib

namespace Formulary.Text

/-! ### Stretches -/

/-- A stretch of a text: a run, or a single boundary character. -/
inductive Stretch where
  | run (word : List Char)
  | boundary (c : Char)
deriving DecidableEq, Repr

/-- The stretches of a text. A character that is no boundary belongs to the run behind it. -/
def stretches : List Char → List Stretch
  | [] => []
  | c :: rest =>
    if isBoundary c then .boundary c :: stretches rest
    else
      match stretches rest with
      | .run word :: more => .run (c :: word) :: more
      | more => .run [c] :: more

/-- The text of a stretch with its run changed. -/
def Stretch.mapRun (change : List Char → List Char) : Stretch → List Char
  | .run word => change word
  | .boundary c => [c]

/-- The run of a stretch. -/
def Stretch.run? : Stretch → Option (List Char)
  | .run word => some word
  | .boundary _ => none

/-- The runs of a text. -/
def runs (text : List Char) : List (List Char) :=
  (stretches text).filterMap Stretch.run?

/-- A text with every run changed and every other character as it is. -/
def mapRuns (change : List Char → List Char) (text : List Char) : List Char :=
  (stretches text).flatMap (Stretch.mapRun change)

/-- A word without boundary characters. -/
def Plain (word : List Char) : Prop :=
  ∀ c ∈ word, isBoundary c = false

instance (word : List Char) : Decidable (Plain word) :=
  decidable_of_iff (word.all (!isBoundary ·) = true) (by simp [Plain])

theorem Plain.head {c : Char} {word : List Char} (h : Plain (c :: word)) :
    isBoundary c = false :=
  h c List.mem_cons_self

theorem Plain.tail {c : Char} {word : List Char} (h : Plain (c :: word)) : Plain word :=
  fun d inWord => h d (List.mem_cons_of_mem _ inWord)

/-! ### A text as a row of stretches -/

theorem stretches_boundary {b : Char} (isB : isBoundary b = true) (rest : List Char) :
    stretches (b :: rest) = .boundary b :: stretches rest := by
  rw [stretches, if_pos isB]

theorem stretches_run {word rest : List Char} (nonempty : word ≠ []) (plain : Plain word)
    (ends : bounds rest.head? = true) :
    stretches (word ++ rest) = .run word :: stretches rest := by
  induction word with
  | nil => exact (nonempty rfl).elim
  | cons c word ih =>
    have noB : ¬isBoundary c = true := by simp [plain.head]
    rw [List.cons_append, stretches, if_neg noB]
    cases word with
    | cons d word => rw [ih (List.cons_ne_nil d word) plain.tail]
    | nil =>
      cases rest with
      | nil => rfl
      | cons b rest => rw [List.nil_append, stretches_boundary ends]

/-- **A text is a row of boundary characters and of runs**, and no run touches another. -/
@[elab_as_elim]
theorem byStretches {motive : List Char → Prop} (nil : motive [])
    (boundary : ∀ b rest, isBoundary b = true → motive rest → motive (b :: rest))
    (run : ∀ word rest, word ≠ [] → Plain word → bounds rest.head? = true → motive rest →
      motive (word ++ rest)) : ∀ text, motive text
  | [] => nil
  | c :: rest => by
    by_cases isB : isBoundary c = true
    · exact boundary c rest isB (byStretches nil boundary run rest)
    · have split : c :: rest = (c :: rest.takeWhile (!isBoundary ·)) ++
          rest.dropWhile (!isBoundary ·) := by
        rw [List.cons_append, List.takeWhile_append_dropWhile]
      have plain : Plain (c :: rest.takeWhile (!isBoundary ·)) := by
        intro d inWord
        rcases List.mem_cons.mp inWord with rfl | inWord
        · simpa using isB
        · simpa using List.all_eq_true.mp List.all_takeWhile d inWord
      have ends : bounds (rest.dropWhile (!isBoundary ·)).head? = true := by
        have stops := List.head?_dropWhile_not (!isBoundary ·) rest
        cases first : (rest.dropWhile (!isBoundary ·)).head? with
        | none => rfl
        | some d => simpa [first, bounds] using stops
      rw [split]
      exact run _ _ (List.cons_ne_nil c _) plain ends
        (byStretches nil boundary run (rest.dropWhile (!isBoundary ·)))
termination_by text => text.length
decreasing_by
  · exact Nat.lt_succ_self _
  · exact Nat.lt_succ_of_le (List.dropWhile_suffix _).length_le

/-- A text that is cut at a boundary falls into the stretches of its parts. -/
theorem stretches_append {front back : List Char}
    (seam : bounds front.getLast? = true ∨ bounds back.head? = true) :
    stretches (front ++ back) = stretches front ++ stretches back := by
  induction front using byStretches with
  | nil => rfl
  | boundary b rest isB ih =>
    rw [List.cons_append, stretches_boundary isB, stretches_boundary isB, ih, List.cons_append]
    refine seam.imp_left fun ends => ?_
    cases rest with
    | nil => rfl
    | cons c rest => rwa [List.getLast?_cons_cons] at ends
  | run word rest nonempty plain ends ih =>
    have behind : bounds (rest ++ back).head? = true := by
      cases rest with
      | cons c rest => exact ends
      | nil =>
        rw [List.append_nil] at seam
        refine seam.resolve_left fun last => ?_
        rw [List.getLast?_eq_some_getLast nonempty, bounds,
          plain _ (List.getLast_mem nonempty)] at last
        cases last
    rw [List.append_assoc, stretches_run nonempty plain behind,
      stretches_run nonempty plain ends, ih, List.cons_append]
    refine seam.imp_left fun last => ?_
    cases rest with
    | nil => rfl
    | cons c rest => rwa [List.getLast?_append_of_ne_nil _ (List.cons_ne_nil c rest)] at last

/-! ### Runs -/

theorem runs_boundary {b : Char} (isB : isBoundary b = true) (rest : List Char) :
    runs (b :: rest) = runs rest := by
  rw [runs, stretches_boundary isB]
  rfl

theorem runs_run {word rest : List Char} (nonempty : word ≠ []) (plain : Plain word)
    (ends : bounds rest.head? = true) : runs (word ++ rest) = word :: runs rest := by
  rw [runs, stretches_run nonempty plain ends]
  rfl

/-- **The runs of a text are its longest parts without boundary characters.** -/
theorem mem_runs {word text : List Char} :
    word ∈ runs text ↔ word ≠ [] ∧ Plain word ∧ ∃ front back, text = front ++ word ++ back ∧
      bounds front.getLast? = true ∧ bounds back.head? = true := by
  constructor
  · intro isRun
    induction text using byStretches with
    | nil => cases isRun
    | boundary b rest isB ih =>
      rw [runs_boundary isB] at isRun
      obtain ⟨nonempty, plain, front, back, rfl, starts, ends⟩ := ih isRun
      refine ⟨nonempty, plain, b :: front, back, rfl, ?_, ends⟩
      cases front with
      | nil => exact isB
      | cons c front => rwa [List.getLast?_cons_cons]
    | run other rest nonemptyOther plainOther endsOther ih =>
      rw [runs_run nonemptyOther plainOther endsOther] at isRun
      rcases List.mem_cons.mp isRun with rfl | inRest
      · exact ⟨nonemptyOther, plainOther, [], rest, rfl, rfl, endsOther⟩
      · obtain ⟨nonempty, plain, front, back, rfl, starts, ends⟩ := ih inRest
        refine ⟨nonempty, plain, other ++ front, back, by simp, ?_, ends⟩
        cases front with
        | cons c front => rwa [List.getLast?_append_cons]
        | nil =>
          -- The run would touch the one in front of it.
          obtain ⟨c, word, rfl⟩ := List.exists_cons_of_ne_nil nonempty
          rw [List.nil_append, List.cons_append, List.head?_cons, bounds, plain.head] at endsOther
          cases endsOther
  · rintro ⟨nonempty, plain, front, back, rfl, starts, ends⟩
    rw [List.append_assoc, runs, stretches_append (.inl starts),
      stretches_run nonempty plain ends, List.filterMap_append]
    exact List.mem_append_right _ List.mem_cons_self

/-! ### Changing runs -/

section Changes

variable {change : List Char → List Char}

@[simp] theorem mapRuns_nil : mapRuns change [] = [] := rfl

theorem mapRuns_boundary {b : Char} (isB : isBoundary b = true) (rest : List Char) :
    mapRuns change (b :: rest) = b :: mapRuns change rest := by
  rw [mapRuns, stretches_boundary isB]
  rfl

theorem mapRuns_append {front back : List Char}
    (seam : bounds front.getLast? = true ∨ bounds back.head? = true) :
    mapRuns change (front ++ back) = mapRuns change front ++ mapRuns change back := by
  rw [mapRuns, stretches_append seam, List.flatMap_append]
  rfl

theorem mapRuns_run {word rest : List Char} (nonempty : word ≠ []) (plain : Plain word)
    (ends : bounds rest.head? = true) :
    mapRuns change (word ++ rest) = change word ++ mapRuns change rest := by
  rw [mapRuns, stretches_run nonempty plain ends]
  rfl

/-- A word that is a single run. -/
theorem mapRuns_word {word : List Char} (nonempty : word ≠ []) (plain : Plain word) :
    mapRuns change word = change word := by
  have alone : mapRuns change (word ++ []) = change word ++ mapRuns change [] :=
    mapRuns_run nonempty plain rfl
  rwa [List.append_nil, mapRuns_nil, List.append_nil] at alone

/-- A text that starts at a boundary still does when its runs are changed. -/
theorem bounds_mapRuns {text : List Char} (starts : bounds text.head? = true) :
    bounds (mapRuns change text).head? = true := by
  cases text with
  | nil => rfl
  | cons b rest =>
    rw [mapRuns_boundary starts]
    exact starts

/-- Changes that agree on the runs of a text change it alike. -/
theorem mapRuns_congr {other : List Char → List Char} {text : List Char}
    (same : ∀ word ∈ runs text, change word = other word) :
    mapRuns change text = mapRuns other text := by
  induction text using byStretches with
  | nil => rfl
  | boundary b rest isB ih =>
    rw [runs_boundary isB] at same
    rw [mapRuns_boundary isB, mapRuns_boundary isB, ih same]
  | run word rest nonempty plain ends ih =>
    rw [runs_run nonempty plain ends] at same
    rw [mapRuns_run nonempty plain ends, mapRuns_run nonempty plain ends,
      same word List.mem_cons_self, ih fun word inRest => same word (List.mem_cons_of_mem _ inRest)]

/-- A text is its runs and its boundary characters. -/
theorem mapRuns_id (text : List Char) : mapRuns id text = text := by
  induction text using byStretches with
  | nil => rfl
  | boundary b rest isB ih => rw [mapRuns_boundary isB, ih]
  | run word rest nonempty plain ends ih => rw [mapRuns_run nonempty plain ends, ih, id]

/-- A change that leaves the runs of a text as they are leaves the text as it is. -/
theorem mapRuns_same {text : List Char} (same : ∀ word ∈ runs text, change word = word) :
    mapRuns change text = text :=
  (mapRuns_congr same).trans (mapRuns_id text)

/-- **Changing the runs of a text twice is changing them once.** -/
theorem mapRuns_mapRuns (further : List Char → List Char) (text : List Char) :
    mapRuns further (mapRuns change text) =
      mapRuns (fun word => mapRuns further (change word)) text := by
  induction text using byStretches with
  | nil => rfl
  | boundary b rest isB ih =>
    rw [mapRuns_boundary isB, mapRuns_boundary isB, mapRuns_boundary isB, ih]
  | run word rest nonempty plain ends ih =>
    rw [mapRuns_run nonempty plain ends, mapRuns_run nonempty plain ends,
      mapRuns_append (.inr (bounds_mapRuns ends)), ih]

end Changes

/-! ### Free-standing words -/

section Words

variable {word : List Char} (replacement : List Char) (nonempty : word ≠ []) (plain : Plain word)

theorem standsFree_within {before : Option Char} (within : bounds before = false)
    (text : List Char) : standsFree word before text = false := by
  simp [standsFree, within]

include plain in
/-- At the start of a run, exactly the word that is the run stands free. -/
theorem standsFree_run {run rest : List Char} (plainRun : Plain run)
    (ends : bounds rest.head? = true) {before : Option Char} (starts : bounds before = true) :
    standsFree word before (run ++ rest) = true ↔ run = word := by
  rw [standsFree, starts, Bool.and_true, Bool.and_eq_true, List.isPrefixOf_iff_prefix]
  constructor
  · rintro ⟨⟨behind, same⟩, closed⟩
    rw [← same, List.drop_left] at closed
    rcases List.append_eq_append_iff.mp same with ⟨more, rfl, rfl⟩ | ⟨more, rfl, rfl⟩
    · cases more with
      | nil => exact List.append_nil _
      | cons c more =>
        have inRun := plainRun c (by simp)
        rw [List.cons_append, List.head?_cons, bounds, inRun] at closed
        cases closed
    · cases more with
      | nil => exact (List.append_nil _).symm
      | cons c more =>
        have inWord := plain c (by simp)
        rw [List.cons_append, List.head?_cons, bounds, inWord] at ends
        cases ends
  · rintro rfl
    rw [List.drop_left]
    exact ⟨List.prefix_append _ _, ends⟩

include nonempty plain

/-- A word that is a run does not start with a boundary character. -/
theorem standsFree_boundary {b : Char} (isB : isBoundary b = true) (before : Option Char)
    (rest : List Char) : standsFree word before (b :: rest) = false := by
  obtain ⟨c, word, rfl⟩ := List.exists_cons_of_ne_nil nonempty
  have differ : (c == b) = false := by
    rw [beq_eq_false_iff_ne]
    rintro rfl
    rw [plain.head] at isB
    cases isB
  simp [standsFree, List.isPrefixOf, differ]

theorem replaceFrom_boundary {b : Char} (isB : isBoundary b = true) (before : Option Char)
    (rest : List Char) : replaceFrom word replacement 0 before (b :: rest) =
      b :: replaceFrom word replacement 0 none rest := by
  rw [replaceFrom, standsFree_boundary nonempty plain isB, if_neg Bool.false_ne_true]
  cases rest with
  | nil => rfl
  | cons c rest =>
    have same : bounds (Option.some b) = bounds none := isB
    have free : standsFree word (.some b) (c :: rest) = standsFree word none (c :: rest) := by
      simp only [standsFree, same]
    rw [replaceFrom, replaceFrom, free]

/-- What is in front of a text that starts at a boundary does not count. -/
theorem replaceFrom_seam {rest : List Char} (ends : bounds rest.head? = true)
    (before : Option Char) :
    replaceFrom word replacement 0 before rest = replaceFrom word replacement 0 none rest := by
  cases rest with
  | nil => rfl
  | cons b rest =>
    rw [replaceFrom_boundary replacement nonempty plain ends,
      replaceFrom_boundary replacement nonempty plain ends]

/-- The characters of a word that has been replaced are skipped. -/
theorem replaceFrom_skip (skipped : List Char) {rest : List Char}
    (ends : bounds rest.head? = true) (before : Option Char) :
    replaceFrom word replacement skipped.length before (skipped ++ rest) =
      replaceFrom word replacement 0 none rest := by
  induction skipped generalizing before with
  | nil => exact replaceFrom_seam replacement nonempty plain ends before
  | cons c skipped ih => exact ih (.some c)

/-- The characters of a run are copied from its second one on. -/
theorem replaceFrom_within {kept rest : List Char} (plainKept : Plain kept)
    (ends : bounds rest.head? = true) {before : Option Char} (within : bounds before = false) :
    replaceFrom word replacement 0 before (kept ++ rest) =
      kept ++ replaceFrom word replacement 0 none rest := by
  induction kept generalizing before with
  | nil => exact replaceFrom_seam replacement nonempty plain ends before
  | cons c kept ih =>
    have inside : bounds (Option.some c) = false := plainKept.head
    rw [List.cons_append, replaceFrom, standsFree_within within, if_neg Bool.false_ne_true,
      ih plainKept.tail inside, List.cons_append]

omit nonempty in
/-- **Replacing a word where it stands free changes the runs that are the word**, and leaves
everything else as it is. -/
theorem replaceFree_eq_mapRuns (text : List Char) :
    replaceFree word replacement text =
      mapRuns (fun run => if run = word then replacement else run) text := by
  rw [replaceFree]
  split
  · next empty =>
    rw [List.isEmpty_iff] at empty
    subst empty
    refine (mapRuns_same fun run isRun => ?_).symm
    rw [if_neg (mem_runs.mp isRun).1]
  · next given =>
    have nonempty : word ≠ [] := by simpa using given
    induction text using byStretches with
    | nil => rfl
    | boundary b rest isB ih =>
      rw [replaceFrom_boundary replacement nonempty plain isB, mapRuns_boundary isB, ih]
    | run run rest nonemptyRun plainRun ends ih =>
      rw [mapRuns_run nonemptyRun plainRun ends, ← ih]
      have free : standsFree word none (run ++ rest) = true ↔ run = word :=
        standsFree_run plain plainRun ends rfl
      obtain ⟨c, kept, rfl⟩ := List.exists_cons_of_ne_nil nonemptyRun
      rw [List.cons_append] at free ⊢
      rw [replaceFrom]
      by_cases same : c :: kept = word
      · have skipped : word.length - 1 = kept.length := by rw [← same]; rfl
        rw [if_pos (free.mpr same), if_pos same, skipped,
          replaceFrom_skip replacement nonempty plain kept ends]
      · have inside : bounds (Option.some c) = false := plainRun.head
        rw [if_neg (free.not.mpr same), if_neg same,
          replaceFrom_within replacement nonempty plain plainRun.tail ends inside,
          List.cons_append]

end Words

end Formulary.Text
