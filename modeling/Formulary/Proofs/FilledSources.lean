/-
Sources with the name of the arguments filled in.

Whatever name the arguments have, a function string leads to the same source but for it: the source
is a row of cells that the name is filled into, and the row itself does not have the name, if the
function string does not.

* `declared_of_declare` — what a declaration is made of occurs in the function string.
* `exists_substituted` — a body after substitution is a filled row.
* `ofText_fill` — the request of a function string.
-/

import Formulary.Proofs.Slots

namespace Formulary

/-! ### Parts of texts -/

namespace Text

theorem cut?_eq_some {mark text front back : List Char} (h : cut? mark text = some (front, back)) :
    text = front ++ (mark ++ back) := by
  induction text generalizing front with
  | nil =>
    cases mark with
    | nil =>
      cases h
      rfl
    | cons c mark => cases h
  | cons c text ih =>
    rw [cut?] at h
    split at h
    · next begins =>
      obtain ⟨later, same⟩ := List.isPrefixOf_iff_prefix.mp begins
      rw [← same, List.drop_left] at h
      cases h
      exact same.symm
    · obtain ⟨⟨front', back'⟩, found, same⟩ := Option.map_eq_some_iff.mp h
      cases same
      rw [List.cons_append, ← ih found]

theorem cut?_front {c : Char} {text front back : List Char}
    (h : cut? [c] text = some (front, back)) : c ∉ front := by
  induction text generalizing front with
  | nil => cases h
  | cons d text ih =>
    rw [cut?] at h
    split at h
    · cases h
      exact List.not_mem_nil
    · next differs =>
      obtain ⟨⟨front', back'⟩, found, same⟩ := Option.map_eq_some_iff.mp h
      cases same
      rw [List.mem_cons, not_or]
      refine ⟨?_, ih found⟩
      rintro rfl
      simp [List.isPrefixOf] at differs

theorem pieces_infix (separator : Char) (text : List Char) :
    ∀ piece ∈ pieces separator text, piece <:+: text := by
  -- The first piece is one that the text begins with.
  have parts : (∃ first others, pieces separator text = first :: others ∧ first <+: text) ∧
      ∀ piece ∈ pieces separator text, piece <:+: text := by
    induction text with
    | nil => exact ⟨⟨[], [], rfl, List.nil_prefix⟩, List.forall_mem_singleton.mpr List.nil_infix⟩
    | cons c text ih =>
      obtain ⟨⟨first, others, same, begins⟩, each⟩ := ih
      have later : ∀ piece ∈ pieces separator text, piece <:+: c :: text :=
        fun piece isIn => (each piece isIn).trans (List.suffix_cons c text).isInfix
      rw [pieces]
      split
      · exact ⟨⟨[], _, rfl, List.nil_prefix⟩, List.forall_mem_cons.mpr ⟨List.nil_infix, later⟩⟩
      · rw [same] at later ⊢
        have longer : c :: first <+: c :: text := (List.cons_prefix_cons).mpr ⟨rfl, begins⟩
        exact ⟨⟨_, others, rfl, longer⟩, List.forall_mem_cons.mpr
          ⟨longer.isInfix, (List.forall_mem_cons.mp later).2⟩⟩
  exact parts.2

theorem stripEnd_begins (text : List Char) : stripEnd text <+: text := by
  induction text with
  | nil => exact List.nil_prefix
  | cons c text ih =>
    rw [stripEnd]
    split
    · split
      · exact List.nil_prefix
      · exact (List.cons_prefix_cons).mpr ⟨rfl, List.nil_prefix⟩
    · exact (List.cons_prefix_cons).mpr ⟨rfl, ih⟩

theorem strip_infix (text : List Char) : strip text <:+: text :=
  (stripEnd_begins _).isInfix.trans (List.dropWhile_suffix _).isInfix

/-- The words of a text, the stretch under way in front: they occur, have characters and no
blanks. -/
theorem wordsAfter_spec {current text : List Char} (solid : ∀ c ∈ current, isBlank c = false) :
    ∀ word ∈ wordsAfter current text,
      word <:+: current ++ text ∧ word ≠ [] ∧ ∀ c ∈ word, isBlank c = false := by
  induction text generalizing current with
  | nil =>
    rw [wordsAfter, List.append_nil]
    split
    · exact List.forall_mem_nil _
    · next some => exact List.forall_mem_singleton.mpr ⟨List.infix_rfl, by simpa using some, solid⟩
  | cons c text ih =>
    have later : ∀ word ∈ wordsAfter [] text,
        word <:+: current ++ c :: text ∧ word ≠ [] ∧ ∀ c ∈ word, isBlank c = false := by
      intro word isIn
      obtain ⟨occurs, rest⟩ := ih (List.forall_mem_nil _) word isIn
      refine ⟨occurs.trans ?_, rest⟩
      rw [List.nil_append, List.append_cons]
      exact (List.suffix_append _ _).isInfix
    rw [wordsAfter]
    split
    · split
      · exact later
      · next some =>
        exact List.forall_mem_cons.mpr
          ⟨⟨(List.prefix_append _ _).isInfix, by simpa using some, solid⟩, later⟩
    · next noBlank =>
      have longer : ∀ d ∈ current ++ [c], isBlank d = false := by
        rw [List.forall_mem_append, List.forall_mem_singleton]
        exact ⟨solid, by simpa using noBlank⟩
      have found := ih longer
      rwa [List.append_assoc, List.singleton_append] at found

theorem words_spec (text : List Char) :
    ∀ word ∈ words text, word <:+: text ∧ word ≠ [] ∧ ∀ c ∈ word, isBlank c = false :=
  wordsAfter_spec (List.forall_mem_nil _)

/-- A text that blanks have been dropped from has words, if it has anything. -/
theorem words_strip {text : List Char} (some : strip text ≠ []) : words (strip text) ≠ [] := by
  have goesOn (current rest : List Char) (some : current ≠ []) : wordsAfter current rest ≠ [] := by
    induction rest generalizing current with
    | nil => simp [wordsAfter, some]
    | cons c rest ih =>
      rw [wordsAfter]
      split
      · simp [some]
      · exact ih _ (by simp)
  unfold strip at some ⊢
  cases kept : text.dropWhile isBlank with
  | nil => exact absurd (congrArg stripEnd kept) some
  | cons c rest =>
    have noBlank : isBlank c = false := by
      have first := List.head_dropWhile_not isBlank (l := text) (by simp [kept])
      simpa [kept] using first
    obtain ⟨rest', same⟩ : ∃ rest', stripEnd (c :: rest) = c :: rest' := by
      rw [stripEnd]
      split
      · exact ⟨[], by simp [noBlank]⟩
      · exact ⟨_, rfl⟩
    rw [same, words, wordsAfter, noBlank]
    exact goesOn [c] rest' (List.cons_ne_nil c [])

end Text

/-! ### Declarations -/

open Slots (IsArgsName Sought Cell fill plain Replaces)

/-- A declaration that is made of parts of a text, with a name that a pass can look for. -/
structure Declaration.PartOf (text : List Char) (declaration : Declaration) : Prop where
  sought : Sought declaration.name
  name : declaration.name <:+: text
  typeName : declaration.typeName <:+: text

namespace Signature

theorem declareFrom_parts {list : List Char} (noParen : ')' ∉ list)
    {tokens : List (List Char)}
    (each : ∀ token ∈ tokens, Text.words token ≠ [] ∧ token <:+: list) {type? : Option (List Char)}
    (typed : ∀ type ∈ type?, type <:+: list) {index : Nat} {declarations : List Declaration}
    (h : declareFrom type? index tokens = .ok declarations) :
    ∀ declaration ∈ declarations, declaration.PartOf list := by
  induction tokens generalizing type? index declarations with
  | nil =>
    cases h
    exact List.forall_mem_nil _
  | cons token tokens ih =>
    obtain ⟨⟨someWord, occurs⟩, others⟩ := List.forall_mem_cons.mp each
    have worded : wordsOf token = Text.words token := by
      unfold wordsOf
      split
      · next none => exact absurd none someWord
      · rfl
    have isPart {word : List Char} (isIn : word ∈ wordsOf token) :
        Sought word ∧ word <:+: list := by
      rw [worded] at isIn
      obtain ⟨inToken, some, solid⟩ := Text.words_spec token word isIn
      have inList := inToken.trans occurs
      exact ⟨⟨some, fun isIn => noParen (inList.subset isIn), fun isIn => by
        have blank := solid ' ' isIn
        revert blank
        decide⟩, inList⟩
    have declared {rest : Except SignatureError (List Declaration)} {first : Declaration}
        (isFirst : first.PartOf list) (later : ∀ more, rest = .ok more →
          ∀ declaration ∈ more, declaration.PartOf list)
        (h : rest.map (first :: ·) = .ok declarations) :
        ∀ declaration ∈ declarations, declaration.PartOf list := by
      cases rest with
      | error e => cases h
      | ok more =>
        cases h
        exact List.forall_mem_cons.mpr ⟨isFirst, later more rfl⟩
    rw [declareFrom] at h
    split at h
    · next name isName =>
      obtain ⟨sought, inList⟩ := isPart (isName ▸ List.mem_singleton_self name)
      split at h
      · cases h
      · next type =>
        exact declared ⟨sought, inList, typed type rfl⟩ (fun _ => ih others typed) h
    · next type name isBoth =>
      have isType := isPart (isBoth ▸ List.mem_cons_self)
      obtain ⟨sought, inList⟩ := isPart (isBoth ▸ List.mem_cons_of_mem type List.mem_cons_self)
      refine declared ⟨sought, inList, isType.2⟩ (fun _ => ih others ?_) h
      rintro _ ⟨⟩
      exact isType.2
    · cases h

/-- The parts of a function string. -/
structure SplitFrom (text : List Char) (signature : Signature) : Prop where
  returnType : signature.returnType <:+: text ∨ signature.returnType = defaultReturnType
  body : signature.body <:+: text
  declared : ∀ declarations, declare signature.parameters = .ok declarations →
    ∀ declaration ∈ declarations, declaration.PartOf text

theorem declare_parts {list text : List Char} (noParen : ')' ∉ list) {tokens : List (List Char)}
    (h : parametersOf list text = .ok tokens) {declarations : List Declaration}
    (declared : declare tokens = .ok declarations) :
    ∀ declaration ∈ declarations, declaration.PartOf list := by
  unfold parametersOf at h
  split at h
  · cases h
    -- The empty parameter has no type.
    cases declared
  · dsimp only at h
    split at h
    · cases h
    · next someEach =>
      cases h
      refine declareFrom_parts noParen (fun token isIn => ?_) (by simp) declared
      obtain ⟨piece, isPiece, rfl⟩ := List.mem_map.mp isIn
      have some : Text.strip piece ≠ [] := by
        intro none
        exact someEach (List.any_eq_true.mpr ⟨_, isIn, by simp [none]⟩)
      exact ⟨Text.words_strip some,
        (Text.strip_infix piece).trans (Text.pieces_infix _ _ piece isPiece)⟩

theorem split_parts {text : List Char} {signature : Signature} (h : split text = .ok signature) :
    SplitFrom text signature := by
  unfold split at h
  split at h
  · cases h
  · next front afterOpen opened =>
    split at h
    · cases h
    · next list afterClose closed =>
      split at h
      · cases h
      · split at h
        · cases h
        · next between body pointed =>
          split at h
          · cases h
          · next parameters listed =>
            cases h
            have first := Text.cut?_eq_some opened
            have second := Text.cut?_eq_some closed
            have third := Text.cut?_eq_some pointed
            have inFront : front <:+: text := first ▸ (List.prefix_append _ _).isInfix
            have inRest : afterOpen <:+: text := by
              rw [first, ← List.append_assoc]
              exact (List.suffix_append _ _).isInfix
            have inList : list <:+: text :=
              List.IsInfix.trans (second ▸ (List.prefix_append _ _).isInfix) inRest
            have inBody : body <:+: text := by
              refine List.IsInfix.trans ?_ inRest
              rw [second, third, ← List.append_assoc, ← List.append_assoc, ← List.append_assoc]
              exact (List.suffix_append _ _).isInfix
            refine ⟨?_, inBody, fun declarations declared declaration isIn => ?_⟩
            · change returnTypeOf front <:+: text ∨ returnTypeOf front = defaultReturnType
              unfold returnTypeOf
              split
              · exact .inr rfl
              · exact .inl ((Text.strip_infix front).trans inFront)
            · have parts := declare_parts (Text.cut?_front closed) listed declared declaration isIn
              exact ⟨parts.sought, parts.name.trans inList, parts.typeName.trans inList⟩

end Signature

/-! ### Accesses -/

namespace Slots

open Substitution (access slotText unboxing substitute)

theorem IsArgsName.letter {name : List Char} (isArgs : IsArgsName name) : 'o' ∈ name := by
  obtain ⟨digits, -, -, rfl⟩ := isArgs.spelled
  exact List.mem_cons_self

theorem IsArgsName.digit {name : List Char} (isArgs : IsArgsName name) :
    ∃ d ∈ name, d.isDigit = true := by
  obtain ⟨digits, some, isDigit, rfl⟩ := isArgs.spelled
  obtain ⟨d, others, rfl⟩ := List.exists_cons_of_ne_nil some
  exact ⟨d, List.mem_cons_of_mem _ List.mem_cons_self, isDigit d List.mem_cons_self⟩

/-- A text without digits does not have the name of the arguments. -/
theorem IsArgsName.absent {name text : List Char} (isArgs : IsArgsName name)
    (noDigit : text.any Char.isDigit = false) : ¬name <:+: text := by
  intro occurs
  obtain ⟨d, isIn, isDigit⟩ := isArgs.digit
  exact List.any_eq_false.mp noDigit d (occurs.subset isIn) isDigit

/-- The row that an access fills. -/
def accessCells (table : TypeTable) (declaration : Declaration) : List Cell :=
  let digits := Nat.toDigits 10 declaration.index
  match table.primitiveName? declaration.typeName with
  | some primitive =>
    plain ('(' :: '(' :: '(' :: declaration.typeName) ++
      .slot :: plain (digits ++ ']' :: ')' :: '.' :: (unboxing primitive ++ ['(', ')', ')']))
  | none => plain ('(' :: '(' :: declaration.typeName) ++ .slot :: plain (digits ++ [']', ')'])

variable {table : TypeTable} {declaration : Declaration}

theorem fill_access (name : List Char) :
    fill name (accessCells table declaration) = access table name declaration := by
  unfold accessCells
  split
  · next primitive boxed =>
    rw [Substitution.access_boxed boxed, fill_append, fill_slot, fill_plain, fill_plain]
    simp [slotText]
  · next other =>
    rw [Substitution.access_plain other, fill_append, fill_slot, fill_plain, fill_plain]
    simp [slotText]

theorem access_enclosed (table : TypeTable) (declaration : Declaration) :
    ∃ inner, accessCells table declaration = .char '(' :: (inner ++ [.char ')']) := by
  have enclosed (front back : List Char) : ∃ inner,
      plain ('(' :: front) ++ .slot :: plain (back ++ [')']) =
        .char '(' :: (inner ++ [.char ')']) :=
    ⟨plain front ++ .slot :: plain back, by simp⟩
  unfold accessCells
  split
  · next primitive boxed =>
    obtain ⟨inner, same⟩ := enclosed ('(' :: '(' :: declaration.typeName)
      (Nat.toDigits 10 declaration.index ++
        ']' :: ')' :: '.' :: (unboxing primitive ++ ['(', ')']))
    exact ⟨inner, by rw [← same]; simp⟩
  · obtain ⟨inner, same⟩ := enclosed ('(' :: declaration.typeName)
      (Nat.toDigits 10 declaration.index ++ [']'])
    exact ⟨inner, by rw [← same]; simp⟩

/-- A table whose primitives have no digits in their names. -/
def Undigited (table : TypeTable) : Prop :=
  ∀ pair ∈ table.pairs, pair.1.any Char.isDigit = false

theorem undigited_standard : Undigited .standard := by
  unfold Undigited
  decide

/-- An access has no name of the arguments but in its slot. -/
theorem access_absent (undigited : Undigited table) {name text : List Char}
    (isArgs : IsArgsName name) (absent : ¬name <:+: text) (typed : declaration.typeName <:+: text) :
    ¬plain name <:+: accessCells table declaration := by
  have noParen : '(' ∉ name := isArgs.not_mem (by decide) (by decide)
  have noBracket : ']' ∉ name := isArgs.not_mem (by decide) (by decide)
  have inType (parens : List Char) (each : ∀ c ∈ parens, c = '(') :
      ¬plain name <:+: plain (parens ++ declaration.typeName) := by
    intro occurs
    refine absent (List.IsInfix.trans (infix_behind (fun c isIn => ?_) (plain_infix_plain occurs))
      typed)
    rwa [each c isIn]
  -- Behind the slot, its index has no letter, and what follows that has no digit.
  have behind (back : List Char) (noDigit : back.any Char.isDigit = false) :
      ¬plain name <:+: plain (Nat.toDigits 10 declaration.index ++ ']' :: back) := by
    intro occurs
    rcases infix_apart noBracket (plain_infix_plain occurs) with inIndex | inBack
    · have digit := Nat.isDigit_of_mem_toDigits (by decide) (by decide)
        (inIndex.subset isArgs.letter)
      revert digit
      decide
    · exact isArgs.absent noDigit inBack
  unfold accessCells
  split
  · next primitive boxed =>
    intro occurs
    have solid : primitive.any Char.isDigit = false :=
      undigited _ (Substitution.primitiveName_mem boxed)
    rcases infix_apart (slot_not_mem_plain name) occurs with front | back
    · exact inType ['(', '(', '('] (by simp) front
    · refine behind _ ?_ back
      rw [unboxing, List.any_cons, List.any_cons, List.any_append, List.any_append, solid]
      rfl
  · intro occurs
    rcases infix_apart (slot_not_mem_plain name) occurs with front | back
    · exact inType ['(', '('] (by simp) front
    · exact behind [')'] rfl back

/-! ### Bodies and sources -/

/-- **A body after substitution is a filled row**, whatever the name of the arguments, and the
row does not have the name. -/
theorem exists_substituted (undigited : Undigited table) {text : List Char}
    {declarations : List Declaration} (parts : ∀ part ∈ declarations, part.PartOf text)
    (cells : List Cell) : ∃ written, ∀ name, IsArgsName name → ¬name <:+: text →
      ¬plain name <:+: cells →
        substitute table name declarations (fill name cells) = fill name written ∧
          ¬plain name <:+: written := by
  induction declarations generalizing cells with
  | nil => exact ⟨cells, fun name _ _ outside => ⟨rfl, outside⟩⟩
  | cons declaration rest ih =>
    obtain ⟨isPart, others⟩ := List.forall_mem_cons.mp parts
    obtain ⟨replaced, pass⟩ := Replaces.exists_replaced isPart.sought
      (accessCells table declaration) none cells
    obtain ⟨written, later⟩ := ih others replaced
    refine ⟨written, fun name isArgs absent outside => ?_⟩
    have outsideWord : ¬name <:+: declaration.name :=
      fun occurs => absent (occurs.trans isPart.name)
    have first : Text.replaceFree declaration.name (access table name declaration)
        (fill name cells) = fill name replaced := by
      have nonempty : declaration.name.isEmpty = false :=
        List.isEmpty_eq_false_iff.mpr isPart.sought.some
      rw [Text.replaceFree, nonempty, ← fill_access]
      exact pass.fill_eq isPart.sought isArgs outsideWord
    have stillOutside : ¬plain name <:+: replaced := by
      intro occurs
      obtain ⟨inner, enclosed⟩ := access_enclosed table declaration
      rcases pass.infix_of_infix enclosed isArgs.some (isArgs.not_mem (by decide) (by decide))
        (isArgs.not_mem (by decide) (by decide)) occurs with before | put
      · exact outside before
      · exact access_absent undigited isArgs absent isPart.typeName put
    rw [substitute, List.foldl_cons, first]
    exact later name isArgs absent stillOutside

open Source (returnWord)

theorem sought_returnWord : Sought returnWord := ⟨by decide, by decide, by decide⟩

/-- **The finished source is a filled row.** -/
theorem exists_finished {returnType text : List Char} (cells : List Cell)
    (typed : returnType <:+: text ∨ returnType = Signature.defaultReturnType) :
    ∃ finished, ∀ name, IsArgsName name → ¬name <:+: text → ¬plain name <:+: cells →
      (Source.ofBody (fill name cells) returnType).text = fill name finished ∧
        ¬plain name <:+: finished := by
  have undigited : returnWord.any Char.isDigit = false := rfl
  have sample : IsArgsName (argsAt 0) := ⟨0, rfl⟩
  -- Any name tells whether the word stands free.
  have told {name : List Char} (isArgs : IsArgsName name) :=
    containsFree_fill sought_returnWord isArgs (isArgs.absent undigited) sample
      (sample.absent undigited) cells
  by_cases returns : Text.containsFree returnWord (fill (argsAt 0) cells) = true
  · refine ⟨cells, fun name isArgs _ outside => ?_⟩
    rw [Source.ofBody, told isArgs, if_pos returns]
    exact ⟨rfl, outside⟩
  · refine ⟨plain ("return (".toList ++ returnType) ++ .char ')' ::
      (.char '(' :: (cells ++ .char ')' :: plain [';'])), fun name isArgs absent outside => ?_⟩
    have noClose : Cell.char ')' ∉ plain name :=
      char_not_mem_plain (isArgs.not_mem (by decide) (by decide))
    have noOpen : '(' ∉ name := isArgs.not_mem (by decide) (by decide)
    constructor
    · rw [Source.ofBody, told isArgs, if_neg returns]
      simp only [fill_append, fill_char, fill_plain]
      simp
    · intro occurs
      rcases infix_apart noClose occurs with front | rest
      · have inFront := plain_infix_plain front
        have split : "return (".toList ++ returnType =
            returnWord ++ [' '] ++ '(' :: returnType := by
          simp [returnWord]
        rw [split] at inFront
        rcases infix_apart noOpen inFront with word | type
        · exact isArgs.absent rfl word
        · rcases typed with inText | rfl
          · exact absent (type.trans inText)
          · exact isArgs.absent rfl type
      · have apart : ∀ cell ∈ [Cell.char '('], cell ∉ plain name := by
          simpa using char_not_mem_plain noOpen
        have behind := infix_behind apart rest
        rcases infix_apart noClose behind with inBody | last
        · exact outside inBody
        · exact isArgs.absent rfl (plain_infix_plain last)

/-- **The request of a function string** is the same whatever the name of the arguments, but for
the name, which its source is a row filled with. -/
theorem ofText_fill (text : List Char) :
    (∃ error, ∀ name, CompileRequest.ofText .standard name text = .error error) ∨
    ∃ returnType bindings cells, ∀ name, IsArgsName name → ¬name <:+: text →
      CompileRequest.ofText .standard name text = .ok
        ⟨fill name cells, returnType, .ofReturnType .standard returnType, bindings, text, name⟩ ∧
      ¬plain name <:+: cells := by
  cases split : Signature.split text with
  | error e => exact .inl ⟨e, fun name => by rw [CompileRequest.ofText, split]; rfl⟩
  | ok signature =>
    cases declared : Signature.declare signature.parameters with
    | error e =>
      refine .inl ⟨e, fun name => ?_⟩
      rw [CompileRequest.ofText, split]
      change (Signature.declare signature.parameters >>= _) = _
      rw [declared]
      rfl
    | ok declarations =>
      have parts := Signature.split_parts split
      obtain ⟨written, body⟩ := exists_substituted undigited_standard
        (parts.declared declarations declared) (plain signature.body)
      obtain ⟨finished, source⟩ := exists_finished written parts.returnType
      refine .inr ⟨signature.returnType, Signature.bind declarations, finished,
        fun name isArgs absent => ?_⟩
      have outside : ¬plain name <:+: plain signature.body :=
        fun occurs => absent ((plain_infix_plain occurs).trans parts.body)
      obtain ⟨isBody, outside⟩ := body name isArgs absent outside
      obtain ⟨isSource, outside⟩ := source name isArgs absent outside
      rw [fill_plain] at isBody
      refine ⟨?_, outside⟩
      rw [CompileRequest.ofText, split]
      change (Signature.declare signature.parameters >>= _) = _
      rw [declared, ← isSource, ← isBody]
      rfl

end Slots

end Formulary
