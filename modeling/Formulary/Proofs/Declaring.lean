/-
Declaring parameters, and binding their names.

A parameter of two words has a type of its own, and a bare name takes the type of the nearest
parameter before it that has one. So only the first parameter can be without a type; a parameter of
three words or more is refused anywhere. A name that is declared again keeps its first declaration.

* `Offends`, `FirstOffence` — the parameters that are refused, and which of them is reported.
* `IsDeclared` — the declaration of a parameter at its place.
* `declareFrom_exact` — the parameters behind those that have been declared already.
* `declare_error_iff`, `exists_declare` — when parameters are refused, and what is declared.
* `mem_bindFresh`, `bindFresh_ordered` — the declarations that are kept, and their order.
* `declare_bind_exact` — declaring and binding as a whole.
-/

import Formulary.Proofs.Substitution

namespace Formulary.Signature

/-! ### Parameters that are refused -/

/-- What is wrong with a parameter at a place. -/
inductive Offends : Nat → List Char → SignatureError → Prop
  | untyped {token : List Char} (few : (Text.words token).length < 2) :
    Offends 0 token (.missingType token)
  | crowded {place : Nat} {token : List Char} (many : 2 < (Text.words token).length) :
    Offends place token (.tooManyWords token)

/-- What is wrong with the parameter at a place of a list. -/
def OffendsAt (tokens : List (List Char)) (place : Nat) (error : SignatureError) : Prop :=
  ∃ token, tokens[place]? = some token ∧ Offends place token error

/-- The error of the first parameter that is refused. -/
def FirstOffence (tokens : List (List Char)) (error : SignatureError) : Prop :=
  ∃ place, OffendsAt tokens place error ∧
    ∀ earlier < place, ∀ other, ¬OffendsAt tokens earlier other

theorem Offends.unique {place : Nat} {token : List Char} {error other : SignatureError}
    (offends : Offends place token error) (offendsToo : Offends place token other) :
    error = other := by
  cases offends with
  | untyped few =>
    cases offendsToo with
    | untyped => rfl
    | crowded many => omega
  | crowded many =>
    cases offendsToo with
    | untyped few => omega
    | crowded => rfl

theorem FirstOffence.unique {tokens : List (List Char)} {error other : SignatureError}
    (first : FirstOffence tokens error) (firstToo : FirstOffence tokens other) :
    error = other := by
  obtain ⟨place, ⟨token, isToken, offends⟩, none⟩ := first
  obtain ⟨place', ⟨token', isToken', offends'⟩, none'⟩ := firstToo
  rcases lt_trichotomy place place' with before | rfl | behind
  · exact absurd ⟨token, isToken, offends⟩ (none' place before error)
  · cases isToken.symm.trans isToken'
    exact offends.unique offends'
  · exact absurd ⟨token', isToken', offends'⟩ (none place' behind other)

/-! ### Declarations -/

/-- The last word of a parameter; a parameter without words is its own name. -/
def lastWord (token : List Char) : List Char :=
  (Text.words token).getLastD token

/-- The first word of the nearest parameter of two words among so many at the front of a list. -/
def NearestType (tokens : List (List Char)) (count : Nat) (typeName : List Char) : Prop :=
  ∃ origin < count, (∃ token name, tokens[origin]? = some token ∧
      Text.words token = [typeName, name]) ∧
    ∀ between, origin < between → between < count →
      ∀ token, tokens[between]? = some token → (Text.words token).length ≠ 2

/-- The declaration of the parameter at a place: the place is its index, the last word its name,
and its type is the one of the nearest parameter, at the place or before it, that has two words. -/
structure IsDeclared (tokens : List (List Char)) (place : Nat) (declaration : Declaration) :
    Prop where
  index : declaration.index = place
  name : ∃ token, tokens[place]? = some token ∧ declaration.name = lastWord token
  typeName : NearestType tokens (place + 1) declaration.typeName

/-- The words of a parameter by their number. -/
theorem wordsOf_cases (token : List Char) :
    ((Text.words token).length < 2 ∧ wordsOf token = [lastWord token]) ∨
      (∃ typeName, Text.words token = [typeName, lastWord token] ∧
        wordsOf token = [typeName, lastWord token]) ∨
      (2 < (Text.words token).length ∧
        ∃ first second third more, wordsOf token = first :: second :: third :: more) := by
  rw [wordsOf, lastWord]
  split
  · next none =>
    rw [none]
    exact .inl ⟨by decide, rfl⟩
  · next some =>
    cases isWords : Text.words token with
    | nil => exact absurd isWords some
    | cons first more =>
      cases more with
      | nil => exact .inl ⟨by simp, rfl⟩
      | cons second more =>
        cases more with
        | nil => exact .inr (.inl ⟨first, rfl, rfl⟩)
        | cons third more => exact .inr (.inr ⟨by simp, first, second, third, more, rfl⟩)

/-- The type that is handed on behind so many parameters: none at the front of a list. -/
def Carried (tokens : List (List Char)) (count : Nat) : Option (List Char) → Prop
  | none => count = 0
  | some typeName => NearestType tokens count typeName

/-- A bare name hands on the type that it takes. -/
theorem NearestType.bare {tokens : List (List Char)} {count : Nat} {typeName token : List Char}
    (nearest : NearestType tokens count typeName) (here : tokens[count]? = some token)
    (few : (Text.words token).length < 2) : NearestType tokens (count + 1) typeName := by
  obtain ⟨origin, before, isTyped, untyped⟩ := nearest
  refine ⟨origin, by omega, isTyped, fun between after inside other isOther => ?_⟩
  by_cases last : between = count
  · subst last
    cases here.symm.trans isOther
    omega
  · exact untyped between after (by omega) other isOther

/-- A parameter of two words hands on its own type. -/
theorem nearestType_own {tokens : List (List Char)} {count : Nat} {typeName token name : List Char}
    (here : tokens[count]? = some token) (typed : Text.words token = [typeName, name]) :
    NearestType tokens (count + 1) typeName :=
  ⟨count, Nat.lt_succ_self count, ⟨token, name, here, typed⟩, fun _ _ _ => by omega⟩

/-- How declaring ends for the parameters from a place on: with the error of the first of them that
is refused, or with a declaration for each. -/
inductive Ends (tokens : List (List Char)) (start : Nat) :
    Except SignatureError (List Declaration) → Prop
  | refused {error : SignatureError} (place : Nat) (reached : start ≤ place)
    (offends : OffendsAt tokens place error)
    (first : ∀ earlier, start ≤ earlier → earlier < place → ∀ other,
      ¬OffendsAt tokens earlier other) : Ends tokens start (.error error)
  | declared {declarations : List Declaration}
    (none : ∀ place, start ≤ place → ∀ error, ¬OffendsAt tokens place error)
    (each : start + declarations.length = tokens.length)
    (isDeclared : ∀ (i : Nat) (declaration : Declaration), declarations[i]? = some declaration →
      IsDeclared tokens (start + i) declaration) : Ends tokens start (.ok declarations)

/-- A parameter in front of those that are declared behind it. -/
theorem Ends.cons {tokens : List (List Char)} {start : Nat} {declaration : Declaration}
    {result : Except SignatureError (List Declaration)}
    (fits : ∀ error, ¬OffendsAt tokens start error) (here : IsDeclared tokens start declaration)
    (later : Ends tokens (start + 1) result) :
    Ends tokens start (result.map (declaration :: ·)) := by
  have fitsTo {place : Nat} (atLeast : start ≤ place) (later : start + 1 ≤ place →
      ∀ error, ¬OffendsAt tokens place error) : ∀ error, ¬OffendsAt tokens place error := by
    rcases Nat.eq_or_lt_of_le atLeast with rfl | after
    · exact fits
    · exact later after
  cases later with
  | refused place reached offends first =>
    refine .refused place (by omega) offends fun earlier atLeast before => ?_
    exact fitsTo atLeast fun after => first earlier after before
  | declared none each isDeclared =>
    refine .declared (fun place atLeast => fitsTo atLeast (none place)) ?_ ?_
    · rw [List.length_cons]
      omega
    · intro i other isOther
      cases i with
      | zero =>
        cases isOther
        exact here
      | succ i =>
        have behind := isDeclared i other isOther
        rwa [Nat.add_assoc, Nat.add_comm 1] at behind

/-- **Declaring,** behind the parameters that have been declared already. -/
theorem declareFrom_exact (passed rest : List (List Char)) (type? : Option (List Char))
    (carried : Carried (passed ++ rest) passed.length type?) :
    Ends (passed ++ rest) passed.length (declareFrom type? passed.length rest) := by
  induction rest generalizing passed type? with
  | nil =>
    refine .declared (fun place reached error offends => ?_) (by simp) nofun
    obtain ⟨token, isToken, -⟩ := offends
    have inside := (List.getElem?_eq_some_iff.mp isToken).1
    rw [List.append_nil] at inside
    omega
  | cons token rest ih =>
    have here : (passed ++ token :: rest)[passed.length]? = some token := by simp
    have fits (enough : passed.length ≠ 0 ∨ 2 ≤ (Text.words token).length)
        (few : (Text.words token).length ≤ 2) :
        ∀ error, ¬OffendsAt (passed ++ token :: rest) passed.length error := by
      rintro error ⟨other, isOther, offends⟩
      cases here.symm.trans isOther
      generalize passed.length = place at enough offends
      cases offends <;> omega
    have refuse {error : SignatureError} (offends : Offends passed.length token error) :
        Ends (passed ++ token :: rest) passed.length (.error error) :=
      .refused passed.length le_rfl ⟨token, here, offends⟩ fun _ _ _ => by omega
    -- The parameters behind this one, with the type that it hands on.
    have later (typeName : List Char)
        (nearest : NearestType (passed ++ token :: rest) (passed.length + 1) typeName) :
        Ends (passed ++ token :: rest) (passed.length + 1)
          (declareFrom (some typeName) (passed.length + 1) rest) := by
      have behind := ih (passed ++ [token]) (some typeName)
      rw [List.append_assoc, List.singleton_append, List.length_append, List.length_singleton]
        at behind
      exact behind nearest
    rcases wordsOf_cases token with
      ⟨few, words⟩ | ⟨typeName, two, words⟩ | ⟨many, _, _, _, _, words⟩
    · cases type? with
      | none =>
        have first : passed.length = 0 := carried
        rw [declareFrom, words]
        refine refuse ?_
        rw [first]
        exact .untyped few
      | some typeName =>
        have nearest := NearestType.bare carried here few
        obtain ⟨origin, before, -⟩ := carried
        rw [declareFrom, words]
        exact (later typeName nearest).cons (fits (.inl (by omega)) (by omega))
          ⟨rfl, ⟨token, here, rfl⟩, nearest⟩
    · have nearest := nearestType_own here two
      rw [declareFrom, words]
      exact (later typeName nearest).cons (fits (.inr (by rw [two]; rfl)) (by rw [two]; rfl))
        ⟨rfl, ⟨token, here, rfl⟩, nearest⟩
    · rw [declareFrom, words]
      exact refuse (.crowded many)

theorem declare_exact (tokens : List (List Char)) : Ends tokens 0 (declare tokens) :=
  declareFrom_exact [] tokens none rfl

/-- The parameters are refused with what is wrong with the first one that does not fit. -/
theorem declare_error_iff {tokens : List (List Char)} {error : SignatureError} :
    declare tokens = .error error ↔ FirstOffence tokens error := by
  have ends := declare_exact tokens
  generalize declare tokens = result at ends ⊢
  cases ends with
  | @refused other place _ offends first =>
    have isFirst : FirstOffence tokens other :=
      ⟨place, offends, fun earlier before => first earlier (Nat.zero_le _) before⟩
    rw [Except.error.injEq]
    exact ⟨fun same => same ▸ isFirst, isFirst.unique⟩
  | declared none _ _ =>
    constructor
    · intro refused
      cases refused
    · rintro ⟨place, offends, -⟩
      exact absurd offends (none place (Nat.zero_le _) error)

/-- Parameters that all fit are declared, each at its place. -/
theorem exists_declare {tokens : List (List Char)}
    (fits : ∀ place error, ¬OffendsAt tokens place error) :
    ∃ declared, declare tokens = .ok declared ∧ declared.length = tokens.length ∧
      ∀ (place : Nat) (declaration : Declaration), declared[place]? = some declaration →
        IsDeclared tokens place declaration := by
  have ends := declare_exact tokens
  generalize declare tokens = result at ends ⊢
  cases ends with
  | @refused error place _ offends _ => exact absurd offends (fits place error)
  | @declared declared _ each isDeclared =>
    refine ⟨declared, rfl, by omega, fun place declaration isHere => ?_⟩
    have here := isDeclared place declaration isHere
    rwa [Nat.zero_add] at here

/-! ### Bindings -/

/-- The place of the first declaration of a name. -/
def firstOf (declarations : List Declaration) (name : List Char) : Nat :=
  declarations.findIdx (·.name == name)

theorem firstOf_self (declaration : Declaration) (rest : List Declaration) :
    firstOf (declaration :: rest) declaration.name = 0 := by
  rw [firstOf, List.findIdx_cons, beq_self_eq_true, cond_true]

theorem firstOf_other {declaration : Declaration} (rest : List Declaration) {name : List Char}
    (other : declaration.name ≠ name) :
    firstOf (declaration :: rest) name = firstOf rest name + 1 := by
  rw [firstOf, List.findIdx_cons, beq_false_of_ne other, cond_false, firstOf]

/-- A declaration that is kept is the first one of its name, and the name is not taken. -/
theorem mem_bindFresh {taken : List (List Char)} {declarations : List Declaration}
    {binding : Declaration} (isIn : binding ∈ bindFresh taken declarations) :
    binding.name ∉ taken ∧ declarations.find? (·.name == binding.name) = some binding := by
  induction declarations generalizing taken with
  | nil => cases isIn
  | cons declaration rest ih =>
    have behind {taken : List (List Char)} (isIn : binding ∈ bindFresh taken rest)
        (other : declaration.name ≠ binding.name) : binding.name ∉ taken ∧
          (declaration :: rest).find? (·.name == binding.name) = some binding := by
      rw [List.find?_cons_of_neg (by simpa using other)]
      exact ih isIn
    rw [bindFresh] at isIn
    split at isIn
    · next isTaken =>
      refine behind isIn fun same => (ih isIn).1 ?_
      rw [← same]
      exact List.contains_iff_mem.mp isTaken
    · next free =>
      rcases List.mem_cons.mp isIn with rfl | isIn
      · exact ⟨by simpa using free, List.find?_cons_of_pos (by simp)⟩
      · have fresh := (ih isIn).1
        rw [List.mem_cons, not_or] at fresh
        exact ⟨fresh.2, (behind isIn (Ne.symm fresh.1)).2⟩

/-- The declarations that are kept stand in the order of the first declarations of their names. -/
theorem bindFresh_ordered (taken : List (List Char)) (declarations : List Declaration) :
    (bindFresh taken declarations).Pairwise fun first second =>
      firstOf declarations first.name < firstOf declarations second.name := by
  induction declarations generalizing taken with
  | nil => exact .nil
  | cons declaration rest ih =>
    -- No name of those that are kept behind is the name of the declaration itself.
    have behind (taken : List (List Char)) (isTaken : declaration.name ∈ taken) :
        ∀ binding ∈ bindFresh taken rest, declaration.name ≠ binding.name := by
      intro binding isIn same
      exact (mem_bindFresh isIn).1 (same ▸ isTaken)
    have shifted (taken : List (List Char)) (isTaken : declaration.name ∈ taken) :
        (bindFresh taken rest).Pairwise fun first second =>
          firstOf (declaration :: rest) first.name < firstOf (declaration :: rest) second.name := by
      refine (ih taken).imp_of_mem fun isFirst isSecond ordered => ?_
      rw [firstOf_other rest (behind taken isTaken _ isFirst),
        firstOf_other rest (behind taken isTaken _ isSecond)]
      exact Nat.succ_lt_succ ordered
    rw [bindFresh]
    split
    · next isTaken => exact shifted taken (List.contains_iff_mem.mp isTaken)
    · refine List.pairwise_cons.mpr ⟨fun binding isIn => ?_, shifted _ List.mem_cons_self⟩
      rw [firstOf_self, firstOf_other rest (behind _ List.mem_cons_self _ isIn)]
      exact Nat.succ_pos _

/-- The names of the bindings are the names that are declared. -/
theorem mem_names_bind (declarations : List Declaration) (name : List Char) :
    name ∈ (bind declarations).map (·.name) ↔ name ∈ declarations.map (·.name) := by
  have found (declarations : List Declaration) : name ∈ declarations.map (·.name) ↔
      (declarations.find? (·.name == name)).isSome = true := by
    rw [List.find?_isSome, List.mem_map]
    simp only [beq_iff_eq]
  rw [found, found, bind_find?]

theorem nodup_names_bind (declarations : List Declaration) :
    ((bind declarations).map (·.name)).Nodup := by
  rw [List.Nodup, List.pairwise_map]
  refine (bindFresh_ordered [] declarations).imp fun ordered same => ?_
  rw [same] at ordered
  exact lt_irrefl _ ordered

/-! ### Declaring and binding as a whole -/

/-- **Declaring and binding.** Declaring fails exactly with the error of the first parameter that is
refused; where none is, every parameter has one declaration, in order. The bindings of any
declarations have each declared name once, in the order of the first declarations, and the binding
of a name is its first declaration. -/
theorem declare_bind_exact (tokens : List (List Char)) (declarations : List Declaration) :
    (∀ error, declare tokens = .error error ↔ FirstOffence tokens error) ∧
      ((∀ place error, ¬OffendsAt tokens place error) →
        ∃ declared, declare tokens = .ok declared ∧ declared.length = tokens.length ∧
          ∀ (place : Nat) (declaration : Declaration), declared[place]? = some declaration →
            IsDeclared tokens place declaration) ∧
      (∀ name, name ∈ (bind declarations).map (·.name) ↔ name ∈ declarations.map (·.name)) ∧
      ((bind declarations).map (·.name)).Nodup ∧
      ((bind declarations).Pairwise fun first second =>
        firstOf declarations first.name < firstOf declarations second.name) ∧
      ∀ binding ∈ bind declarations,
        declarations.find? (·.name == binding.name) = some binding := by
  exact ⟨fun _ => declare_error_iff, exists_declare, mem_names_bind declarations,
    nodup_names_bind declarations, bindFresh_ordered [] declarations,
    fun binding isIn => (mem_bindFresh isIn).2⟩

/-- The parameters `Double x`, `y`, `Boolean x` and one that is blank. -/
def inheritedTypes : List (List Char) :=
  ["Double x".toList, "y".toList, "Boolean x".toList, " ".toList]

/-- Their declarations. -/
def inheritedDeclarations : List Declaration :=
  [⟨0, "x".toList, "Double".toList⟩, ⟨1, "y".toList, "Double".toList⟩,
    ⟨2, "x".toList, "Boolean".toList⟩, ⟨3, " ".toList, "Boolean".toList⟩]

theorem inheritedTypes_declared :
    (∀ place error, ¬OffendsAt inheritedTypes place error) ∧
      (∃ declared, declare inheritedTypes = .ok declared ∧ declared.length = 4 ∧
        ∀ (place : Nat) (declaration : Declaration), declared[place]? = some declaration →
          IsDeclared inheritedTypes place declaration) ∧
      declare inheritedTypes = .ok inheritedDeclarations ∧
      (∀ binding ∈ bind inheritedDeclarations,
        inheritedDeclarations.find? (·.name == binding.name) = some binding) ∧
      (bind inheritedDeclarations).map (·.index) = [0, 1, 3] := by
  have fits : ∀ place error, ¬OffendsAt inheritedTypes place error := by
    rintro place error ⟨token, isToken, offends⟩
    have isIn := List.mem_of_getElem? isToken
    have few : ∀ token ∈ inheritedTypes, (Text.words token).length ≤ 2 := by decide
    cases offends with
    | untyped none =>
      cases isToken
      exact absurd none (by decide)
    | crowded many => exact absurd (few token isIn) (by omega)
  have exact := declare_bind_exact inheritedTypes inheritedDeclarations
  exact ⟨fits, exact.2.1 fits, by decide, exact.2.2.2.2.2, by decide⟩

end Formulary.Signature
