/-
The equality of keys.

Two values without contents are the same when their faces are: the exact value of a number or a
truth value, the sign of an infinity, the code points of a text, and for the rest the value
itself, a result that is no number included. Tuples are the same when they are element by
element. What has contents that can change is no key, so among keys the equality is decided by
faces alone: it never fails, it is an equivalence, and what maps and sets hold does not count.

* `Store.Key` — the values that have a hash code, by what they are made of.
* `Store.Key.decides`, `Store.Key.comm`, `Store.Key.congr`, `Store.Key.of_same` — the equality with
  a key.
* `Store.checkKey_of_items`, `Store.Key.of_items` — both depend on the tuples only.
-/

import Formulary.Proofs.Truncation
import Formulary.Value.Hash

namespace Formulary

/-! ### Faces -/

/-- What the equality of a value without contents goes by. -/
inductive Face where
  | exact (q : Rat)
  | infinite (negative : Bool)
  | text (codes : Codes)
  | itself (value : Value)
deriving DecidableEq

/-- What a face tells about the values that have it. -/
def Face.Fits : Face → Value → Prop
  | .exact _, value | .infinite _, value => value.isQuantity = true
  | .text codes, value => value.text? = some codes
  | .itself other, value => value = other

namespace Value

/-- The face of a value. -/
def face (value : Value) : Face :=
  match value.exactValue? with
  | some q => .exact q
  | none =>
    match value with
    | .double (.signed negative _) | .single (.signed negative _) => .infinite negative
    | .char codes | .str codes => .text codes
    | value => .itself value

/-- Whether a value is an object that is compared by what it contains. -/
def hasContents : Value → Bool
  | .object .list _ | .object .tuple _ | .object .map _ | .object .set _ | .object .keys _
  | .object (.record .point) _ => true
  | _ => false

/-- Whether a value is a tuple. -/
def isTuple : Value → Bool
  | .object .tuple _ => true
  | _ => false

variable {a b : Value}

theorem isTuple_iff : a.isTuple = true ↔ ∃ ref, a = .object .tuple ref := by
  unfold isTuple
  split <;> simp_all

theorem face_of_exact {q : Rat} (exact : a.exactValue? = some q) : a.face = .exact q := by
  unfold face
  rw [exact]

theorem face_of_text {codes : Codes} (text : a.text? = some codes) : a.face = .text codes := by
  cases a <;> cases text <;> rfl

theorem face_fits (a : Value) : a.face.Fits a := by
  cases a with
  | double x | single x =>
    cases x with
    | nan mark => rfl
    | signed negative index =>
      unfold face
      split <;> rfl
  | _ => rfl

/-- What has no face but itself is the same as nothing else. -/
theorem eq_of_itself {other : Value} (same : a.face = .itself other) : a = other := by
  have read := a.face_fits
  rwa [same] at read

/-- What has contents is the same as nothing else either, as far as its face goes. -/
theorem eq_of_hasContents (contents : a.hasContents = true) (same : b.face = a.face) :
    b = a := by
  unfold hasContents at contents
  split at contents
  case h_7 => cases contents
  all_goals exact eq_of_itself same

/-- Values of the same face are the same, two quantities, or two texts. -/
theorem kind_of_face (same : a.face = b.face) :
    a = b ∨ (a.isQuantity = true ∧ b.isQuantity = true) ∨
      ∃ codes, a.text? = some codes ∧ b.text? = some codes := by
  have left := a.face_fits
  have right := b.face_fits
  rw [← same] at right
  cases face : a.face with
  | exact q | infinite negative =>
    rw [face] at left right
    exact .inr (.inl ⟨left, right⟩)
  | text codes =>
    rw [face] at left right
    exact .inr (.inr ⟨codes, left, right⟩)
  | itself other =>
    rw [face] at left right
    exact .inl (left.trans right.symm)

theorem plain_of_isQuantity (quantity : a.isQuantity = true) : a.hasContents = false := by
  cases a <;> first | rfl | cases quantity

theorem text?_of_isQuantity (quantity : a.isQuantity = true) : a.text? = none := by
  cases a <;> first | rfl | cases quantity

/-- A quantity without an exact value is no number, or infinite. -/
theorem extreme?_cases (quantity : a.isQuantity = true) (absent : a.exactValue? = none) :
    (∃ mark, a.extreme? = some (.nan mark) ∧ a.face = .itself a) ∨
      ∃ negative, a.extreme? = some (.infinity negative) ∧ a.face = .infinite negative := by
  cases a with
  | bool b | int i | long i | fraction q => cases absent
  | double x | single x =>
    cases x with
    | nan mark => exact .inl ⟨mark, rfl, rfl⟩
    | signed negative index =>
      refine .inr ⟨negative, ?_, ?_⟩
      · exact congrArg some (Double.infinite_of_toRat? absent)
      · unfold face
        rw [absent]
  | _ => cases quantity

/-- Two quantities have the same size when they have the same face and it is that of a size. -/
theorem compareQuantities?_eq_iff (left : a.isQuantity = true) (right : b.isQuantity = true) :
    a.compareQuantities? b = some .eq ↔ a.face = b.face ∧ a.face ≠ .itself a := by
  have nan (mark : Nat) (x : Double) : (Double.nan mark).compare? x = none ∧
      x.compare? (.nan mark) = none := by
    cases x with
    | nan mark' => exact ⟨rfl, rfl⟩
    | signed negative index => cases negative <;> exact ⟨rfl, rfl⟩
  have infinities (negative negative' : Bool) :
      (Double.infinity negative).compare? (.infinity negative') = some .eq ↔
        negative = negative' := by
    cases negative <;> cases negative' <;> decide
  have apart (negative : Bool) :
      (Double.zero false).compare? (.infinity negative) ≠ some .eq ∧
        (Double.infinity negative).compare? (.zero false) ≠ some .eq := by
    cases negative <;> decide
  unfold compareQuantities?
  rcases exact : a.exactValue? with _ | x <;> rcases exact' : b.exactValue? with _ | y
  · obtain ⟨mark, extreme, face⟩ | ⟨negative, extreme, face⟩ := extreme?_cases left exact <;>
      obtain ⟨mark', extreme', face'⟩ | ⟨negative', extreme', face'⟩ :=
        extreme?_cases right exact' <;>
      simp [extreme, extreme', face, face', nan, infinities]
  · rw [face_of_exact exact']
    obtain ⟨mark, extreme, face⟩ | ⟨negative, extreme, face⟩ := extreme?_cases left exact
    · simp [extreme, face, nan]
    · simp [extreme, face, apart]
  · rw [face_of_exact exact]
    obtain ⟨mark, extreme, face⟩ | ⟨negative, extreme, face⟩ := extreme?_cases right exact'
    · simp [extreme, face, nan]
    · simp [extreme, face, apart]
  · rw [face_of_exact exact, face_of_exact exact']
    rcases lt_trichotomy x y with less | rfl | greater
    · simp [less, less.ne]
    · simp
    · simp [greater, greater.ne', not_lt.mpr greater.le]

theorem no_size (other : a.isQuantity = false) : a.exactValue? = none ∧ a.extreme? = none := by
  cases a <;> first | exact ⟨rfl, rfl⟩ | cases other

/-- Only quantities compare. -/
theorem isQuantity_of_compare {order : Ordering} (compares : a.compareQuantities? b = some order) :
    a.isQuantity = true ∧ b.isQuantity = true := by
  constructor <;> by_contra other <;> rw [Bool.not_eq_true] at other
  · have none : a.compareQuantities? b = none := by
      unfold compareQuantities?
      rw [(no_size other).1, (no_size other).2]
      cases b.exactValue? <;> rfl
    rw [none] at compares
    cases compares
  · have none : a.compareQuantities? b = none := by
      unfold compareQuantities?
      rw [(no_size other).1, (no_size other).2]
      cases a.exactValue? <;> cases a.extreme? <;> rfl
    rw [none] at compares
    cases compares

/-- Two values that are not one have the same size when they are quantities of the same face. -/
theorem compareQuantities?_eq_iff_of_ne (different : a ≠ b) (quantity : a.isQuantity = true) :
    a.compareQuantities? b = some .eq ↔ a.face = b.face := by
  constructor
  · intro compares
    obtain ⟨left, right⟩ := isQuantity_of_compare compares
    exact ((compareQuantities?_eq_iff left right).mp compares).1
  · intro same
    obtain one | ⟨left, right⟩ | ⟨codes, text, -⟩ := kind_of_face same
    · exact absurd one different
    · refine (compareQuantities?_eq_iff left right).mpr ⟨same, fun itself => ?_⟩
      exact different (eq_of_itself (same ▸ itself)).symm
    · rw [text?_of_isQuantity quantity] at text
      cases text

end Value

namespace Store

/-! ### The equality of containers, level by level -/

section Same

variable {store : Store} {fuel : Nat} {a b c : Value} {r s : Ref}

/-- Whether two elements of containers count as the same, when they are nested only so deep. -/
def sameUpTo (fuel : Nat) (store : Store) (a b : Value) : Except Fault Bool :=
  if a = b then .ok true else equalUpTo fuel store a b

theorem same_eq_upTo (store : Store) : store.same = sameUpTo nestingLimit store := rfl

theorem sameUpTo_self (fuel : Nat) (store : Store) (a : Value) :
    sameUpTo fuel store a a = .ok true :=
  if_pos rfl

theorem agree_self {same : Value → Value → Except Fault Bool} (itself : ∀ a, same a a = .ok true)
    (values : List Value) : agree same values values = .ok true := by
  induction values with
  | nil => rfl
  | cons value rest ih =>
    rw [agree, itself]
    exact ih

theorem agree_decides {same : Value → Value → Except Fault Bool} {bs : List Value}
    (decides : ∀ b ∈ bs, ∀ a, ∃ found, same a b = .ok found) (as : List Value) :
    ∃ found, agree same as bs = .ok found := by
  induction bs generalizing as with
  | nil => cases as <;> exact ⟨_, rfl⟩
  | cons b bs ih =>
    cases as with
    | nil => exact ⟨_, rfl⟩
    | cons a as =>
      obtain ⟨first, others⟩ := List.forall_mem_cons.mp decides
      obtain ⟨found, same⟩ := first a
      rw [agree, same]
      cases found with
      | true => exact ih others as
      | false => exact ⟨_, rfl⟩

theorem agree_comm {same : Value → Value → Except Fault Bool} {bs : List Value}
    (comm : ∀ b ∈ bs, ∀ a, same a b = same b a) (as : List Value) :
    agree same as bs = agree same bs as := by
  induction bs generalizing as with
  | nil => cases as <;> rfl
  | cons b bs ih =>
    cases as with
    | nil => rfl
    | cons a as =>
      obtain ⟨first, others⟩ := List.forall_mem_cons.mp comm
      rw [agree, agree, first, ih others]

theorem agree_true_iff {same : Value → Value → Except Fault Bool} {as bs : List Value} :
    agree same as bs = .ok true ↔ List.Forall₂ (fun a b => same a b = .ok true) as bs := by
  induction as generalizing bs with
  | nil => cases bs <;> simp [agree]
  | cons a as ih =>
    cases bs with
    | nil => simp [agree]
    | cons b bs =>
      rw [List.forall₂_cons, ← ih, agree]
      rcases same a b with fault | _ | _
      · exact ⟨fun ended => (nomatch ended), fun both => (nomatch both.1)⟩
      · exact ⟨fun ended => (nomatch ended), fun both => (nomatch both.1)⟩
      · exact ⟨fun ended => ⟨rfl, ended⟩, And.right⟩

theorem agree_congr {same : Value → Value → Except Fault Bool} {as bs : List Value}
    (alike : List.Forall₂ (fun b a => ∀ c, same a c = same b c) bs as) (cs : List Value) :
    agree same as cs = agree same bs cs := by
  induction alike generalizing cs with
  | nil => rfl
  | cons first _ ih =>
    cases cs with
    | nil => rfl
    | cons c cs => rw [agree, agree, first, ih]

theorem agree_ext {same same' : Value → Value → Except Fault Bool} {bs : List Value}
    (alike : ∀ b ∈ bs, ∀ a, same' a b = same a b) (as : List Value) :
    agree same' as bs = agree same as bs := by
  induction bs generalizing as with
  | nil => cases as <;> rfl
  | cons b bs ih =>
    cases as with
    | nil => rfl
    | cons a as =>
      obtain ⟨first, others⟩ := List.forall_mem_cons.mp alike
      rw [agree, agree, first, ih others]

/-- Two tuples are the same when they are element by element. -/
theorem sameUpTo_tuples :
    sameUpTo (fuel + 1) store (.object .tuple r) (.object .tuple s) =
      agree (sameUpTo fuel store) (store.items r).toList (store.items s).toList := by
  by_cases one : r = s
  · rw [one, sameUpTo_self, agree_self (sameUpTo_self fuel store)]
  · have different : Value.object .tuple r ≠ .object .tuple s := by simpa using one
    rw [sameUpTo, if_neg different, equalUpTo]
    simp [Value.isQuantity, Value.text?, one, areSets]
    rfl

theorem equalUpTo_quantities (left : a.isQuantity = true) (right : b.isQuantity = true) :
    equalUpTo (fuel + 1) store a b = .ok (a.compareQuantities? b == some .eq) := by
  unfold equalUpTo
  rw [if_pos (by rw [left, right]; rfl)]

theorem equalUpTo_texts {left right : Codes} (isLeft : a.text? = some left)
    (isRight : b.text? = some right) :
    equalUpTo (fuel + 1) store a b = .ok (left == right) := by
  have other : a.isQuantity = false := by
    cases a <;> first | rfl | cases isLeft
  unfold equalUpTo
  rw [if_neg (by simp [other]), isLeft, isRight]

/-- What is neither two quantities nor two texts, and has no contents to look at, is the same only
if it is one value. -/
theorem equalUpTo_apart (plain : a.hasContents = false ∨ b.hasContents = false) (one : a ≠ b)
    (noQuantities : ¬(a.isQuantity = true ∧ b.isQuantity = true))
    (noTexts : ¬∃ left right, a.text? = some left ∧ b.text? = some right) :
    equalUpTo (fuel + 1) store a b = .ok false := by
  unfold equalUpTo
  rw [if_neg (by simpa using noQuantities)]
  split
  · next left right isLeft isRight => exact absurd ⟨left, right, isLeft, isRight⟩ noTexts
  · split
    · next kind r kind' s _ =>
      have apart : ¬(decide (kind = kind') && decide (r = s)) = true := by
        simpa using one
      have noSets : ¬areSets kind kind' = true := by
        unfold areSets
        split <;> simp_all [Value.hasContents]
      rw [if_neg apart, if_neg noSets]
      split
      all_goals first | rfl | (exfalso; obtain plain | plain := plain <;> cases plain)
    · rw [decide_eq_false one]

/-- A value without contents is the same as what has the same face. -/
theorem sameUpTo_plain (plain : a.hasContents = false ∨ b.hasContents = false) :
    sameUpTo (fuel + 1) store a b = .ok (decide (a.face = b.face)) := by
  by_cases one : a = b
  · rw [one, sameUpTo_self, decide_eq_true rfl]
  rw [sameUpTo, if_neg one]
  by_cases quantities : a.isQuantity = true ∧ b.isQuantity = true
  · rw [equalUpTo_quantities quantities.1 quantities.2, beq_eq_decide,
      decide_eq_decide.mpr (Value.compareQuantities?_eq_iff_of_ne one quantities.1)]
  by_cases texts : ∃ left right, a.text? = some left ∧ b.text? = some right
  · obtain ⟨left, right, isLeft, isRight⟩ := texts
    rw [equalUpTo_texts isLeft isRight, Value.face_of_text isLeft, Value.face_of_text isRight]
    simp [beq_eq_decide]
  · have different : a.face ≠ b.face := fun same => by
      obtain one' | both | ⟨codes, left, right⟩ := Value.kind_of_face same
      · exact one one'
      · exact quantities both
      · exact texts ⟨codes, codes, left, right⟩
    rw [equalUpTo_apart plain one quantities texts, decide_eq_false different]

/-- A tuple is the same as no other kind of thing. -/
theorem sameUpTo_mixed (mixed : a.isTuple ≠ b.isTuple) :
    sameUpTo (fuel + 1) store a b = .ok false := by
  have contents {v : Value} (tuple : v.isTuple = true) : v.hasContents = true := by
    obtain ⟨ref, rfl⟩ := Value.isTuple_iff.mp tuple
    rfl
  have different : a.face ≠ b.face := fun same => by
    cases left : a.isTuple with
    | true => exact mixed (congrArg _ (Value.eq_of_hasContents (contents left) same.symm).symm)
    | false =>
      have right : b.isTuple = true := by
        rw [left] at mixed
        exact Bool.eq_true_of_not_eq_false mixed.symm
      exact mixed (congrArg _ (Value.eq_of_hasContents (contents right) same))
  by_cases plain : a.hasContents = false ∨ b.hasContents = false
  · rw [sameUpTo_plain plain, decide_eq_false different]
  · simp only [not_or, Bool.not_eq_false] at plain
    obtain ⟨left, right⟩ := plain
    unfold Value.hasContents at left right
    split at left <;> split at right
    all_goals first | rfl | exact absurd rfl mixed | contradiction

theorem sameUpTo_tuple_left (other : b.isTuple = false) :
    sameUpTo (fuel + 1) store (.object .tuple r) b = .ok false :=
  sameUpTo_mixed (other ▸ Bool.false_ne_true.symm)

theorem sameUpTo_tuple_right (other : a.isTuple = false) :
    sameUpTo (fuel + 1) store a (.object .tuple s) = .ok false :=
  sameUpTo_mixed (other ▸ Bool.false_ne_true)

/-- What is the same as a value without contents has none either. -/
theorem of_sameUpTo_plain (plain : b.hasContents = false)
    (same : sameUpTo (fuel + 1) store a b = .ok true) :
    a.hasContents = false ∧ a.face = b.face := by
  rw [sameUpTo_plain (.inr plain)] at same
  have face : a.face = b.face := of_decide_eq_true (Except.ok.inj same)
  refine ⟨?_, face⟩
  cases contents : a.hasContents with
  | false => rfl
  | true =>
    rw [Value.eq_of_hasContents contents face.symm, contents] at plain
    cases plain

/-- What is the same as a tuple is a tuple of the same items. -/
theorem of_sameUpTo_tuple (same : sameUpTo (fuel + 1) store a (.object .tuple s) = .ok true) :
    ∃ r, a = .object .tuple r ∧ List.Forall₂ (fun y x => sameUpTo fuel store x y = .ok true)
      (store.items s).toList (store.items r).toList := by
  cases tuple : a.isTuple with
  | true =>
    obtain ⟨r, rfl⟩ := Value.isTuple_iff.mp tuple
    rw [sameUpTo_tuples, agree_true_iff] at same
    exact ⟨r, rfl, same.flip⟩
  | false =>
    rw [sameUpTo_tuple_right tuple] at same
    cases same

end Same

/-! ### Keys -/

/-- A value that can be a key: one without contents, or a tuple of keys that is not nested too
deep. -/
inductive Key (store : Store) : Nat → Value → Prop
  | plain {fuel : Nat} {value : Value} (plain : value.hasContents = false) :
    Key store (fuel + 1) value
  | tuple {fuel : Nat} {ref : Ref}
    (items : ∀ item ∈ (store.items ref).toList, Key store fuel item) :
    Key store (fuel + 1) (.object .tuple ref)

section Keys

variable {store : Store} {fuel : Nat} {a b c key value : Value} {r s : Ref}

theorem codesOfAll_ok {code : Value → Except Fault Int} {values : List Value} :
    (∃ codes, codesOfAll code values = .ok codes) ↔
      ∀ value ∈ values, ∃ one, code value = .ok one := by
  induction values with
  | nil => simp [codesOfAll]
  | cons value rest ih =>
    rw [List.forall_mem_cons, ← ih, codesOfAll]
    rcases code value with fault | one
    · exact ⟨fun ⟨_, ended⟩ => (nomatch ended), fun ⟨⟨_, ended⟩, _⟩ => (nomatch ended)⟩
    · rcases codesOfAll code rest with fault | codes
      · exact ⟨fun ⟨_, ended⟩ => (nomatch ended), fun ⟨_, _, ended⟩ => (nomatch ended)⟩
      · exact ⟨fun _ => ⟨⟨one, rfl⟩, codes, rfl⟩, fun _ => ⟨one :: codes, rfl⟩⟩

theorem hashUpTo_plain (plain : value.hasContents = false) :
    ∃ code, store.hashUpTo (fuel + 1) value = .ok code := by
  unfold hashUpTo
  split <;> first | exact ⟨_, rfl⟩ | cases plain

theorem hashUpTo_tuple :
    (∃ code, store.hashUpTo (fuel + 1) (.object .tuple r) = .ok code) ↔
      ∀ item ∈ (store.items r).toList, ∃ code, store.hashUpTo fuel item = .ok code := by
  rw [← codesOfAll_ok, hashUpTo]
  rcases codesOfAll (store.hashUpTo fuel) (store.items r).toList with fault | codes
  · exact ⟨fun ⟨_, ended⟩ => (nomatch ended), fun ⟨_, ended⟩ => (nomatch ended)⟩
  · exact ⟨fun _ => ⟨codes, rfl⟩, fun _ => ⟨_, rfl⟩⟩

/-- What has a hash code can be a key. -/
theorem key_iff : Key store fuel value ↔ ∃ code, store.hashUpTo fuel value = .ok code := by
  constructor
  · intro key
    induction key with
    | plain plain => exact hashUpTo_plain plain
    | tuple items ih => exact hashUpTo_tuple.mpr ih
  · induction fuel generalizing value with
    | zero => exact fun ⟨_, ended⟩ => nomatch ended
    | succ fuel ih =>
      intro hashed
      cases contents : value.hasContents with
      | false => exact .plain contents
      | true =>
        unfold Value.hasContents at contents
        split at contents
        case h_2 ref =>
          exact .tuple fun item mem => ih (hashUpTo_tuple.mp hashed item mem)
        case h_7 => cases contents
        all_goals exact nomatch hashed

/-- Whether something is the same as a key is always decided. -/
theorem Key.decides (key : Key store fuel b) (a : Value) :
    ∃ found, sameUpTo fuel store a b = .ok found := by
  induction key generalizing a with
  | plain plain => exact ⟨_, sameUpTo_plain (.inr plain)⟩
  | tuple items ih =>
    cases tuple : a.isTuple with
    | true =>
      obtain ⟨ref, rfl⟩ := Value.isTuple_iff.mp tuple
      rw [sameUpTo_tuples]
      exact agree_decides ih _
    | false => exact ⟨_, sameUpTo_tuple_right tuple⟩

/-- It does not matter on which side a key stands. -/
theorem Key.comm (key : Key store fuel b) (a : Value) :
    sameUpTo fuel store a b = sameUpTo fuel store b a := by
  induction key generalizing a with
  | plain plain =>
    rw [sameUpTo_plain (.inr plain), sameUpTo_plain (.inl plain)]
    simp only [eq_comm]
  | tuple items ih =>
    cases tuple : a.isTuple with
    | true =>
      obtain ⟨ref, rfl⟩ := Value.isTuple_iff.mp tuple
      rw [sameUpTo_tuples, sameUpTo_tuples]
      exact agree_comm ih _
    | false => rw [sameUpTo_tuple_right tuple, sameUpTo_tuple_left tuple]

/-- What is the same as a key is the same as whatever the key is the same as. -/
theorem Key.congr (key : Key store fuel b) (same : sameUpTo fuel store a b = .ok true)
    (c : Value) : sameUpTo fuel store a c = sameUpTo fuel store b c := by
  induction key generalizing a c with
  | plain plain =>
    obtain ⟨plain', face⟩ := of_sameUpTo_plain plain same
    rw [sameUpTo_plain (.inl plain'), sameUpTo_plain (.inl plain), face]
  | tuple items ih =>
    obtain ⟨r, rfl, agrees⟩ := of_sameUpTo_tuple same
    cases tuple : c.isTuple with
    | true =>
      obtain ⟨t, rfl⟩ := Value.isTuple_iff.mp tuple
      rw [sameUpTo_tuples, sameUpTo_tuples]
      have both := (List.forall₂_and_left _ _).mpr ⟨ih, agrees⟩
      exact agree_congr (both.imp fun y x ⟨congr, same⟩ => congr same) _
    | false => rw [sameUpTo_tuple_left tuple, sameUpTo_tuple_left tuple]

/-- What is the same as a key can be a key as well. -/
theorem Key.of_same (key : Key store fuel b) (same : sameUpTo fuel store a b = .ok true) :
    Key store fuel a := by
  induction key generalizing a with
  | plain plain => exact .plain (of_sameUpTo_plain plain same).1
  | @tuple fuel s items ih =>
    obtain ⟨r, rfl, agrees⟩ := of_sameUpTo_tuple same
    have keys : List.Forall₂ (flip fun x y => Key store fuel x ∧ sameUpTo fuel store x y = .ok true)
        (store.items s).toList (store.items r).toList :=
      ((List.forall₂_and_left _ _).mpr ⟨ih, agrees⟩).imp
        fun y x ⟨carries, same⟩ => ⟨carries same, same⟩
    exact .tuple ((List.forall₂_and_left _ _).mp keys.flip).1

theorem checkKey_iff : store.checkKey value = .ok () ↔ Key store nestingLimit value := by
  rw [key_iff, checkKey, hash]
  rcases store.hashUpTo nestingLimit value with fault | code
  · exact ⟨fun ended => (nomatch ended), fun ⟨_, ended⟩ => (nomatch ended)⟩
  · exact ⟨fun _ => ⟨code, rfl⟩, fun _ => rfl⟩

end Keys

/-! ### Stores with the same tuples -/

section Items

variable {store store' : Store} {fuel : Nat} {b : Value}

theorem hashUpTo_of_items (items : ∀ ref, store'.items ref = store.items ref) (fuel : Nat) :
    store'.hashUpTo fuel = store.hashUpTo fuel := by
  induction fuel with
  | zero => rfl
  | succ fuel ih =>
    funext value
    unfold hashUpTo
    simp only [items, ih]

/-- Whether a value can be a key depends on the tuples only. -/
theorem checkKey_of_items (items : ∀ ref, store'.items ref = store.items ref) (value : Value) :
    store'.checkKey value = store.checkKey value := by
  rw [checkKey, checkKey, hash, hash, hashUpTo_of_items items]

/-- What is the same as a key depends on the tuples only. -/
theorem Key.of_items (key : Key store fuel b) (items : ∀ ref, store'.items ref = store.items ref)
    (a : Value) : sameUpTo fuel store' a b = sameUpTo fuel store a b := by
  induction key generalizing a with
  | plain plain => rw [sameUpTo_plain (.inr plain), sameUpTo_plain (.inr plain)]
  | @tuple fuel s keys ih =>
    cases tuple : a.isTuple with
    | true =>
      obtain ⟨r, rfl⟩ := Value.isTuple_iff.mp tuple
      rw [sameUpTo_tuples, sameUpTo_tuples, items, items]
      exact agree_ext ih _
    | false => rw [sameUpTo_tuple_right tuple, sameUpTo_tuple_right tuple]

end Items

end Store

end Formulary
