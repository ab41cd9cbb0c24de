/-
The order of numbers.

Numbers of all kinds are compared by their exact values, with the infinities at both ends. A double
is compared with another one by the number of its magnitude, which comes to the same. What is no
number compares with nothing, and a comparison that has to answer answers zero then, as for equal
numbers. So a comparison is a total preorder on numbers, and what is no number links all of them.

* `Double.compare?_extents`, `Number.compare?_extents` — numbers are compared by where they lie.
* `comparison_preorder` — what `compareTo` and `Double.compare` answer.
-/

import Formulary.Kind.Static
import Formulary.Method
import Formulary.Proofs.Machine
import Formulary.Proofs.Magnitudes

namespace Formulary

/-- The rationals with an infinity at both ends. -/
abbrev Extent : Type := WithBot (WithTop Rat)

/-- A rational among them. -/
def Extent.ofRat (q : Rat) : Extent := ((q : WithTop Rat) : Extent)

theorem Extent.ofRat_strictMono : StrictMono Extent.ofRat :=
  WithBot.coe_strictMono.comp WithTop.coe_strictMono

theorem Extent.bot_lt_ofRat (q : Rat) : ⊥ < Extent.ofRat q := WithBot.bot_lt_coe _

theorem Extent.ofRat_lt_top (q : Rat) : Extent.ofRat q < ⊤ :=
  WithBot.coe_lt_coe.mpr (WithTop.coe_lt_top q)

/-! ### Doubles -/

namespace Double

theorem isNaN_ofRat (zeroSign : Bool) (q : Rat) : (ofRat zeroSign q).isNaN = false := by
  rw [ofRat]
  split
  · rfl
  · split <;> rfl

/-- Where a double lies: nowhere if it is no number. -/
def extent? (x : Double) : Option Extent :=
  match x.toRat? with
  | some q => some (.ofRat q)
  | none => if x.isNaN then none else some (if x.isNegative then ⊥ else ⊤)

/-- The exact value behind a place in the order of the doubles. -/
def valueAt (place : Int) : Rat :=
  if place < 0 then -Format.binary64.magnitude place.natAbs
  else Format.binary64.magnitude place.natAbs

theorem valueAt_strictMono : StrictMono valueAt := by
  intro a b below
  have grows {i j : Nat} (less : i < j) := Format.binary64.magnitude_strictMono less
  have nonneg := Format.binary64.magnitude_nonneg
  simp only [valueAt]
  split
  · split
    · exact neg_lt_neg (grows (by omega))
    · calc -Format.binary64.magnitude a.natAbs < 0 := by
            have := grows (show 0 < a.natAbs by omega)
            rw [Format.magnitude_zero] at this
            exact neg_neg_of_pos this
        _ ≤ Format.binary64.magnitude b.natAbs := nonneg _
  · rw [if_neg (by omega)]
    exact grows (by omega)

/-- Where the doubles of a place lie. -/
def extentAt (place : Int) : Extent :=
  if place = -0x7FF0000000000000 then ⊥
  else if place = 0x7FF0000000000000 then ⊤
  else .ofRat (valueAt place)

/-- The places of the doubles. -/
def places : Set Int := Set.Icc (-0x7FF0000000000000) 0x7FF0000000000000

theorem extentAt_strictMonoOn : StrictMonoOn extentAt places := by
  rintro a ⟨aLower, -⟩ b ⟨-, bUpper⟩ below
  simp only [extentAt]
  rw [if_neg (show b ≠ -0x7FF0000000000000 by omega)]
  split
  · split
    · exact bot_lt_top
    · exact Extent.bot_lt_ofRat _
  · rw [if_neg (by omega)]
    split
    · exact Extent.ofRat_lt_top _
    · exact Extent.ofRat_strictMono (valueAt_strictMono below)

/-- The places of both signs lie around zero. -/
theorem valueAt_signed (negative : Bool) (index : Nat) :
    valueAt (if negative then -(index : Int) else index) =
      if negative then -Format.binary64.magnitude index else Format.binary64.magnitude index := by
  rw [valueAt]
  cases negative with
  | true =>
    simp only [if_true, Int.natAbs_neg, Int.natAbs_natCast]
    by_cases zero : index = 0
    · simp [zero]
    · rw [if_pos (by omega)]
  | false =>
    simp only [Bool.false_eq_true, if_false, Int.natAbs_natCast]
    rw [if_neg (by omega)]

/-- A double that is a number lies where its place says. -/
theorem exists_place {x : Double} (number : x.isNaN = false) :
    ∃ place ∈ places, x.rank? = some place ∧ x.extent? = some (extentAt place) := by
  cases x with
  | nan mark => cases number
  | signed negative index =>
    have bound := index.isLt
    refine ⟨if negative then -(index.val : Int) else index.val, ?_, by cases negative <;> rfl, ?_⟩
    · constructor <;> split <;> omega
    · by_cases infinite : index.val = 0x7FF0000000000000
      · have absent : (signed negative index).toRat? = none := by rw [toRat?, if_pos infinite]
        rw [extent?, absent, extentAt, infinite]
        cases negative <;> rfl
      · have value := (valueAt_signed negative index.val).symm
        have present : (signed negative index).toRat? =
            some (valueAt (if negative then -(index.val : Int) else index.val)) := by
          rw [toRat?, if_neg infinite, ← value]
        have aboveBottom : (if negative then -(index.val : Int) else index.val) ≠
            -0x7FF0000000000000 := by split <;> omega
        have belowTop : (if negative then -(index.val : Int) else index.val) ≠
            0x7FF0000000000000 := by split <;> omega
        rw [extent?, present, extentAt, if_neg aboveBottom, if_neg belowTop]

theorem extent?_eq_none {x : Double} : x.extent? = none ↔ x.isNaN = true := by
  cases nan : x.isNaN with
  | true =>
    cases x with
    | nan mark => exact iff_of_true rfl rfl
    | signed negative index => cases nan
  | false =>
    obtain ⟨place, -, -, extent⟩ := exists_place nan
    simp [extent]

/-- **Doubles are compared by where they lie.** -/
theorem compare?_extents (x y : Double) :
    x.compare? y = x.extent?.bind fun p => y.extent?.map fun q => cmp p q := by
  cases xNaN : x.isNaN with
  | true =>
    rw [extent?_eq_none.mpr xNaN]
    cases x with
    | nan mark => rfl
    | signed negative index => cases xNaN
  | false =>
    obtain ⟨p, inPlaces, xRank, xExtent⟩ := exists_place xNaN
    cases yNaN : y.isNaN with
    | true =>
      rw [extent?_eq_none.mpr yNaN, xExtent]
      cases y with
      | nan mark =>
        rw [compare?, xRank]
        rfl
      | signed negative index => cases yNaN
    | false =>
      obtain ⟨q, inPlaces', yRank, yExtent⟩ := exists_place yNaN
      rw [compare?, xRank, yRank, xExtent, yExtent, Option.bind_some, Option.map_some,
        extentAt_strictMonoOn.cmp_map_eq inPlaces inPlaces', cmp_eq_compare]

end Double

/-! ### Numbers -/

namespace Number

/-- Where a number lies. -/
def extent? : Number → Option Extent
  | .integer i _ => some (.ofRat i)
  | .floating x _ => x.extent?

theorem cmp_ofRat (p q : Rat) : cmp (Extent.ofRat p) (Extent.ofRat q) = cmp p q :=
  Extent.ofRat_strictMono.cmp_map_eq p q

/-- An integer and a double are compared exactly. -/
theorem compareMixed?_extents (i : Int) (x : Double) :
    compareMixed? i x = x.extent?.map fun q => cmp (Extent.ofRat i) q := by
  rw [compareMixed?, Double.extent?]
  cases x.toRat? with
  | some q => exact congrArg some (cmp_ofRat i q).symm
  | none =>
    dsimp only
    split
    · rfl
    · split
      · exact congrArg some ((cmp_eq_gt_iff _ _).mpr (Extent.bot_lt_ofRat _)).symm
      · exact congrArg some ((cmp_eq_lt_iff _ _).mpr (Extent.ofRat_lt_top _)).symm

/-- **Numbers of all kinds are compared by where they lie.** -/
theorem compare?_extents (a b : Number) :
    a.compare? b = a.extent?.bind fun p => b.extent?.map fun q => cmp p q := by
  cases a with
  | integer i isLong =>
    cases b with
    | integer j isLong' =>
      simp only [compare?, extent?, Option.bind_some, Option.map_some]
      rw [cmp_ofRat, Int.cast_strictMono.cmp_map_eq, cmp_eq_compare]
    | floating y isSingle => exact compareMixed?_extents i y
  | floating x isSingle =>
    cases b with
    | integer j isLong =>
      rw [compare?, compareMixed?_extents]
      change _ = x.extent?.bind fun p => some (cmp p (Extent.ofRat j))
      cases x.extent? with
      | none => rfl
      | some p => exact congrArg some (cmp_swap _ _)
    | floating y isSingle' => exact x.compare?_extents y

/-- What a comparison answers. -/
def sign (a b : Number) : Int :=
  signOfOrder (a.compare? b)

theorem sign_swap (a b : Number) : b.sign a = -a.sign b := by
  rw [sign, sign, compare?_extents, compare?_extents]
  cases a.extent? with
  | none => cases b.extent? <;> rfl
  | some p =>
    cases b.extent? with
    | none => rfl
    | some q =>
      simp only [Option.bind_some, Option.map_some]
      rw [← cmp_swap p q]
      cases cmp p q <;> rfl

theorem sign_nonpos {a b : Number} {p q : Extent} (left : a.extent? = some p)
    (right : b.extent? = some q) : a.sign b ≤ 0 ↔ p ≤ q := by
  rw [sign, compare?_extents, left, right, Option.bind_some, Option.map_some]
  obtain less | rfl | more := lt_trichotomy p q
  · rw [(cmp_eq_lt_iff p q).mpr less]
    exact iff_of_true (by decide) less.le
  · rw [cmp_self_eq_eq]
    exact iff_of_true (by decide) le_rfl
  · rw [(cmp_eq_gt_iff p q).mpr more]
    exact iff_of_false (by decide) more.not_ge

theorem sign_unordered {a b : Number} (none : a.extent? = none ∨ b.extent? = none) :
    a.sign b = 0 := by
  rw [sign, compare?_extents]
  obtain none | none := none
  · rw [none]
    rfl
  · rw [none]
    cases a.extent? <;> rfl

end Number

/-! ### Values -/

/-- The values that count as numbers. -/
def Value.Counts (value : Value) : Prop :=
  ∃ number, Number.ofValue value = .ok number

/-- The values that are no number although they are of a floating kind. -/
def Value.IsNaN : Value → Prop
  | .double x | .single x => x.isNaN = true
  | _ => False

/-- A value that counts as a number lies nowhere only if it is no number. -/
theorem Number.extent?_ofValue {value : Value} {number : Number}
    (counts : ofValue value = .ok number) : number.extent? = none ↔ value.IsNaN := by
  cases value with
  | double x =>
    cases counts
    exact Double.extent?_eq_none
  | single x =>
    cases counts
    exact Double.extent?_eq_none
  | int | long =>
    cases counts
    exact iff_of_false nofun id
  | fraction q =>
    rw [ofValue] at counts
    split at counts
    · cases counts
      refine iff_of_false (fun absent => ?_) id
      have nan := Double.extent?_eq_none.mp absent
      rw [Double.isNaN_ofRat] at nan
      cases nan
    · cases counts
  | char codes =>
    rcases codes with _ | ⟨code, _ | ⟨other, rest⟩⟩
    · cases counts
    · cases counts
      exact iff_of_false nofun id
    · cases counts
  | _ => cases counts

/-- What a comparison of two values answers. -/
def Value.sign (a b : Value) : Int :=
  match Number.ofValue a, Number.ofValue b with
  | .ok m, .ok n => m.sign n
  | _, _ => 0

theorem Value.sign_eq {a b : Value} {m n : Number} (left : Number.ofValue a = .ok m)
    (right : Number.ofValue b = .ok n) : a.sign b = m.sign n := by
  rw [sign, left, right]

namespace Method

/-- A text that counts as a number is one character. -/
theorem counts_text {value : Value} {number : Number} {codes : Codes}
    (counts : Number.ofValue value = .ok number) (text : value.text? = some codes) :
    ∃ code, codes = [code] ∧ number = .integer code false := by
  cases value with
  | char given =>
    cases text
    rcases codes with _ | ⟨code, _ | ⟨other, rest⟩⟩
    · cases counts
    · cases counts
      exact ⟨code, rfl, rfl⟩
    · cases counts
  | str given => cases counts
  | _ => cases text

/-- Two characters are compared as texts, which comes to the order of their codes. -/
theorem order_numbers {a b : Value} {m n : Number} (left : Number.ofValue a = .ok m)
    (right : Number.ofValue b = .ok n) : order a b = .ok (m.sign n) := by
  rw [order]
  split
  · next s t aText bText =>
    obtain ⟨code, rfl, rfl⟩ := counts_text left aText
    obtain ⟨other, rfl, rfl⟩ := counts_text right bText
    simp only [Store.textBefore, Number.sign, Number.compare?]
    obtain less | rfl | more := lt_trichotomy code other
    · simp [less, less.ne, Number.signOfOrder, compare_lt_iff_lt.mpr (Int.ofNat_lt.mpr less)]
    · simp [Number.signOfOrder]
    · simp [more, more.ne', more.ne, more.not_gt, Number.signOfOrder,
        compare_gt_iff_gt.mpr (Int.ofNat_lt.mpr more)]
  · rw [left, right]
    rfl

/-- A number has no method `compareTo` of its own. -/
theorem outcome_compareTo {a b : Value} {m n : Number} (left : Number.ofValue a = .ok m)
    (right : Number.ofValue b = .ok n) (store : Store) :
    (invoke a "compareTo" [b]).outcome store = (.ok (.int (m.sign n)), store) := by
  have given : a ≠ .null := by
    rintro rfl
    cases left
  have foreign : store.member? a "compareTo" = none := by
    cases a <;> first | rfl | cases left
  rw [invoke, if_neg given, Action.outcome_get, foreign]
  change (Action.ofExcept (order a b) >>= fun sign => pure (Value.int sign)).outcome store = _
  rw [order_numbers left right]
  rfl

end Method

/-- `Double.compare` compares two doubles. -/
theorem Kind.outcome_compare (x y : Double) (store : Store) :
    (callStatic (.core (.boxed .double)) "compare" [.double x, .double y]).outcome store =
      (.ok (.int ((Number.floating x false).sign (.floating y false))), store) :=
  rfl

/-! ### The order -/

theorem Value.sign_swap {a b : Value} (left : a.Counts) (right : b.Counts) :
    a.sign b = -b.sign a := by
  obtain ⟨m, left⟩ := left
  obtain ⟨n, right⟩ := right
  rw [sign_eq left right, sign_eq right left, Number.sign_swap]

theorem Value.sign_unordered {a b : Value} (left : a.Counts) (right : b.Counts)
    (nan : a.IsNaN ∨ b.IsNaN) : a.sign b = 0 := by
  obtain ⟨m, left⟩ := left
  obtain ⟨n, right⟩ := right
  rw [sign_eq left right]
  exact Number.sign_unordered
    (nan.imp (Number.extent?_ofValue left).mpr (Number.extent?_ofValue right).mpr)

/-- Only what is no number stands between two values that are not in order. -/
theorem Value.sign_trans {a b c : Value} (first : a.Counts) (second : b.Counts) (third : c.Counts)
    (number : ¬b.IsNaN) (below : a.sign b ≤ 0) (above : b.sign c ≤ 0) : a.sign c ≤ 0 := by
  obtain ⟨m, first⟩ := first
  obtain ⟨n, second⟩ := second
  obtain ⟨k, third⟩ := third
  rw [sign_eq first second] at below
  rw [sign_eq second third] at above
  rw [sign_eq first third]
  obtain ⟨q, middle⟩ := Option.ne_none_iff_exists'.mp
    (mt (Number.extent?_ofValue second).mp number)
  -- Where the first or the third value lies nowhere the answer is zero.
  cases left : m.extent? with
  | none => exact (Number.sign_unordered (.inl left)).le
  | some p =>
    cases right : k.extent? with
    | none => exact (Number.sign_unordered (.inr right)).le
    | some r =>
      exact (Number.sign_nonpos left right).mpr
        (((Number.sign_nonpos left middle).mp below).trans
          ((Number.sign_nonpos middle right).mp above))

/-- **Numbers are compared by a total preorder,** whatever their kinds are: `compareTo` and, on
doubles, `Double.compare` answer its signs. What is no number is left out of it and compares as
equal with everything, so it must not stand between two numbers. -/
theorem comparison_preorder {a b c : Value} (first : a.Counts) (second : b.Counts)
    (third : c.Counts) (store : Store) :
    (Method.invoke a "compareTo" [b]).outcome store = (.ok (.int (a.sign b)), store) ∧
    (∀ x y, a = .double x → b = .double y →
      (Kind.callStatic (.core (.boxed .double)) "compare" [a, b]).outcome store =
        (.ok (.int (a.sign b)), store)) ∧
    a.sign b = -b.sign a ∧
    (¬b.IsNaN → a.sign b ≤ 0 → b.sign c ≤ 0 → a.sign c ≤ 0) ∧
    (a.IsNaN ∨ b.IsNaN → a.sign b = 0) := by
  refine ⟨?_, ?_, Value.sign_swap first second, Value.sign_trans first second third,
    Value.sign_unordered first second⟩
  · obtain ⟨m, left⟩ := first
    obtain ⟨n, right⟩ := second
    rw [Value.sign_eq left right]
    exact Method.outcome_compareTo left right store
  · rintro x y rfl rfl
    exact Kind.outcome_compare x y store

/-- A letter, a double and a long number in order. -/
theorem mixedKinds_ordered :
    let letter : Value := .char [97]
    let half : Value := .double (.ofRat false (195 / 2))
    let next : Value := .long 98
    ¬half.IsNaN ∧ letter.sign half = -1 ∧ half.sign next = -1 ∧ letter.sign next ≤ 0 ∧
      (Method.invoke letter "compareTo" [half]).outcome Store.initial =
        (.ok (.int (-1)), Store.initial) := by
  intro letter half next
  have number : ¬half.IsNaN := by
    intro nan
    exact absurd nan (by decide +kernel : (Double.ofRat false (195 / 2)).isNaN ≠ true)
  have below : letter.sign half = -1 := by decide +kernel
  have above : half.sign next = -1 := by decide +kernel
  obtain ⟨answer, -, -, ordered, -⟩ := comparison_preorder (a := letter) (b := half) (c := next)
    ⟨_, rfl⟩ ⟨_, rfl⟩ ⟨_, rfl⟩ Store.initial
  rw [below] at answer
  exact ⟨number, below, above, ordered number (by rw [below]; decide) (by rw [above]; decide),
    answer⟩

/-- What is no number is equal to two and to one, although two is greater than one. -/
theorem notANumber_links :
    let two : Value := .double (.ofRat false 2)
    let one : Value := .double (.ofRat false 1)
    let nan : Value := .double .notANumber
    let compareTo (a b : Value) := (Method.invoke a "compareTo" [b]).outcome Store.initial
    let compare (a b : Value) :=
      (Kind.callStatic (.core (.boxed .double)) "compare" [a, b]).outcome Store.initial
    (compareTo two nan = (.ok (.int 0), Store.initial) ∧
      compareTo nan one = (.ok (.int 0), Store.initial) ∧
      compareTo two one = (.ok (.int 1), Store.initial)) ∧
    compare two nan = (.ok (.int 0), Store.initial) ∧
      compare nan one = (.ok (.int 0), Store.initial) ∧
      compare two one = (.ok (.int 1), Store.initial) := by
  have greater : (Number.floating (.ofRat false 2) false).sign (.floating (.ofRat false 1) false) =
      1 := by decide +kernel
  intro two one nan compareTo compare
  refine ⟨⟨?_, ?_, ?_⟩, rfl, rfl, ?_⟩
  · exact (Method.outcome_compareTo rfl rfl Store.initial).trans rfl
  · exact (Method.outcome_compareTo rfl rfl Store.initial).trans rfl
  · rw [← greater]
    exact Method.outcome_compareTo rfl rfl Store.initial
  · rw [← greater]
    exact Kind.outcome_compare _ _ Store.initial

end Formulary
