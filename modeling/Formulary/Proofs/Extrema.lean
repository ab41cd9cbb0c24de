/-
The greater and the smaller of two numbers.

The kind of the result is the one that both numbers are promoted to, and the result is one of them
in this kind, or no number as soon as one of them is none. Where both are equal the left one is
taken. That is the same double as the right one unless they are zeros of opposite signs: only then
the order of the arguments makes a difference.

* `Double.extremum_comm` — two doubles, but for zeros of opposite signs.
* `Arithmetic.IsExtremum`, `Arithmetic.extremum_ok` — what the greater or the smaller of two numbers
  is.
* `MathFunction.extremum_symmetric` — `Math.max` and `Math.min` with their arguments swapped.
-/

import Formulary.Proofs.NumberOrder
import Formulary.Proofs.OperatorFaults
import Formulary.Proofs.Promotion

namespace Formulary

/-! ### Doubles -/

namespace Double

/-- The greater or the smaller of two doubles, the left one where they are equal. -/
def extremum (larger : Bool) (x y : Double) : Double :=
  if x.isNaN || y.isNaN then notANumber
  else if x.compare? y = some (if larger then .lt else .gt) then y
  else x

/-- Zeros of opposite signs. -/
def OppositeZeros (x y : Double) : Prop :=
  x.isZero = true ∧ y.isZero = true ∧ x.isNegative ≠ y.isNegative

theorem OppositeZeros.symm {x y : Double} (opposite : OppositeZeros x y) : OppositeZeros y x :=
  ⟨opposite.2.1, opposite.1, opposite.2.2.symm⟩

/-- Doubles that compare as equal are the same unless they are zeros of opposite signs. -/
theorem eq_of_compare? {x y : Double} (equal : x.compare? y = some .eq)
    (same : ¬OppositeZeros x y) : x = y := by
  cases x with
  | nan mark => cases equal
  | signed negative index =>
    cases y with
    | nan mark => cases negative <;> cases equal
    | signed negative' index' =>
      have places : (if negative then -(index.val : Int) else index.val) =
          if negative' then -(index'.val : Int) else index'.val := by
        cases negative <;> cases negative' <;>
          exact compare_eq_iff_eq.mp (Option.some.inj equal)
      by_cases signs : negative = negative'
      · subst signs
        have index_eq : index = index' := Fin.ext (by cases negative <;> simpa using places)
        rw [index_eq]
      · refine absurd ⟨?_, ?_, signs⟩ same
        · cases negative <;> cases negative' <;> simp_all [isZero]
        · cases negative <;> cases negative' <;> simp_all [isZero]

theorem compare?_swap (x y : Double) : y.compare? x = (x.compare? y).map Ordering.swap := by
  rw [compare?, compare?]
  cases x.rank? <;> cases y.rank? <;> simp [Int.compare_swap]

/-- Only what is no number does not compare. -/
theorem compare?_isSome {x y : Double} (left : x.isNaN = false) (right : y.isNaN = false) :
    ∃ order, x.compare? y = some order := by
  obtain ⟨p, -, xRank, -⟩ := exists_place left
  obtain ⟨q, -, yRank, -⟩ := exists_place right
  exact ⟨compare p q, by rw [compare?, xRank, yRank]⟩

theorem extremum_comm (larger : Bool) {x y : Double} (same : ¬OppositeZeros x y) :
    extremum larger x y = extremum larger y x := by
  by_cases nan : x.isNaN || y.isNaN
  · rw [extremum, extremum, if_pos nan, if_pos (by rwa [Bool.or_comm])]
  · have numbers : x.isNaN = false ∧ y.isNaN = false := by simpa using nan
    obtain ⟨order, compared⟩ := compare?_isSome numbers.1 numbers.2
    have swapped := compare?_swap x y
    have nan' : ¬(y.isNaN || x.isNaN) = true := by rwa [Bool.or_comm]
    rw [compared] at swapped
    rw [extremum, extremum, if_neg nan, if_neg nan', compared, swapped]
    cases order with
    | eq =>
      rw [eq_of_compare? compared same]
      simp
    | lt => cases larger <;> simp
    | gt => cases larger <;> simp

theorem extremum_left (larger : Bool) {x y : Double} (opposite : OppositeZeros x y) :
    extremum larger x y = x := by
  obtain ⟨left, right, -⟩ := opposite
  cases x with
  | nan mark => cases left
  | signed negative index =>
    cases y with
    | nan mark => cases right
    | signed negative' index' =>
      obtain rfl : index = 0 := Fin.ext (by simpa [isZero] using left)
      obtain rfl : index' = 0 := Fin.ext (by simpa [isZero] using right)
      have equal : (signed negative 0).compare? (signed negative' 0) = some .eq := by
        cases negative <;> cases negative' <;> rfl
      rw [extremum, equal]
      cases larger <;> simp [isNaN]

theorem extremum_isNaN (larger : Bool) (x y : Double) :
    (extremum larger x y).isNaN = (x.isNaN || y.isNaN) := by
  rw [extremum]
  split
  · next nan =>
    rw [nan]
    rfl
  · next number =>
    have numbers : x.isNaN = false ∧ y.isNaN = false := by simpa using number
    by_cases right : x.compare? y = some (if larger then .lt else .gt)
    · rw [if_pos right, numbers.1, numbers.2]
      rfl
    · rw [if_neg right, numbers.1, numbers.2]
      rfl

theorem isNaN_toSingle (x : Double) : x.toSingle.isNaN = x.isNaN := by
  cases x with
  | nan mark => rfl
  | signed negative index =>
    rw [toSingle]
    split
    · rfl
    · dsimp only
      split
      · rfl
      · exact isNaN_ofRat _ _

end Double

/-! ### Numbers -/

namespace Number

/-- The type that a number is promoted from: an integer that takes 64 bits is a `long`. -/
def type : Number → Primitive
  | .integer i isLong => if (integer i isLong).isWide then .long else .int
  | .floating _ true => .float
  | .floating _ false => .double

/-- Numbers that are promoted to zeros of opposite signs. One of them is floating, as no integer is
a negative zero. -/
def OppositeZeros (a b : Number) : Prop :=
  (a.isFloating = true ∨ b.isFloating = true) ∧
    ∃ x y, a.toDouble = .ok x ∧ b.toDouble = .ok y ∧ x.OppositeZeros y

/-- A number is a double unless it is an integer that is too large. -/
theorem toDouble_or (a : Number) :
    (∃ x, a.toDouble = .ok x) ∨ a.toDouble = .error (.host .overflow) ∧ a.BeyondDoubles := by
  by_cases large : a.BeyondDoubles
  · exact .inr ⟨(toDouble_refuses a .overflow).mpr ⟨rfl, large⟩, large⟩
  · refine .inl ?_
    cases a with
    | integer i isLong =>
      have finite := (Double.isFinite_ofRat_iff false (i : Rat)).mpr (not_le.mp large)
      exact ⟨_, by rw [toDouble, Double.ofInt?, if_pos finite]⟩
    | floating x isSingle => cases isSingle <;> exact ⟨_, rfl⟩

/-- Being a double does not change whether something is a number. -/
theorem isNaN_toDouble {a : Number} {x : Double} (double : a.toDouble = .ok x) :
    x.isNaN = true ↔ a.extent? = none := by
  cases a with
  | integer i isLong =>
    refine iff_of_false (fun nan => ?_) nofun
    rw [toDouble, Double.ofInt?] at double
    split at double
    · next y found =>
      cases double
      split at found
      · cases found
        rw [Double.isNaN_ofRat] at nan
        cases nan
      · cases found
    · cases double
  | floating y isSingle =>
    rw [extent?, Double.extent?_eq_none]
    cases isSingle with
    | false =>
      cases double
      rfl
    | true =>
      cases double
      split
      · next nan => exact iff_of_true rfl nan
      · rfl

end Number

theorem Value.isNaN_floatingValue (x : Double) (single : Bool) :
    (floatingValue x single).IsNaN ↔ x.isNaN = true := by
  cases single with
  | false => rfl
  | true =>
    change x.toSingle.isNaN = true ↔ _
    rw [Double.isNaN_toSingle]

/-- A mark does not make a number of what is none. -/
theorem Value.Settles.isNaN {value settled : Value} (same : value.Settles settled) :
    settled.IsNaN ↔ value.IsNaN := by
  cases same <;> rfl

theorem Value.Settles.eq_of_number {value settled : Value} (same : value.Settles settled)
    (number : ¬value.IsNaN) : settled = value := by
  cases same with
  | same => rfl
  | double | single => exact absurd rfl number

/-! ### Promotion -/

namespace Number

variable {a b : Number}

/-- Integers are promoted to `long` if one of them takes 64 bits. -/
theorem promotedType_integers (i j : Int) (isLong isLong' : Bool) :
    promotedType (integer i isLong).type (integer j isLong').type =
      if (integer i isLong).isWide || (integer j isLong').isWide then .long else .int := by
  rw [type, type]
  cases (integer i isLong).isWide <;> cases (integer j isLong').isWide <;> rfl

/-- Beside a floating number both are promoted to `double` if one of them is a double. -/
theorem promotedType_floating (floating : a.isFloating = true ∨ b.isFloating = true) :
    promotedType a.type b.type = if !(a.isDouble || b.isDouble) then .float else .double := by
  have integral (i : Int) (isLong : Bool) :
      (integer i isLong).type = .long ∨ (integer i isLong).type = .int := by
    rw [type]
    split
    · exact .inl rfl
    · exact .inr rfl
  cases a with
  | integer i isLong =>
    cases b with
    | integer j isLong' => obtain h | h := floating <;> cases h
    | floating y isSingle =>
      obtain long | int := integral i isLong
      · rw [long]
        cases isSingle <;> rfl
      · rw [int]
        cases isSingle <;> rfl
  | floating x isSingle =>
    cases b with
    | integer j isLong' =>
      obtain long | int := integral j isLong'
      · rw [long]
        cases isSingle <;> rfl
      · rw [int]
        cases isSingle <;> rfl
    | floating y isSingle' => cases isSingle <;> cases isSingle' <;> rfl

/-- A number in the type that two numbers are promoted to. -/
theorem castNumber_floating {type : Primitive} {x : Double} {single : Bool}
    (isType : type = if single then .float else .double) (double : a.toDouble = .ok x) :
    type.castNumber a = .ok (floatingValue x single) := by
  cases single with
  | false =>
    subst isType
    simp only [Primitive.castNumber, double]
    rfl
  | true =>
    subst isType
    simp only [Primitive.castNumber, double]
    rfl

theorem castNumber_integer {type : Primitive} {wide : Bool} (i : Int) (isLong : Bool)
    (isType : type = if wide then .long else .int) :
    type.castNumber (.integer i isLong) = .ok (integral i wide) := by
  cases wide <;> subst isType <;> rfl

end Number

/-! ### The greater and the smaller of two values -/

namespace Arithmetic

variable {left right : Value} {a b : Number} (larger : Bool)

theorem extremum_integers {i j : Int} {isLong isLong' : Bool}
    (leftCounts : Number.ofValue left = .ok (.integer i isLong))
    (rightCounts : Number.ofValue right = .ok (.integer j isLong')) :
    extremum larger left right = .ok (integral (if larger then max i j else min i j)
      ((Number.integer i isLong).isWide || (Number.integer j isLong').isWide)) := by
  have chosen : (if (some (compare i j) == some (if larger then Ordering.lt else .gt)) = true
      then j else i) = if larger then max i j else min i j := by
    obtain less | rfl | more := lt_trichotomy i j
    · rw [compare_lt_iff_lt.mpr less, max_eq_right less.le, min_eq_left less.le]
      cases larger <;> rfl
    · rw [compare_eq_iff_eq.mpr rfl, max_self, min_self]
      cases larger <;> rfl
    · rw [compare_gt_iff_gt.mpr more, max_eq_left more.le, min_eq_right more.le]
      cases larger <;> rfl
  rw [extremum, leftCounts, rightCounts, ← chosen]
  rfl

theorem extremum_floating (leftCounts : Number.ofValue left = .ok a)
    (rightCounts : Number.ofValue right = .ok b)
    (floating : a.isFloating = true ∨ b.isFloating = true) :
    extremum larger left right = (do
      let x ← a.toDouble
      let y ← b.toDouble
      return floatingValue (x.extremum larger y) !(a.isDouble || b.isDouble)) := by
  have chosen (x y : Double) (single : Bool) :
      (if (x.isNaN || y.isNaN) = true then return floatingValue .notANumber single
        else return floatingValue (if (x.compare? y ==
          some (if larger then Ordering.lt else .gt)) = true then y else x) single) =
      (return floatingValue (x.extremum larger y) single : Except Fault Value) := by
    simp only [Double.extremum, beq_iff_eq]
    split <;> rfl
  rw [extremum, leftCounts, rightCounts]
  dsimp only [bind, Except.bind]
  split
  · obtain floating | floating := floating <;> cases floating
  · simp only [chosen]

/-- What the greater or the smaller of two numbers is, if both can be promoted. -/
structure IsExtremum (left right : Value) (a b : Number) (result : Value) : Prop where
  holds : (promotedType a.type b.type).Holds result
  isNaN : result.IsNaN ↔ left.IsNaN ∨ right.IsNaN
  operand : result.IsNaN ∨ (promotedType a.type b.type).castNumber a = .ok result ∨
    (promotedType a.type b.type).castNumber b = .ok result
  leftZero : a.OppositeZeros b → (promotedType a.type b.type).castNumber a = .ok result

theorem isExtremum_integers {i j : Int} {isLong isLong' : Bool}
    (leftCounts : Number.ofValue left = .ok (.integer i isLong))
    (rightCounts : Number.ofValue right = .ok (.integer j isLong')) :
    IsExtremum left right (.integer i isLong) (.integer j isLong')
      (integral (if larger then max i j else min i j)
        ((Number.integer i isLong).isWide || (Number.integer j isLong').isWide)) := by
  have promoted := Number.promotedType_integers i j isLong isLong'
  have castLeft := Number.castNumber_integer i isLong promoted
  have castRight := Number.castNumber_integer j isLong' promoted
  have oneOf : (if larger then max i j else min i j) = i ∨
      (if larger then max i j else min i j) = j := by
    cases larger with
    | true => exact max_choice i j
    | false => exact min_choice i j
  have operand : (promotedType (Number.integer i isLong).type
        (Number.integer j isLong').type).castNumber (.integer i isLong) = .ok
        (integral (if larger then max i j else min i j)
          ((Number.integer i isLong).isWide || (Number.integer j isLong').isWide)) ∨
      (promotedType (Number.integer i isLong).type
        (Number.integer j isLong').type).castNumber (.integer j isLong') = .ok
        (integral (if larger then max i j else min i j)
          ((Number.integer i isLong).isWide || (Number.integer j isLong').isWide)) := by
    obtain taken | taken := oneOf
    · exact .inl (by rw [taken, castLeft])
    · exact .inr (by rw [taken, castRight])
  refine ⟨?_, ?_, .inr operand, ?_⟩
  · obtain taken | taken := operand <;> exact Primitive.castNumber_holds taken
  · have leftNumber := mt (Number.extent?_ofValue leftCounts).mpr nofun
    have rightNumber := mt (Number.extent?_ofValue rightCounts).mpr nofun
    refine iff_of_false ?_ (not_or.mpr ⟨leftNumber, rightNumber⟩)
    rw [integral]
    split <;> exact id
  · rintro ⟨floating | floating, -⟩ <;> cases floating

/-- The doubles of two numbers of which one is floating. -/
theorem doubles_of_promotable (floating : a.isFloating = true ∨ b.isFloating = true)
    (promotable : ¬Unpromotable a b) : ∃ x y, a.toDouble = .ok x ∧ b.toDouble = .ok y := by
  have notFloating {n : Number} (large : n.BeyondDoubles) : ¬n.isFloating = true := by
    cases n with
    | integer => exact Bool.false_ne_true
    | floating => exact large.elim
  obtain ⟨x, leftDouble⟩ | ⟨-, large⟩ := a.toDouble_or
  · obtain ⟨y, rightDouble⟩ | ⟨-, large⟩ := b.toDouble_or
    · exact ⟨x, y, leftDouble, rightDouble⟩
    · exact absurd (.inr ⟨floating.resolve_right (notFloating large), large⟩) promotable
  · exact absurd (.inl ⟨large, floating.resolve_left (notFloating large)⟩) promotable

theorem isExtremum_floating {x y : Double} (leftCounts : Number.ofValue left = .ok a)
    (rightCounts : Number.ofValue right = .ok b)
    (floating : a.isFloating = true ∨ b.isFloating = true) (leftDouble : a.toDouble = .ok x)
    (rightDouble : b.toDouble = .ok y) :
    IsExtremum left right a b
      (floatingValue (x.extremum larger y) !(a.isDouble || b.isDouble)) := by
  have promoted := Number.promotedType_floating floating
  have castLeft := Number.castNumber_floating promoted leftDouble
  have castRight := Number.castNumber_floating promoted rightDouble
  refine ⟨?_, ?_, ?_, ?_⟩
  · rw [promoted]
    cases !(a.isDouble || b.isDouble) with
    | false => trivial
    | true => exact Double.toSingle_isSingle _
  · rw [Value.isNaN_floatingValue, Double.extremum_isNaN, Bool.or_eq_true,
      Number.isNaN_toDouble leftDouble, Number.isNaN_toDouble rightDouble,
      Number.extent?_ofValue leftCounts, Number.extent?_ofValue rightCounts]
  · rw [castLeft, castRight, Double.extremum]
    split
    · left
      cases !(a.isDouble || b.isDouble) <;> rfl
    · by_cases right : x.compare? y = some (if larger then .lt else .gt)
      · rw [if_pos right]
        exact .inr (.inr rfl)
      · rw [if_neg right]
        exact .inr (.inl rfl)
  · rintro ⟨-, x', y', leftDouble', rightDouble', opposite⟩
    obtain rfl : x = x' := Except.ok.inj (leftDouble.symm.trans leftDouble')
    obtain rfl : y = y' := Except.ok.inj (rightDouble.symm.trans rightDouble')
    rw [castLeft, Double.extremum_left larger opposite]

/-- Zeros are numbers. -/
theorem opposite_numbers (leftCounts : Number.ofValue left = .ok a)
    (rightCounts : Number.ofValue right = .ok b) (opposite : a.OppositeZeros b) :
    ¬(left.IsNaN ∨ right.IsNaN) := by
  obtain ⟨-, x, y, leftDouble, rightDouble, leftZero, rightZero, -⟩ := opposite
  rw [← Number.extent?_ofValue leftCounts, ← Number.extent?_ofValue rightCounts,
    ← Number.isNaN_toDouble leftDouble, ← Number.isNaN_toDouble rightDouble]
  have number {z : Double} (zero : z.isZero = true) : ¬z.isNaN = true := by
    cases z with
    | nan mark => cases zero
    | signed => exact Bool.false_ne_true
  exact not_or.mpr ⟨number leftZero, number rightZero⟩

/-- A mark that the result gets changes nothing. -/
theorem IsExtremum.settles (leftCounts : Number.ofValue left = .ok a)
    (rightCounts : Number.ofValue right = .ok b) {result settled : Value}
    (h : IsExtremum left right a b result) (same : result.Settles settled) :
    IsExtremum left right a b settled := by
  refine ⟨h.holds.settles same, same.isNaN.trans h.isNaN, ?_, fun opposite => ?_⟩
  · by_cases nan : result.IsNaN
    · exact .inl (same.isNaN.mpr nan)
    · rw [same.eq_of_number nan]
      exact h.operand
  · rw [same.eq_of_number (mt h.isNaN.mp (opposite_numbers leftCounts rightCounts opposite))]
    exact h.leftZero opposite

theorem extremum_ok (leftCounts : Number.ofValue left = .ok a)
    (rightCounts : Number.ofValue right = .ok b) (promotable : ¬Unpromotable a b) :
    ∃ result, extremum larger left right = .ok result ∧ IsExtremum left right a b result ∧
      (¬a.OppositeZeros b → extremum larger right left = .ok result) := by
  by_cases floating : a.isFloating = true ∨ b.isFloating = true
  · obtain ⟨x, y, leftDouble, rightDouble⟩ := doubles_of_promotable floating promotable
    refine ⟨_, ?_, isExtremum_floating larger leftCounts rightCounts floating leftDouble
      rightDouble, fun distinct => ?_⟩
    · rw [extremum_floating larger leftCounts rightCounts floating, leftDouble, rightDouble]
      rfl
    · have same : ¬x.OppositeZeros y := fun opposite =>
        distinct ⟨floating, x, y, leftDouble, rightDouble, opposite⟩
      rw [extremum_floating larger rightCounts leftCounts floating.symm, leftDouble, rightDouble,
        Double.extremum_comm larger same, Bool.or_comm]
      rfl
  · rw [not_or] at floating
    cases a with
    | floating x isSingle => exact absurd rfl floating.1
    | integer i isLong =>
      cases b with
      | floating y isSingle => exact absurd rfl floating.2
      | integer j isLong' =>
        refine ⟨_, extremum_integers larger leftCounts rightCounts,
          isExtremum_integers larger leftCounts rightCounts, fun _ => ?_⟩
        rw [extremum_integers larger rightCounts leftCounts, max_comm, min_comm, Bool.or_comm]

theorem extremum_refuses (leftCounts : Number.ofValue left = .ok a)
    (rightCounts : Number.ofValue right = .ok b) (unpromotable : Unpromotable a b) :
    extremum larger left right = .error (.host .overflow) := by
  have floating : a.isFloating = true ∨ b.isFloating = true :=
    unpromotable.elim (fun h => .inr h.2) (fun h => .inl h.1)
  rw [extremum_floating larger leftCounts rightCounts floating]
  have refused {n : Number} (large : n.BeyondDoubles) : n.toDouble = .error (.host .overflow) :=
    (Number.toDouble_refuses n .overflow).mpr ⟨rfl, large⟩
  obtain ⟨large, -⟩ | ⟨-, large⟩ := unpromotable
  · rw [refused large]
    rfl
  · rw [refused large]
    obtain ⟨x, leftDouble⟩ | ⟨leftRefused, -⟩ := a.toDouble_or
    · rw [leftDouble]
      rfl
    · rw [leftRefused]
      rfl

end Arithmetic

/-! ### Swapped arguments -/

namespace MathFunction

theorem unpromotable_comm {a b : Number} : Unpromotable a b ↔ Unpromotable b a := by
  simp only [Unpromotable]
  tauto

theorem outcome_extremum {f : MathFunction} (isExtremum : f = .max ∨ f = .min) : ∃ larger,
    ∀ (left right : Value) (store : Store),
      (Host.callFunction (.math f) [left, right]).outcome store =
        (Action.ofResult (Arithmetic.extremum larger left right)).outcome store := by
  obtain rfl | rfl := isExtremum
  · exact ⟨true, fun _ _ _ => rfl⟩
  · exact ⟨false, fun _ _ _ => rfl⟩

/-- **The order of the arguments of `Math.max` and `Math.min`** makes no difference unless they are
zeros of opposite signs. The result is of the kind that both are promoted to, and it is no number
exactly where one of them is none; beside a floating number an integer that no double can hold is
refused in both orders. Of two zeros of opposite signs the left one is taken. -/
theorem extremum_symmetric {f : MathFunction} (isExtremum : f = .max ∨ f = .min)
    {left right : Value} {a b : Number} (leftCounts : Number.ofValue left = .ok a)
    (rightCounts : Number.ofValue right = .ok b) (store : Store) :
    let here := (Host.callFunction (.math f) [left, right]).outcome store
    let swapped := (Host.callFunction (.math f) [right, left]).outcome store
    (Unpromotable a b → here = (.error (.host .overflow), store) ∧ swapped = here) ∧
    (¬Unpromotable a b → ∃ result behind, here = (.ok result, behind) ∧
      Arithmetic.IsExtremum left right a b result ∧ (¬a.OppositeZeros b → swapped = here)) := by
  obtain ⟨larger, outcome⟩ := outcome_extremum isExtremum
  intro here swapped
  have ended : here = (Action.ofResult (Arithmetic.extremum larger left right)).outcome store :=
    outcome left right store
  have endedSwapped : swapped =
      (Action.ofResult (Arithmetic.extremum larger right left)).outcome store :=
    outcome right left store
  constructor
  · intro unpromotable
    rw [endedSwapped, ended, Arithmetic.extremum_refuses larger leftCounts rightCounts unpromotable,
      Arithmetic.extremum_refuses larger rightCounts leftCounts
        (unpromotable_comm.mp unpromotable)]
    exact ⟨rfl, rfl⟩
  · intro promotable
    obtain ⟨result, answer, isResult, symmetric⟩ :=
      Arithmetic.extremum_ok larger leftCounts rightCounts promotable
    obtain ⟨settled, behind, settles, -⟩ := Action.settle_ends result store
    refine ⟨settled, behind, ?_, isResult.settles leftCounts rightCounts (Action.settle_ok settles),
      fun distinct => ?_⟩
    · rw [ended, answer]
      exact settles
    · rw [ended, endedSwapped, answer, symmetric distinct]

/-- A long integer that no double can hold exactly, and the double next to it: as doubles they are
equal, and either order gives the double. -/
theorem neighbours_symmetric :
    let left : Value := .long (2 ^ 53 + 1)
    let right : Value := .double (.ofRat false (2 ^ 53))
    ¬Unpromotable (.integer (2 ^ 53 + 1) true) (.floating (.ofRat false (2 ^ 53)) false) ∧
      ¬(Number.integer (2 ^ 53 + 1) true).OppositeZeros (.floating (.ofRat false (2 ^ 53)) false) ∧
      (Host.callFunction (.math .max) [right, left]).outcome Store.initial =
        (Host.callFunction (.math .max) [left, right]).outcome Store.initial := by
  intro left right
  have finite : (Double.ofRat false ((2 ^ 53 + 1 : Int) : Rat)).isFinite = true := by
    decide +kernel
  have promotable : ¬Unpromotable (.integer (2 ^ 53 + 1) true)
      (.floating (.ofRat false (2 ^ 53)) false) := by
    rintro (⟨large, -⟩ | ⟨-, large⟩)
    · exact large.not_gt ((Double.isFinite_ofRat_iff false _).mp finite)
    · exact large
  have distinct : ¬(Number.integer (2 ^ 53 + 1) true).OppositeZeros
      (.floating (.ofRat false (2 ^ 53)) false) := by
    rintro ⟨-, x, y, -, rightDouble, -, zero, -⟩
    cases rightDouble
    exact absurd zero (by decide +kernel)
  obtain ⟨result, behind, -, -, same⟩ :=
    (@extremum_symmetric .max (.inl rfl) left right _ _ rfl rfl Store.initial).2 promotable
  exact ⟨promotable, distinct, same distinct⟩

/-- Of two zeros of opposite signs the left one is taken, so the order makes a difference. -/
theorem oppositeZeros_ordered :
    (Host.callFunction (.math .max) [.double (.zero true), .double (.zero false)]).outcome
        Store.initial = (.ok (.double (.zero true)), Store.initial) ∧
      (Host.callFunction (.math .max) [.double (.zero false), .double (.zero true)]).outcome
        Store.initial = (.ok (.double (.zero false)), Store.initial) ∧
      Double.zero true ≠ Double.zero false :=
  ⟨rfl, rfl, by decide⟩

end MathFunction

end Formulary
