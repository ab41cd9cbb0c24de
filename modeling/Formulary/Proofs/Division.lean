/-
Quotients and remainders of whole operands.

There are two divisions: the operators cut a quotient off toward zero and give a remainder with
the sign of the dividend, the functions of the class `Math` go down and give one with the sign of
the divisor. Both belong together in the same way: the quotient times the divisor and the
remainder are the dividend again, although every step is cut off to the width of the operands.

* `together_wrapped` — what is put together again, cut off at every step.
* `quotient_inBits` — the one quotient that has no room is that of the least number by minus one.
* `Division.whole_laws` — both divisions, for operands of any width.
-/

import Formulary.Proofs.Operands

namespace Formulary

/-! ### Integers -/

/-- A dividend is put together again from a quotient and a remainder, cut off at every step. -/
theorem together_wrapped {bits : Nat} {a b q r : Int} (positive : 0 < bits)
    (inRange : InBits bits a) (together : q * b + r = a) :
    wrap (wrap (wrap q bits * b) bits + wrap r bits) bits = a := by
  have product : wrap (wrap q bits * b) bits ≡ q * b [ZMOD (2 ^ bits : Nat)] :=
    (wrap_modEq _ bits).trans ((wrap_modEq q bits).mul_right b)
  have sum : wrap (wrap q bits * b) bits + wrap r bits ≡ a [ZMOD (2 ^ bits : Nat)] := by
    rw [← together]
    exact product.add (wrap_modEq r bits)
  rw [wrap_congr sum, wrap_same positive inRange]

/-- A remainder is smaller than its divisor, so it has room where the divisor has. -/
theorem remainder_inBits {bits : Nat} {b r : Int} (inRange : InBits bits b)
    (small : r.natAbs < b.natAbs) : InBits bits r := by
  obtain ⟨lower, upper⟩ := inRange
  rw [InBits]
  generalize (2 : Int) ^ (bits - 1) = bound at lower upper
  omega

/-- A quotient that is not larger than its dividend has room where the dividend has, unless it is
that of the least number by minus one. -/
theorem quotient_inBits {bits : Nat} {a b q r : Int} (leftRange : InBits bits a)
    (rightRange : InBits bits b) (together : q * b + r = a) (small : r.natAbs < b.natAbs)
    (notLarger : q.natAbs ≤ a.natAbs) (regular : ¬(a = -2 ^ (bits - 1) ∧ b = -1)) :
    InBits bits q := by
  obtain ⟨lower, upper⟩ := leftRange
  obtain ⟨divisorLower, divisorUpper⟩ := rightRange
  rw [InBits]
  generalize (2 : Int) ^ (bits - 1) = bound at *
  refine ⟨by omega, ?_⟩
  by_contra large
  -- Only the magnitude of the least number is out of range, and it is a multiple of itself only.
  obtain rfl : a = -bound := by omega
  obtain rfl : q = bound := by omega
  have multiple : q * (b + 1) = -r := by linear_combination together
  obtain above | above : b + 1 ≤ -1 ∨ 1 ≤ b + 1 := by omega
  · have : q * (b + 1) ≤ -q := by nlinarith
    omega
  · have : q ≤ q * (b + 1) := by nlinarith
    omega

/-- The least number by minus one is cut off to the least number. -/
theorem wrap_bound {bits : Nat} (positive : 0 < bits) :
    wrap (2 ^ (bits - 1)) bits = -2 ^ (bits - 1) := by
  have least : InBits bits (-2 ^ (bits - 1)) := by
    have : (0 : Int) < 2 ^ (bits - 1) := by positivity
    rw [InBits]
    omega
  have agree : (2 : Int) ^ (bits - 1) ≡ -2 ^ (bits - 1) [ZMOD (2 ^ bits : Nat)] := by
    refine (Int.modEq_iff_dvd.mpr ⟨1, ?_⟩).symm
    obtain ⟨k, rfl⟩ := Nat.exists_eq_add_of_lt positive
    push_cast
    rw [Nat.zero_add]
    ring
  rw [wrap_congr agree, wrap_same positive least]

/-- A quotient toward negative infinity is not larger than its dividend. -/
theorem natAbs_fdiv_le (a : Int) {b : Int} (given : b ≠ 0) : (a.fdiv b).natAbs ≤ a.natAbs := by
  have magnitudes (a b : Int) (positive : 0 < b) : (a.fdiv b).natAbs ≤ a.natAbs := by
    rw [Int.fdiv_eq_ediv_of_nonneg a positive.le]
    exact Int.natAbs_ediv_le_natAbs a b
  obtain negative | positive := lt_or_gt_of_ne given
  · have := magnitudes (-a) (-b) (by omega)
    rwa [Int.neg_fdiv_neg, Int.natAbs_neg] at this
  · exact magnitudes a b positive

/-! ### Divisions -/

/-- A quotient and the remainder that belongs to it. -/
structure Division where
  quotient : Value → Value → Action Value
  remainder : Value → Value → Action Value

namespace Division

/-- The operators. -/
def truncated : Division :=
  ⟨Operation.binary .div, Operation.binary .rem⟩

/-- The functions of the class `Math`. -/
def floored : Division :=
  ⟨fun left right => Host.call (.hostFunction (.math .floorDiv)) [left, right],
    fun left right => Host.call (.hostFunction (.math .floorMod)) [left, right]⟩

/-- The quotient times the divisor, and the remainder. -/
def together (division : Division) (left right : Value) : Action Value := do
  let product ← Operation.binary .mul (← division.quotient left right) right
  Operation.binary .add product (← division.remainder left right)

/-- What a division owes to the operands `a` and `b` of a width: the exact quotient, except that
the least number by minus one is the least number; a remainder smaller than the divisor, with the
sign of one of the operands; and the dividend, when both are put together. -/
structure Laws (division : Division) (wide : Bool) (left right : Value) (a b quotient sign : Int)
    (store : Store) : Prop where
  exactQuotient : (division.quotient left right).outcome store =
    (.ok (integerOf wide (if a = -2 ^ (widthOf wide - 1) ∧ b = -1 then a else quotient)), store)
  smallRemainder : ∃ r : Int, (division.remainder left right).outcome store =
    (.ok (integerOf wide r), store) ∧ r.natAbs < b.natAbs ∧ (r = 0 ∨ r.sign = sign.sign)
  dividend : (division.together left right).outcome store = (.ok (integerOf wide a), store)

/-- How a division works on whole operands: by a quotient and a remainder of integers, which are
cut off to the width of the operands. -/
structure Computes (division : Division) (quotient remainder : Int → Int → Int) : Prop where
  quotient_outcome {left right : Value} {wideLeft wideRight : Bool} {a b : Int}
    (hl : WholeOperand left wideLeft a) (hr : WholeOperand right wideRight b) (store : Store) :
    (division.quotient left right).outcome store = (Action.ofResult
      (if b = 0 then .error (.evaluation .divisionByZero)
        else .ok (integral (quotient a b) (wideLeft || wideRight)))).outcome store
  remainder_outcome {left right : Value} {wideLeft wideRight : Bool} {a b : Int}
    (hl : WholeOperand left wideLeft a) (hr : WholeOperand right wideRight b) (store : Store) :
    (division.remainder left right).outcome store = (Action.ofResult
      (if b = 0 then .error (.evaluation .divisionByZero)
        else .ok (integral (remainder a b) (wideLeft || wideRight)))).outcome store
  exactly (a b : Int) : quotient a b * b + remainder a b = a
  small (a : Int) {b : Int} (given : b ≠ 0) : (remainder a b).natAbs < b.natAbs
  notLarger (a : Int) {b : Int} (given : b ≠ 0) : (quotient a b).natAbs ≤ a.natAbs

theorem truncated_computes : truncated.Computes Int.tdiv Int.tmod where
  quotient_outcome hl hr store := by
    rw [truncated, hl.outcome_integers hr (by decide)]
    rfl
  remainder_outcome hl hr store := by
    rw [truncated, hl.outcome_integers hr (by decide)]
    rfl
  exactly := Int.tdiv_mul_add_tmod
  small a b given := by
    rw [Int.natAbs_tmod]
    exact Nat.mod_lt _ (by omega)
  notLarger a b _ := Int.natAbs_tdiv_le_natAbs a b

/-- A function of the class on whole operands. -/
theorem floored_integers {left right : Value} {wideLeft wideRight : Bool} {a b : Int}
    (hl : WholeOperand left wideLeft a) (hr : WholeOperand right wideRight b)
    (f : Int → Int → Int) : MathFunction.floored f left right =
      if b = 0 then .error (.evaluation .divisionByZero)
      else .ok (integral (f a b) (wideLeft || wideRight)) := by
  obtain ⟨isLong, leftCounts, leftWide⟩ := hl.counts
  obtain ⟨isLong', rightCounts, rightWide⟩ := hr.counts
  have zero : (Number.integer b isLong').compare? (.integer 0 false) = some .eq ↔ b = 0 := by
    rw [Number.compare?, Option.some_inj, Int.compare_eq_eq]
  rw [MathFunction.floored, leftCounts, rightCounts, ← leftWide, ← rightWide]
  simp only [bind, Except.bind, zero]
  split <;> rfl

theorem floored_computes : floored.Computes Int.fdiv Int.fmod where
  quotient_outcome hl hr store :=
    congrArg (fun result => (Action.ofResult result).outcome store) (floored_integers hl hr _)
  remainder_outcome hl hr store :=
    congrArg (fun result => (Action.ofResult result).outcome store) (floored_integers hl hr _)
  exactly := Int.fdiv_mul_add_fmod
  small a b given := by
    obtain negative | positive := lt_or_gt_of_ne given
    · have := Int.fmod_nonneg_of_pos (-a) (show 0 < -b by omega)
      have := Int.fmod_lt_of_pos (-a) (show 0 < -b by omega)
      rw [Int.neg_fmod_neg] at *
      omega
    · have := Int.fmod_nonneg_of_pos a positive
      have := Int.fmod_lt_of_pos a positive
      omega
  notLarger a _ given := natAbs_fdiv_le a given

/-! ### Laws -/

variable {division : Division} {quotient remainder : Int → Int → Int}
  {left right : Value} {wideLeft wideRight : Bool} {a b : Int}

/-- The laws of a division on operands that have the width of their kinds. -/
theorem Computes.laws (computes : division.Computes quotient remainder)
    (hl : WholeOperand left wideLeft a) (hr : WholeOperand right wideRight b)
    (leftRange : InBits (widthOf wideLeft) a) (rightRange : InBits (widthOf wideRight) b)
    (given : b ≠ 0) {sign : Int} (signed : remainder a b = 0 ∨ (remainder a b).sign = sign.sign)
    (store : Store) :
    division.Laws (wideLeft || wideRight) left right a b (quotient a b) sign store := by
  have leftRange := inBits_left leftRange wideRight
  have rightRange := inBits_right rightRange wideLeft
  have exactly := computes.exactly a b
  have small := computes.small a given
  have notLarger := computes.notLarger a given
  have quotientIs := computes.quotient_outcome hl hr store
  have remainderIs := computes.remainder_outcome hl hr store
  rw [if_neg given, integral_eq, outcome_integerOf] at quotientIs remainderIs
  obtain ⟨wide, isWide⟩ : ∃ wide, wide = (wideLeft || wideRight) := ⟨_, rfl⟩
  have widest : (wide || wideRight) = wide := by rw [isWide, Bool.or_assoc, Bool.or_self]
  rw [← isWide] at leftRange rightRange quotientIs remainderIs ⊢
  have positive := widthOf_pos wide
  have whole (i : Int) : WholeOperand (integerOf wide (wrap i (widthOf wide))) wide
      (wrap i (widthOf wide)) := .ofInteger (wrap_inBits i positive)
  refine ⟨?exactQuotient, ?smallRemainder, ?dividend⟩
  case exactQuotient =>
    rw [quotientIs]
    split
    · next least =>
      obtain ⟨isLeast, rfl⟩ := least
      have magnitude : quotient a (-1) = 2 ^ (widthOf wide - 1) := by omega
      rw [magnitude, wrap_bound positive, isLeast]
    · next regular =>
      rw [wrap_same positive
        (quotient_inBits leftRange rightRange exactly small notLarger regular)]
  case smallRemainder =>
    refine ⟨remainder a b, ?_, small, signed⟩
    rw [remainderIs, wrap_same positive (remainder_inBits rightRange small)]
  case dividend =>
    have product := (whole (quotient a b)).outcome_mul hr store
    rw [widest] at product
    have sum := (whole (wrap (quotient a b) (widthOf wide) * b)).outcome_add
      (whole (remainder a b)) store
    rw [Bool.or_self, together_wrapped positive leftRange exactly] at sum
    rw [together, Action.outcome_bind, quotientIs]
    dsimp only
    rw [Action.outcome_bind, product]
    dsimp only
    rw [Action.outcome_bind, remainderIs]
    exact sum

theorem tmod_signed (a b : Int) : a.tmod b = 0 ∨ (a.tmod b).sign = a.sign := by
  rw [Int.sign_tmod]
  split
  · next divides => exact .inl (Int.tmod_eq_zero_of_dvd divides)
  · exact .inr rfl

theorem fmod_signed (a : Int) {b : Int} (given : b ≠ 0) :
    a.fmod b = 0 ∨ (a.fmod b).sign = b.sign := by
  by_cases zero : a.fmod b = 0
  · exact .inl zero
  · refine .inr ?_
    obtain negative | positive := lt_or_gt_of_ne given
    · have := Int.fmod_nonneg_of_pos (-a) (show 0 < -b by omega)
      rw [Int.neg_fmod_neg] at this
      rw [Int.sign_eq_neg_one_of_neg negative, Int.sign_eq_neg_one_of_neg (by omega)]
    · have := Int.fmod_nonneg_of_pos a positive
      rw [Int.sign_eq_one_of_pos positive, Int.sign_eq_one_of_pos (by omega)]

/-- **Quotients and remainders belong together at every width.** On operands that have the width
of their kinds the operators cut the quotient off toward zero and leave a remainder with the sign
of the dividend, the functions of the class `Math` go down and leave one with the sign of the
divisor, and either quotient times the divisor and the remainder are the dividend in the wider of
the two kinds. By zero nothing is divided. -/
theorem whole_laws (hl : WholeOperand left wideLeft a) (hr : WholeOperand right wideRight b)
    (leftRange : InBits (widthOf wideLeft) a) (rightRange : InBits (widthOf wideRight) b)
    (store : Store) :
    (b ≠ 0 →
      truncated.Laws (wideLeft || wideRight) left right a b (a.tdiv b) a store ∧
      floored.Laws (wideLeft || wideRight) left right a b (a.fdiv b) b store) ∧
    (b = 0 → ∀ operation ∈ [truncated.quotient, truncated.remainder, floored.quotient,
        floored.remainder],
      (operation left right).outcome store = (.error (.evaluation .divisionByZero), store)) := by
  constructor
  · intro given
    exact ⟨truncated_computes.laws hl hr leftRange rightRange given (tmod_signed a b) store,
      floored_computes.laws hl hr leftRange rightRange given (fmod_signed a given) store⟩
  · rintro rfl operation isIn
    have fails (result : Value) : (Action.ofResult
        (if (0 : Int) = 0 then .error (.evaluation .divisionByZero)
          else .ok result)).outcome store =
          (.error (.evaluation .divisionByZero), store) := rfl
    simp only [List.mem_cons, List.not_mem_nil, or_false] at isIn
    obtain rfl | rfl | rfl | rfl := isIn
    · rw [truncated_computes.quotient_outcome hl hr, fails]
    · rw [truncated_computes.remainder_outcome hl hr, fails]
    · rw [floored_computes.quotient_outcome hl hr, fails]
    · rw [floored_computes.remainder_outcome hl hr, fails]

/-- The least long integer by minus one, which comes as an `int`, has no room for its quotient. -/
theorem leastByMinusOne_laws :
    WholeOperand (.long (-2 ^ 63)) true (-2 ^ 63) ∧ WholeOperand (.int (-1)) false (-1) ∧
      InBits 64 (-2 ^ 63) ∧ InBits 32 (-1) ∧
      truncated.Laws true (.long (-2 ^ 63)) (.int (-1)) (-2 ^ 63) (-1) (2 ^ 63) (-2 ^ 63)
        Store.initial ∧
      floored.Laws true (.long (-2 ^ 63)) (.int (-1)) (-2 ^ 63) (-1) (2 ^ 63) (-1)
        Store.initial := by
  have left : InBits 64 (-2 ^ 63) := by simp [InBits]
  have right : InBits 32 (-1) := by simp [InBits]
  obtain ⟨truncatedLaws, flooredLaws⟩ := (whole_laws (.long (-2 ^ 63)) (.int (-1)) left right
    Store.initial).1 (by decide)
  exact ⟨.long _, .int _, left, right, truncatedLaws, flooredLaws⟩

end Division

end Formulary
