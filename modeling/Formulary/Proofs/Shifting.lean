/-
Shifts of whole operands.

The left operand alone decides on the width, and the count counts modulo that width. A shift to
the left is a product with a power of two, one to the right a quotient that goes down, and one to
the right that brings in zeros is the quotient of what the bits are without a sign.

* `wrap_unsigned` — without a sign, the quotient by a power of two is negative only if nothing is
  shifted.
* `WholeOperand.outcome_shift` — a shift looks at the left operand only for its width.
* `WholeOperand.shift_laws` — all three shifts, for every count.
-/

import Formulary.Proofs.Operands

namespace Formulary

/-! ### Integers -/

/-- What is left of an integer without a sign when some of its lowest bits are taken away. -/
def unsignedQuotient (a : Int) (bits count : Nat) : Int :=
  ⌊((a % 2 ^ bits : Int) : ℚ) / 2 ^ count⌋

theorem floor_div_two_pow (a : Int) (count : Nat) :
    ⌊(a : ℚ) / 2 ^ count⌋ = a / ((2 ^ count : Nat) : Int) := by
  rw [← Rat.floor_intCast_div_natCast]
  push_cast
  rfl

/-- Without a sign nothing is negative, and once something is shifted the highest bit is free. -/
theorem wrap_unsigned {a : Int} {bits count : Nat} (positive : 0 < bits) (inRange : InBits bits a) :
    (count = 0 → wrap (unsignedQuotient a bits count) bits = a) ∧
      (count ≠ 0 → 0 ≤ wrap (unsignedQuotient a bits count) bits) := by
  have modulus : (0 : Int) < 2 ^ bits := by positivity
  have nonneg : 0 ≤ a % 2 ^ bits := Int.emod_nonneg _ modulus.ne'
  have below : a % 2 ^ bits < 2 ^ bits := Int.emod_lt_of_pos _ modulus
  rw [unsignedQuotient, floor_div_two_pow]
  constructor
  · rintro rfl
    have same : wrap (a % 2 ^ bits) bits = wrap a bits :=
      wrap_congr (by push_cast; exact Int.mod_modEq _ _)
    rw [Nat.pow_zero, Nat.cast_one, Int.ediv_one, same, wrap_same positive inRange]
  · intro shifted
    have half : (2 : Int) ^ bits = 2 * 2 ^ (bits - 1) := by
      rw [← pow_succ', Nat.sub_add_cancel positive]
    have two : (2 : Int) ≤ ((2 ^ count : Nat) : Int) := by
      exact_mod_cast Nat.le_self_pow shifted 2
    have quotient_nonneg : 0 ≤ a % 2 ^ bits / ((2 ^ count : Nat) : Int) :=
      Int.ediv_nonneg nonneg (by omega)
    have quotient_below : a % 2 ^ bits / ((2 ^ count : Nat) : Int) < 2 ^ (bits - 1) := by
      refine Int.ediv_lt_of_lt_mul (by omega) (below.trans_le ?_)
      rw [half, mul_comm]
      exact mul_le_mul_of_nonneg_left two (by positivity)
    have free : InBits bits (a % 2 ^ bits / ((2 ^ count : Nat) : Int)) :=
      ⟨le_trans (by simp) quotient_nonneg, quotient_below⟩
    rw [wrap_same positive free]
    exact quotient_nonneg

/-! ### Operands -/

namespace WholeOperand

variable {left right : Value} {wide anyWidth : Bool} {a n : Int}

/-- **A shift looks at the left operand only for its width.** -/
theorem outcome_shift (hl : WholeOperand left wide a) (hr : WholeOperand right anyWidth n)
    {op : BinaryOp} (shifts : op ∈ [.shiftLeft, .shiftRight, .shiftRightUnsigned])
    (store : Store) :
    (Operation.binary op left right).outcome store =
      (Action.ofResult (.ok (Arithmetic.shift op a n wide))).outcome store := by
  obtain ⟨isLong, leftCounts, leftWide⟩ := hl.counts
  obtain ⟨isLong', rightCounts, -⟩ := hr.counts
  have shifted : Arithmetic.numbers op (.integer a isLong) (.integer n isLong') =
      .ok (Arithmetic.shift op a n wide) := by
    rw [← leftWide]
    simp only [List.mem_cons, List.not_mem_nil, or_false] at shifts
    obtain rfl | rfl | rfl := shifts <;> rfl
  have compares : op ≠ .eq ∧ op ≠ .ne := by
    constructor <;> rintro rfl <;> simp at shifts
  rw [Operation.outcome_numbers compares hl.numeric hr.numeric leftCounts rightCounts, shifted]

/-- How many bits a count shifts by. -/
def shiftCount (wide : Bool) (n : Int) : Nat :=
  (n % widthOf wide).toNat

theorem shiftCount_cast (wide : Bool) (n : Int) : (shiftCount wide n : Int) = n % widthOf wide :=
  Int.toNat_of_nonneg (Int.emod_nonneg _ (by have := widthOf_pos wide; omega))

/-- The results of the three shifts, before they are cut off. -/
theorem shift_eq (a n : Int) (wide : Bool) :
    Arithmetic.shift .shiftLeft a n wide = integral (a * 2 ^ shiftCount wide n) wide ∧
      Arithmetic.shift .shiftRight a n wide =
        integral ⌊(a : ℚ) / 2 ^ shiftCount wide n⌋ wide ∧
      Arithmetic.shift .shiftRightUnsigned a n wide =
        integral (unsignedQuotient a (widthOf wide) (shiftCount wide n)) wide := by
  refine ⟨?_, ?_, ?_⟩
  · change integral (a * ((1 <<< shiftCount wide n : Nat) : Int)) wide = _
    rw [shift_cast]
  · change integral (a / ((1 <<< shiftCount wide n : Nat) : Int)) wide = _
    rw [floor_div_two_pow, Nat.one_shiftLeft]
  · change integral (a % ((1 <<< widthOf wide : Nat) : Int) /
      ((1 <<< shiftCount wide n : Nat) : Int)) wide = _
    rw [unsignedQuotient, floor_div_two_pow, shift_cast (widthOf wide), Nat.one_shiftLeft]

/-- **The law of the shifts.** The count counts modulo the width of the left operand, and the
result has the kind of the left operand, whatever the count is. It is cut off to the width: the
product with a power of two, the quotient that goes down, and the quotient of what the bits are
without a sign, which is negative only if nothing is shifted. -/
theorem shift_laws (hl : WholeOperand left wide a) (hr : WholeOperand right anyWidth n)
    (store : Store) :
    ∃ m : Nat, m < widthOf wide ∧ n ≡ m [ZMOD widthOf wide] ∧ ∃ product down unsigned : Int,
      LowOrderExpr.CutOff (widthOf wide) (a * 2 ^ m) product ∧
      LowOrderExpr.CutOff (widthOf wide) ⌊(a : ℚ) / 2 ^ m⌋ down ∧
      LowOrderExpr.CutOff (widthOf wide) ⌊((a % 2 ^ widthOf wide : Int) : ℚ) / 2 ^ m⌋ unsigned ∧
      (InBits (widthOf wide) a → (m = 0 → unsigned = a) ∧ (m ≠ 0 → 0 ≤ unsigned)) ∧
      (Operation.binary .shiftLeft left right).outcome store =
        (.ok (integerOf wide product), store) ∧
      (Operation.binary .shiftRight left right).outcome store =
        (.ok (integerOf wide down), store) ∧
      (Operation.binary .shiftRightUnsigned left right).outcome store =
        (.ok (integerOf wide unsigned), store) := by
  have positive := widthOf_pos wide
  have cutOff (i : Int) :
      LowOrderExpr.CutOff (widthOf wide) i (wrap i (widthOf wide)) :=
    ⟨wrap_inBits i positive, wrap_modEq i _⟩
  have counts := shiftCount_cast wide n
  have short : shiftCount wide n < widthOf wide := by
    have := Int.emod_lt_of_pos n (show (0 : Int) < widthOf wide by omega)
    omega
  obtain ⟨shiftsLeft, shiftsRight, shiftsUnsigned⟩ := shift_eq a n wide
  refine ⟨shiftCount wide n, short, ?_, _, _, _, cutOff _, cutOff _, cutOff _,
    wrap_unsigned positive, ?_, ?_, ?_⟩
  · rw [counts]
    exact (Int.mod_modEq n _).symm
  · rw [hl.outcome_shift hr (by simp), shiftsLeft, integral_eq, outcome_integerOf]
  · rw [hl.outcome_shift hr (by simp), shiftsRight, integral_eq, outcome_integerOf]
  · rw [hl.outcome_shift hr (by simp), shiftsUnsigned, unsignedQuotient, integral_eq,
      outcome_integerOf]

/-- The least number of 32 bits is shifted by a negative long count, which counts as 28. -/
theorem negativeCount_shift :
    WholeOperand (.int (-2147483648)) false (-2147483648) ∧ WholeOperand (.long (-4)) true (-4) ∧
      (Operation.binary .shiftRightUnsigned (.int (-2147483648)) (.long (-4))).outcome
        Store.initial = (.ok (.int 8), Store.initial) := by
  have left := WholeOperand.int (-2147483648)
  have right := WholeOperand.long (-4)
  obtain ⟨m, short, counts, product, down, unsigned, -, -, ⟨inBits, agrees⟩, -, -, -, shifted⟩ :=
    shift_laws left right Store.initial
  have width : widthOf (!fitsInt (-2147483648)) = 32 := by decide
  rw [width] at short counts inBits agrees
  obtain rfl : m = 28 := by
    have : (-4 : Int) % 32 = m % 32 := counts
    omega
  have exactly : ⌊((-2147483648 % 2 ^ 32 : Int) : ℚ) / 2 ^ 28⌋ = 8 := by
    rw [floor_div_two_pow]
    decide
  obtain rfl : unsigned = 8 := by
    rw [exactly] at agrees
    obtain ⟨lower, upper⟩ := inBits
    have : unsigned % 4294967296 = 8 % 4294967296 := agrees
    omega
  exact ⟨left, right, shifted⟩

end WholeOperand

end Formulary
