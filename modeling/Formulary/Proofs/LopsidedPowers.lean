/-
The powers of two whose rounded decimals mislead.

Readings reach further above a power of two than below it. So of the two decimals with some number
of digits around a power the farther one may be read as the power and the nearer one not, and
rounding takes the nearer one. This needs a decimal place about as large as the last place of the
power: counted in a common unit, a look at all powers of single precision and all places finds three
powers, with eight digits each.

* `PowerTable.lopsided_all` — the places where it may happen.
* `rounded_mem_power`, `rounded_mem_readings` — where it does not, the rounded decimal is read as a
  number if any decimal with as many digits is.
* `lopsided_reads` — where it may happen it does.
-/

import Formulary.Proofs.DecimalGrids
import Formulary.Proofs.DoubleRounding

namespace Formulary

open Decimal

variable {v : Rat} {m e k : Int} {n : Nat} {d : Decimal}

/-! ### The search -/

namespace PowerTable

/-- The unit that all distances around a power of two are counted in, inverted. -/
def scale : Rat := 2 ^ 210 * 10 ^ 52

/-- Whether the farther of two neighbours may be read where the nearer one may not, if readings
reach as far as given on either side. -/
def misleads (near far nearReach farReach : Nat) : Bool :=
  near.ble far && far.ble farReach && nearReach.ble near

/-- Whether that may happen to the neighbours of the power `a - 210` of two at the decimal place
`b - 52`. Readings reach half a last place far on either side, up to what the first rounding
moves. -/
def lopsided (a b : Nat) : Bool :=
  let unit := 10 ^ b * 2 ^ 210
  let rest := 2 ^ a * 10 ^ 52 % unit
  let above := 2 ^ (max 61 (a - 23) - 1) * 10 ^ 52
  let below := 2 ^ (max 61 (a - 24) - 1) * 10 ^ 52
  let moved := 2 ^ (a - 53) * 10 ^ 52
  let movedBelow := 2 ^ (a - 54) * 10 ^ 52
  misleads rest (unit - rest) (below - movedBelow) (above + moved) ||
    misleads (unit - rest) rest (above - moved) (below + movedBelow)

/-- The powers and places where it may. -/
def lopsidedPlaces : List (Nat × Nat) := [(114, 16), (297, 71), (300, 72)]

/-- Among all powers of two and all places of one to eight digits there are three such places. -/
theorem lopsided_all : ((List.range 277).all fun a => (List.range 91).all fun b =>
    !lopsided (a + 61) b || lopsidedPlaces.contains (a + 61, b)) = true := by
  decide +kernel

theorem mem_lopsidedPlaces {a b : Nat} (lower : 61 ≤ a) (upper : a < 338) (few : b < 91)
    (found : lopsided a b = true) : (a, b) ∈ lopsidedPlaces := by
  have row := List.all_eq_true.mp lopsided_all (a - 61) (List.mem_range.mpr (by omega))
  have entry := List.all_eq_true.mp row b (List.mem_range.mpr few)
  rw [Nat.sub_add_cancel lower, found, Bool.not_true, Bool.false_or] at entry
  exact List.contains_iff_mem.mp entry

theorem scale_pos : 0 < scale := by
  rw [scale]
  positivity

theorem scaled_two {c : Nat} (same : (c : Int) = k + 210) :
    ((2 ^ c * 10 ^ 52 : Nat) : Rat) = 2 ^ k * scale := by
  have power : (2 : Rat) ^ c = 2 ^ k * 2 ^ 210 := by
    rw [← zpow_natCast, same, zpow_add₀ two_ne_zero]
    rfl
  rw [Nat.cast_mul, Nat.cast_pow, Nat.cast_pow, Nat.cast_ofNat, Nat.cast_ofNat, power, scale,
    mul_assoc]

theorem scaled_ten {b : Nat} {p : Int} (same : (b : Int) = p + 52) :
    ((10 ^ b * 2 ^ 210 : Nat) : Rat) = 10 ^ p * scale := by
  have power : (10 : Rat) ^ b = 10 ^ p * 10 ^ 52 := by
    rw [← zpow_natCast, same, zpow_add₀ (by norm_num)]
    rfl
  push_cast
  rw [power, scale]
  ring

/-- The distances of a rational from its neighbours, counted in the unit. -/
theorem scaled_distances {whole step : Nat} (positive : 0 < v) (value : (whole : Rat) = v * scale)
    (unit : (step : Rat) = 10 ^ place n v * scale) :
    ((whole % step : Nat) : Rat) = (v - (lowNeighbour n v).toRat) * scale ∧
      ((step - whole % step : Nat) : Rat) = ((highNeighbour n v).toRat - v) * scale := by
  have lower := lowNeighbour_le (n := n) positive
  have upper := lt_highNeighbour (n := n) positive
  obtain ⟨count, isCount⟩ : ∃ count, count = (lowNeighbour n v).digits := ⟨_, rfl⟩
  have low : (lowNeighbour n v).toRat = count * 10 ^ place n v := by
    rw [isCount]
    rfl
  have high : (highNeighbour n v).toRat = (count + 1) * 10 ^ place n v := by
    have digits : (highNeighbour n v).digits = count + 1 := by
      rw [isCount]
      rfl
    rw [toRat, digits, Nat.cast_succ]
    rfl
  rw [low] at lower ⊢
  rw [high] at upper ⊢
  have atLeast : count * step ≤ whole := by
    have scaled := mul_le_mul_of_nonneg_right lower scale_pos.le
    rw [mul_assoc, ← unit, ← value] at scaled
    exact_mod_cast scaled
  have below : whole < (count + 1) * step := by
    have scaled := mul_lt_mul_of_pos_right upper scale_pos
    rw [mul_assoc, ← unit, ← value] at scaled
    exact_mod_cast scaled
  have quotient : whole / step = count := Nat.div_eq_of_lt_le atLeast below
  have parts := Nat.div_add_mod whole step
  rw [quotient] at parts
  have small : whole % step ≤ step := by
    rw [Nat.add_mul, Nat.one_mul] at below
    rw [Nat.mul_comm] at parts
    omega
  have partsRat : (step : Rat) * count + (whole % step : Nat) = whole := by exact_mod_cast parts
  constructor
  · rw [sub_mul, mul_assoc, ← unit, ← value]
    linarith
  · rw [Nat.cast_sub small, sub_mul, mul_assoc, ← unit, ← value]
    linarith

/-- What is counted keeps its order. -/
theorem counted_le {first second : Nat} {x y : Rat} (isFirst : (first : Rat) = x * scale)
    (isSecond : (second : Rat) = y * scale) (le : x ≤ y) : first ≤ second := by
  have ordered := mul_le_mul_of_nonneg_right le scale_pos.le
  rw [← isFirst, ← isSecond] at ordered
  exact_mod_cast ordered

theorem counted_add {first second : Nat} {x y : Rat} (isFirst : (first : Rat) = x * scale)
    (isSecond : (second : Rat) = y * scale) : ((first + second : Nat) : Rat) = (x + y) * scale := by
  rw [Nat.cast_add, isFirst, isSecond, add_mul]

/-- The nearer of two neighbours may be out of reach, and the farther one is not. -/
structure Misleads (near far nearReach farReach : Rat) : Prop where
  nearer : near ≤ far
  farInside : far ≤ farReach
  nearOutside : nearReach ≤ near

theorem Misleads.counted {near far reach moved farReach : Rat}
    {near' far' reach' moved' farReach' : Nat}
    (h : Misleads near far (reach - moved) farReach) (isNear : (near' : Rat) = near * scale)
    (isFar : (far' : Rat) = far * scale) (isReach : (reach' : Rat) = reach * scale)
    (isMoved : (moved' : Rat) = moved * scale) (isFarReach : (farReach' : Rat) = farReach * scale) :
    misleads near' far' (reach' - moved') farReach' = true := by
  have outside : reach' ≤ near' + moved' :=
    counted_le isReach (counted_add isNear isMoved) (by linarith [h.nearOutside])
  rw [misleads, Nat.ble_eq_true_of_le (counted_le isNear isFar h.nearer),
    Nat.ble_eq_true_of_le (counted_le isFar isFarReach h.farInside),
    Nat.ble_eq_true_of_le (Nat.sub_le_iff_le_add.mpr outside)]
  rfl

/-- Neighbours of a power of two that mislead are found by the search. -/
theorem lopsided_of_misleads (deep : -149 ≤ k) (inside : -52 ≤ place n (2 ^ k))
    (found : Misleads (2 ^ k - (lowNeighbour n (2 ^ k)).toRat)
        ((highNeighbour n (2 ^ k)).toRat - 2 ^ k)
        (2 ^ (Format.binary32.binadePlace (k - 1) - 1) - 2 ^ (k - 54))
        (2 ^ (Format.binary32.binadePlace k - 1) + 2 ^ (k - 53)) ∨
      Misleads ((highNeighbour n (2 ^ k)).toRat - 2 ^ k)
        (2 ^ k - (lowNeighbour n (2 ^ k)).toRat)
        (2 ^ (Format.binary32.binadePlace k - 1) - 2 ^ (k - 53))
        (2 ^ (Format.binary32.binadePlace (k - 1) - 1) + 2 ^ (k - 54))) :
    lopsided (k + 210).toNat (place n (2 ^ k) + 52).toNat = true := by
  obtain ⟨a, isA⟩ : ∃ a : Nat, (k + 210).toNat = a := ⟨_, rfl⟩
  obtain ⟨b, isB⟩ : ∃ b : Nat, (place n (2 ^ k) + 52).toNat = b := ⟨_, rfl⟩
  have value := scaled_two (k := k) (c := a) (by omega)
  have unit := scaled_ten (p := place n (2 ^ k)) (b := b) (by omega)
  have above := scaled_two (k := Format.binary32.binadePlace k - 1) (c := max 61 (a - 23) - 1)
    (by rw [binade32]; omega)
  have below := scaled_two (k := Format.binary32.binadePlace (k - 1) - 1)
    (c := max 61 (a - 24) - 1) (by rw [binade32]; omega)
  have moved := scaled_two (k := k - 53) (c := a - 53) (by omega)
  have movedBelow := scaled_two (k := k - 54) (c := a - 54) (by omega)
  obtain ⟨low, high⟩ := scaled_distances (by positivity) value unit
  rw [isA, isB, lopsided, Bool.or_eq_true]
  exact found.imp
    (fun misled => misled.counted low high below movedBelow (counted_add above moved))
    (fun misled => misled.counted high low above moved (counted_add below movedBelow))

end PowerTable

/-! ### The rounded decimal -/

open PowerTable

theorem floorLog10_power (deep : -149 ≤ k) (high : k ≤ 127) :
    -45 ≤ floorLog10 (2 ^ k) ∧ floorLog10 (2 ^ k) ≤ 38 := by
  have positive : (0 : Rat) < 2 ^ k := by positivity
  have lower : (10 : Rat) ^ (-45 : Int) < 10 ^ (floorLog10 (2 ^ k) + 1) := calc
    (10 : Rat) ^ (-45 : Int) ≤ 2 ^ (-149 : Int) := by norm_num
    _ ≤ 2 ^ k := zpow_le_zpow_right₀ one_le_two deep
    _ < _ := lt_floorLog10 positive
  have upper : (10 : Rat) ^ floorLog10 (2 ^ k) < 10 ^ (39 : Int) := calc
    (10 : Rat) ^ floorLog10 (2 ^ k) ≤ 2 ^ k := floorLog10_le positive
    _ ≤ 2 ^ (127 : Int) := zpow_le_zpow_right₀ one_le_two high
    _ < 10 ^ (39 : Int) := by norm_num
  have above := (zpow_lt_zpow_iff_right₀ (by norm_num)).mp lower
  have below := (zpow_lt_zpow_iff_right₀ (by norm_num)).mp upper
  omega

/-- The powers of two that a decimal of eight digits is read as, but not the rounded one. -/
def lopsidedValues : List Rat := [2 ^ (-96 : Int), 2 ^ (87 : Int), 2 ^ (90 : Int)]

/-- Decimals of eight digits that are read as them. -/
def lopsidedDecimals : List Decimal := [⟨12621775, -36⟩, ⟨15474251, 19⟩, ⟨12379401, 20⟩]

theorem lopsided_reads : ∀ v ∈ lopsidedValues, ∃ d ∈ lopsidedDecimals,
    d.toRat ∈ readings v ∧ d.significant = 8 := by
  decide +kernel

theorem floorLog10_lopsided : floorLog10 (2 ^ (-96 : Int)) = -29 ∧
    floorLog10 (2 ^ (87 : Int)) = 26 ∧ floorLog10 (2 ^ (90 : Int)) = 27 := by
  decide +kernel

theorem eq_of_mem_lopsidedPlaces
    (found : ((k + 210).toNat, (place n (2 ^ k) + 52).toNat) ∈ lopsidedPlaces) :
    (2 : Rat) ^ k ∈ lopsidedValues ∧ n = 8 := by
  obtain ⟨first, second, third⟩ := floorLog10_lopsided
  simp only [lopsidedPlaces, List.mem_cons, List.not_mem_nil, or_false, Prod.mk.injEq] at found
  rcases found with ⟨isPower, isPlace⟩ | ⟨isPower, isPlace⟩ | ⟨isPower, isPlace⟩
  · obtain rfl : k = -96 := by omega
    rw [place, first] at isPlace
    exact ⟨by simp [lopsidedValues], by omega⟩
  · obtain rfl : k = 87 := by omega
    rw [place, second] at isPlace
    exact ⟨by simp [lopsidedValues], by omega⟩
  · obtain rfl : k = 90 := by omega
    rw [place, third] at isPlace
    exact ⟨by simp [lopsidedValues], by omega⟩

/-- **The rounded decimal of a power of two** is read as it if any decimal with as many digits is,
but for eight digits of three powers. -/
theorem rounded_mem_power (h : HasSingleSignificand (2 ^ k) m e) (deep : -149 ≤ k) (high : k ≤ 127)
    (some : n ≠ 0) (few : n ≤ 8) (short : d.digits ≤ 10 ^ n) (mem : d.toRat ∈ readings (2 ^ k)) :
    (rounded n (2 ^ k)).toRat ∈ readings (2 ^ k) ∨
      (2 : Rat) ^ k ∈ lopsidedValues ∧ n = 8 := by
  have positive : (0 : Rat) < 2 ^ k := by positivity
  obtain ⟨logLower, logUpper⟩ := floorLog10_power deep high
  have placed : place n (2 ^ k) = floorLog10 (2 ^ k) - n + 1 := rfl
  refine or_iff_not_imp_left.mpr fun away => eq_of_mem_lopsidedPlaces ?_
  refine mem_lopsidedPlaces (by omega) (by omega) (by omega)
    (lopsided_of_misleads deep (by omega) ?_)
  have lowLe := lowNeighbour_le (n := n) positive
  have highGt := lt_highNeighbour (n := n) positive
  have closest {x : Rat} (multiple : IsMultiple x (10 ^ place n (2 ^ k))) :=
    rounded_closest positive multiple
  have neighbours :=
    neighbour_mem (ordConnected_readings _) h.roundedTwice_eq positive some short mem
  -- The rounded decimal is the nearer neighbour; it is not read, so the farther one is.
  obtain isLow | isHigh := rounded_eq_neighbour (n := n) positive
  · left
    rw [isLow] at away closest
    have closer := closest (highNeighbour n (2 ^ k)).multiple_toRat
    rw [abs_of_nonpos (sub_nonpos.mpr lowLe), abs_of_pos (sub_pos.mpr highGt), neg_sub] at closer
    have reach := power_reads_above deep (neighbours.resolve_left away)
    have outside := not_lt.mp (mt (reads_below_power h deep lowLe) away)
    exact ⟨closer, reach, by linarith⟩
  · right
    rw [isHigh] at away closest
    have closer := closest (lowNeighbour n (2 ^ k)).multiple_toRat
    rw [abs_of_nonpos (sub_nonpos.mpr lowLe), abs_of_pos (sub_pos.mpr highGt), neg_sub] at closer
    have reach := power_reads_below deep (neighbours.resolve_right away)
    have outside := not_lt.mp (mt (reads_above_power h deep highGt.le) away)
    exact ⟨closer, reach, by linarith⟩

/-- **The rounded decimal is read as a number** of single precision if any decimal with as many
digits is. -/
theorem rounded_mem_readings (h : HasSingleSignificand v m e) (positive : 0 < v) (some : n ≠ 0)
    (few : n ≤ 8) (short : d.digits ≤ 10 ^ n) (mem : d.toRat ∈ readings v)
    (ordinary : v ∈ lopsidedValues → n ≠ 8) : (rounded n v).toRat ∈ readings v := by
  have first := floorLog2_le positive
  have next := lt_floorLog2 positive
  have deep := h.binade_deep positive next
  have high : floorLog2 v ≤ 127 := by
    have most := h.abs_lt
    rw [abs_of_pos positive] at most
    have ordered := (zpow_lt_zpow_iff_right₀ one_lt_two).mp (first.trans_lt most)
    omega
  obtain power | inside := first.eq_or_lt
  · rw [← power] at h mem ordinary ⊢
    exact (rounded_mem_power h deep high some few short mem).resolve_right
      fun ⟨isLopsided, full⟩ => ordinary isLopsided full
  · exact rounded_mem (ordConnected_readings v) (fun _ => readings_reflect h inside next)
      h.roundedTwice_eq positive some short mem

end Formulary
