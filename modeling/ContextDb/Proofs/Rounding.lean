import ContextDb.Decimal.Shortest
import Mathlib.Algebra.Order.Field.Power
import Mathlib.Algebra.Order.Ring.Rat
import Mathlib.Tactic.Linarith
import Mathlib.Tactic.FieldSimp
import Mathlib.Tactic.Positivity
import Mathlib.Tactic.Ring

/-!
# Rounding

A number in double precision is nearer to some decimal numbers than any other number is: to
those that are at most half as far from it as its neighbours. The search for short digits
finds one of them after at most eighteen grids, whatever the number.
-/

namespace ContextDb.Decimal

namespace Binary64

variable {x y : Binary64} {q : ℚ}

/-- The magnitude of a number. The stored form of infinity counts as the power of two that
comes next. -/
def magnitude (x : Binary64) : ℚ :=
  x.significand * (2 : ℚ) ^ x.scale

/-- No number is nearer to a ratio. -/
def IsNearest (x : Binary64) (q : ℚ) : Prop :=
  ∀ y : Binary64, |q - x.magnitude| ≤ |q - y.magnitude|

/-! ## Neighbours -/

theorem significand_lt (x : Binary64) : x.significand < 2 ^ 53 := by
  have small : x.fraction < 2 ^ 52 := Nat.mod_lt _ (by decide)
  rw [significand]
  split
  · omega
  · have power : Nat.pow 2 52 = 2 ^ 52 := rfl
    omega

theorem le_scale (x : Binary64) : -1074 ≤ x.scale := by
  rw [scale]
  omega

/-- Only the least numbers have less than all significant bits. -/
theorem le_significand (notLeast : -1074 < x.scale) : 2 ^ 52 ≤ x.significand := by
  rw [scale] at notLeast
  rw [significand, if_neg (by omega)]
  exact Nat.le_add_right _ _

/-- How far the next lesser number is: half as far where fewer bits are needed for it. -/
def gapBelow (x : Binary64) : ℚ :=
  if x.significand = 2 ^ 52 ∧ -1074 < x.scale then 2 ^ (x.scale - 1) else 2 ^ x.scale

theorem two_zpow_eq (x : Binary64) : (2 : ℚ) ^ x.scale = 2 * 2 ^ (x.scale - 1) := by
  rw [zpow_sub_one₀ two_ne_zero]
  ring

theorem gapBelow_pos (x : Binary64) : 0 < x.gapBelow := by
  rw [gapBelow]
  split <;> positivity

theorem gapBelow_le (x : Binary64) : x.gapBelow ≤ 2 ^ x.scale := by
  have half : (0 : ℚ) < 2 ^ (x.scale - 1) := by positivity
  rw [gapBelow]
  split
  · rw [two_zpow_eq]
    linarith
  · exact le_rfl

/-- A number with a greater scale is on the grid of the lesser one. -/
theorem magnitude_eq_of_scale_le (coarser : x.scale ≤ y.scale) :
    y.magnitude = ((y.significand * 2 ^ (y.scale - x.scale).toNat : ℕ) : ℚ) * 2 ^ x.scale := by
  have exponents : y.scale = ((y.scale - x.scale).toNat : ℤ) + x.scale := by omega
  rw [magnitude]
  conv_lhs => rw [exponents, zpow_add₀ two_ne_zero, zpow_natCast]
  push_cast
  ring

/-- A number with a lesser scale is beyond the gap. -/
theorem magnitude_le_of_scale_lt (finer : y.scale < x.scale) :
    y.magnitude ≤ x.magnitude - x.gapBelow := by
  have notLeast : -1074 < x.scale := lt_of_le_of_lt y.le_scale finer
  have unit : (0 : ℚ) < 2 ^ (x.scale - 1) := by positivity
  have fine : (2 : ℚ) ^ y.scale ≤ 2 ^ (x.scale - 1) :=
    zpow_le_zpow_right₀ one_le_two (by omega)
  have few : (y.significand : ℚ) ≤ 2 ^ 53 - 1 := by
    have := y.significand_lt
    rw [le_sub_iff_add_le]
    exact_mod_cast this
  have bound : y.magnitude ≤ (2 ^ 53 - 1) * 2 ^ (x.scale - 1) := by
    rw [magnitude]
    gcongr
  have many := le_significand notLeast
  refine bound.trans ?_
  rw [magnitude, gapBelow, two_zpow_eq]
  split
  · rename_i least
    rw [least.1]
    push_cast
    linarith
  · rename_i notNarrow
    have more : 2 ^ 52 + 1 ≤ x.significand := by
      have other : x.significand ≠ 2 ^ 52 := fun same => notNarrow ⟨same, notLeast⟩
      omega
    have cast : (2 ^ 52 + 1 : ℚ) ≤ x.significand := by exact_mod_cast more
    nlinarith

/-- No number lies between a number and its neighbours. -/
theorem le_or_le_of_ne (other : y.magnitude ≠ x.magnitude) :
    y.magnitude ≤ x.magnitude - x.gapBelow ∨ x.magnitude + 2 ^ x.scale ≤ y.magnitude := by
  rcases lt_or_ge y.scale x.scale with finer | coarser
  · exact .inl (magnitude_le_of_scale_lt finer)
  · -- Both are multiples of the same unit.
    have unit : (0 : ℚ) < 2 ^ x.scale := by positivity
    have gap := x.gapBelow_le
    rw [magnitude_eq_of_scale_le coarser] at other ⊢
    generalize y.significand * 2 ^ (y.scale - x.scale).toNat = count at other ⊢
    rw [magnitude] at other ⊢
    rcases lt_trichotomy count x.significand with less | rfl | more
    · have cast : (count : ℚ) + 1 ≤ x.significand := by exact_mod_cast less
      left
      nlinarith
    · exact absurd rfl other
    · have cast : (x.significand : ℚ) + 1 ≤ count := by exact_mod_cast more
      right
      nlinarith

/-- What is at most half as far as the neighbours is nearest. -/
theorem isNearest_of_between (least : x.magnitude - x.gapBelow / 2 ≤ q)
    (most : q ≤ x.magnitude + 2 ^ x.scale / 2) : x.IsNearest q := by
  intro y
  by_cases same : y.magnitude = x.magnitude
  · rw [same]
  · have gap := x.gapBelow_pos
    have unit : (0 : ℚ) < 2 ^ x.scale := by positivity
    rw [abs_le]
    rcases le_or_le_of_ne same with below | above
    · rw [abs_of_nonneg (by linarith)]
      constructor <;> linarith [x.gapBelow_le]
    · rw [abs_of_nonpos (by linarith)]
      constructor <;> linarith [x.gapBelow_le]

/-! ## The interval around a number -/

theorem shifted_snd_pos (numerator : ℕ) {denominator : ℕ} (positive : 0 < denominator)
    (power : ℤ) : 0 < (shifted numerator denominator power).2 := by
  rw [shifted]
  split
  · exact positive
  · exact Nat.mul_pos positive (Nat.pow_pos (by decide))

theorem ratio_shifted (numerator denominator : ℕ) (power : ℤ) :
    ((shifted numerator denominator power).1 : ℚ) / (shifted numerator denominator power).2 =
      numerator / denominator * 2 ^ power := by
  rw [shifted]
  split
  · rename_i grows
    obtain ⟨count, rfl⟩ := Int.eq_ofNat_of_zero_le grows
    have power : Nat.pow 2 count = 2 ^ count := rfl
    simp only [Int.toNat_natCast, power, zpow_natCast]
    push_cast
    ring
  · rename_i shrinks
    obtain ⟨count, isCount⟩ := Int.eq_ofNat_of_zero_le (show 0 ≤ -power by omega)
    have whole : power = -(count : ℤ) := by omega
    have power : Nat.pow 2 count = 2 ^ count := rfl
    simp only [whole, neg_neg, Int.toNat_natCast, power, zpow_neg, zpow_natCast]
    push_cast
    rw [← div_eq_mul_inv, div_div]

end Binary64

open Binary64

namespace Target

variable {x : Binary64} {target : Target}

theorem denominator_pos (x : Binary64) : 0 < (ofNumber x).denominator :=
  shifted_snd_pos 1 Nat.one_pos _

/-- A number of quarters of the unit of a number. -/
theorem quarters (x : Binary64) (count : ℕ) :
    ((count * (shifted 1 1 (x.scale - 2)).1 : ℕ) : ℚ) / (ofNumber x).denominator =
      count / 4 * 2 ^ x.scale := by
  have unit := ratio_shifted 1 1 (x.scale - 2)
  have quarter : (2 : ℚ) ^ (x.scale - 2) = 2 ^ x.scale / 4 := by
    rw [zpow_sub₀ two_ne_zero]
    norm_num
  have same : (ofNumber x).denominator = (shifted 1 1 (x.scale - 2)).2 := rfl
  rw [quarter] at unit
  rw [same, Nat.cast_mul, mul_div_assoc, unit]
  push_cast
  ring

theorem value_ofNumber (x : Binary64) :
    ((ofNumber x).value : ℚ) / (ofNumber x).denominator = x.magnitude := by
  have shape : (ofNumber x).value = 4 * x.significand * (shifted 1 1 (x.scale - 2)).1 := rfl
  rw [shape, quarters, magnitude]
  push_cast
  ring

theorem high_ofNumber (x : Binary64) :
    ((ofNumber x).high : ℚ) / (ofNumber x).denominator = x.magnitude + 2 ^ x.scale / 2 := by
  have shape : (ofNumber x).high = (4 * x.significand + 2) * (shifted 1 1 (x.scale - 2)).1 := rfl
  rw [shape, quarters, magnitude]
  push_cast
  ring

theorem low_ofNumber (positive : 0 < x.significand) :
    ((ofNumber x).low : ℚ) / (ofNumber x).denominator = x.magnitude - x.gapBelow / 2 := by
  have narrow_iff : (x.significand == Nat.pow 2 52 && decide (1 < x.exponentField)) = true ↔
      x.significand = 2 ^ 52 ∧ -1074 < x.scale := by
    have power : Nat.pow 2 52 = 2 ^ 52 := rfl
    rw [Bool.and_eq_true, beq_iff_eq, decide_eq_true_iff, scale, power]
    refine and_congr_right fun _ => ?_
    omega
  have shape : (ofNumber x).low =
      (if (x.significand == Nat.pow 2 52 && decide (1 < x.exponentField)) = true
        then 4 * x.significand - 1 else 4 * x.significand - 2) *
          (shifted 1 1 (x.scale - 2)).1 := rfl
  rw [shape, quarters, magnitude, gapBelow, two_zpow_eq]
  simp only [narrow_iff]
  split
  · rw [Nat.cast_sub (by omega)]
    push_cast
    ring
  · rw [Nat.cast_sub (by omega)]
    push_cast
    ring

/-! ## Decimal grids -/

theorem ten_zpow (exponent : ℤ) :
    (10 : ℚ) ^ exponent =
      (Nat.pow 10 exponent.toNat : ℕ) / (Nat.pow 10 (-exponent).toNat : ℕ) := by
  rcases le_or_gt 0 exponent with grows | shrinks
  · obtain ⟨count, rfl⟩ := Int.eq_ofNat_of_zero_le grows
    simp
  · obtain ⟨count, isCount⟩ := Int.eq_ofNat_of_zero_le (show 0 ≤ -exponent by omega)
    have whole : exponent = -(count : ℤ) := by omega
    simp [whole]

/-- What reads back lies in the interval. -/
theorem le_of_contains {digits : ℕ} {exponent : ℤ} (positive : 0 < target.denominator)
    (inside : target.contains (digits * (target.denominator * Nat.pow 10 exponent.toNat))
      (Nat.pow 10 (-exponent).toNat) = true) :
    (target.low : ℚ) / target.denominator ≤ digits * 10 ^ exponent ∧
      digits * (10 : ℚ) ^ exponent ≤ target.high / target.denominator := by
  have downPositive : 0 < Nat.pow 10 (-exponent).toNat := Nat.pow_pos (by decide)
  rw [ten_zpow]
  generalize Nat.pow 10 (-exponent).toNat = down at *
  generalize Nat.pow 10 exponent.toNat = up at *
  have bounds : target.low * down ≤ digits * (target.denominator * up) ∧
      digits * (target.denominator * up) ≤ target.high * down := by
    rw [contains] at inside
    split at inside
    · simpa using inside
    · simp only [Bool.and_eq_true, decide_eq_true_eq] at inside
      exact ⟨inside.1.le, inside.2.le⟩
  have least : (target.low * down : ℚ) ≤ digits * (target.denominator * up) := by
    exact_mod_cast bounds.1
  have most : (digits * (target.denominator * up) : ℚ) ≤ target.high * down := by
    exact_mod_cast bounds.2
  have denominatorPos : (0 : ℚ) < target.denominator := by exact_mod_cast positive
  have downPos : (0 : ℚ) < down := by exact_mod_cast downPositive
  rw [← mul_div_assoc]
  constructor
  · rw [div_le_div_iff₀ denominatorPos downPos]
    linarith
  · rw [div_le_div_iff₀ downPos denominatorPos]
    linarith

/-- What stands on a grid reads back and is positive. -/
theorem le_of_onGrid? {digits : ℕ} {exponent : ℤ} (positive : 0 < target.denominator)
    (found : target.onGrid? exponent = some digits) :
    0 < digits ∧ (target.low : ℚ) / target.denominator ≤ digits * 10 ^ exponent ∧
      digits * (10 : ℚ) ^ exponent ≤ target.high / target.denominator := by
  unfold onGrid? at found
  simp only at found
  split_ifs at found with both tie low high <;> cases found
  · simp only [Bool.and_eq_true, bne_iff_ne] at both
    exact ⟨Nat.pos_of_ne_zero both.1.1, le_of_contains positive both.1.2⟩
  · simp only [Bool.and_eq_true] at both
    exact ⟨Nat.succ_pos _, le_of_contains positive both.2⟩
  · simp only [Bool.and_eq_true, bne_iff_ne] at low
    exact ⟨Nat.pos_of_ne_zero low.1, le_of_contains positive low.2⟩
  · exact ⟨Nat.succ_pos _, le_of_contains positive high⟩

/-- A grid that is finer than the distance to the lower end has something that reads back. -/
theorem isSome_onGrid? {exponent : ℤ} (positive : 0 < target.denominator)
    (below : target.value < target.high)
    (fine : target.denominator * Nat.pow 10 exponent.toNat +
      target.low * Nat.pow 10 (-exponent).toNat ≤
        target.value * Nat.pow 10 (-exponent).toNat) :
    (target.onGrid? exponent).isSome = true := by
  have upPositive : 0 < Nat.pow 10 exponent.toNat := Nat.pow_pos (by decide)
  have downPositive : 0 < Nat.pow 10 (-exponent).toNat := Nat.pow_pos (by decide)
  unfold onGrid?
  simp only
  generalize Nat.pow 10 (-exponent).toNat = down at *
  generalize Nat.pow 10 exponent.toNat = up at *
  have unit : 0 < target.denominator * up := Nat.mul_pos positive upPositive
  have parts := Nat.div_add_mod' (target.value * down) (target.denominator * up)
  have rest := Nat.mod_lt (target.value * down) unit
  have nonzero : target.value * down / (target.denominator * up) ≠ 0 := by
    rw [Nat.div_ne_zero_iff]
    omega
  have most : target.value * down < target.high * down := by gcongr
  have inside : target.contains
      (target.value * down / (target.denominator * up) * (target.denominator * up)) down =
        true := by
    rw [contains]
    split
    · simp only [Bool.and_eq_true, decide_eq_true_eq]
      omega
    · simp only [Bool.and_eq_true, decide_eq_true_eq]
      omega
  rw [inside, bne_iff_ne.2 nonzero]
  simp only [Bool.true_and, if_true]
  split
  · split <;> rfl
  · rfl

/-! ## The search -/

/-- If one of the grids that are searched has something that reads back, that is found. -/
theorem onGrid?_search {fuel : ℕ} {start : ℤ}
    (reaches : ∃ count < fuel, (target.onGrid? (start - count)).isSome = true) :
    target.onGrid? (target.search fuel start).exponent =
      some (target.search fuel start).digits := by
  induction fuel generalizing start with
  | zero =>
    obtain ⟨count, bound, _⟩ := reaches
    exact absurd bound (Nat.not_lt_zero _)
  | succ fuel inductionHypothesis =>
    rw [search]
    cases here : target.onGrid? start with
    | some digits => exact here
    | none =>
      obtain ⟨count, bound, found⟩ := reaches
      cases count with
      | zero => simp [here] at found
      | succ count =>
        refine inductionHypothesis ⟨count, Nat.lt_of_succ_lt_succ bound, ?_⟩
        rwa [show start - 1 - (count : ℤ) = start - (count + 1 : ℕ) by omega]

end Target

theorem lt_pow_digitCount (n : ℕ) : n < 10 ^ digitCount n :=
  (Nat.length_toDigits_le_iff (by decide) Nat.length_toDigits_pos).1 le_rfl

theorem pow_le_of_digitCount {n : ℕ} (positive : 0 < n) : 10 ^ (digitCount n - 1) ≤ n := by
  by_contra less
  have nonzero : digitCount n - 1 ≠ 0 := by
    intro zero
    rw [zero] at less
    omega
  have shorter := (Nat.length_toDigits_le_iff (by decide) (by omega)).2 (not_le.1 less)
  rw [← digitCount] at shorter
  omega

/-- A ratio is at least the power of ten of its leading digit. -/
theorem zpow_leadingExponent_le {numerator denominator : ℕ} (positive : 0 < numerator)
    (nonzero : 0 < denominator) :
    (10 : ℚ) ^ leadingExponent numerator denominator ≤ numerator / denominator := by
  have denominatorPos : (0 : ℚ) < denominator := by exact_mod_cast nonzero
  rw [leadingExponent, le_div_iff₀ denominatorPos]
  split
  · rename_i large
    have quotient : 0 < numerator / denominator := Nat.div_pos large nonzero
    have exponent : (digitCount (numerator / denominator) : ℤ) - 1 =
        (digitCount (numerator / denominator) - 1 : ℕ) := by
      have := Nat.length_toDigits_pos (b := 10) (n := numerator / denominator)
      rw [digitCount]
      omega
    rw [exponent, zpow_natCast]
    have leading := pow_le_of_digitCount quotient
    have whole := Nat.div_mul_le_self numerator denominator
    exact_mod_cast (Nat.mul_le_mul_right denominator leading).trans whole
  · have leading := lt_pow_digitCount ((denominator - 1) / numerator)
    rw [Nat.div_lt_iff_lt_mul positive] at leading
    have whole : denominator ≤ numerator * 10 ^ digitCount ((denominator - 1) / numerator) := by
      rw [mul_comm]
      omega
    rw [zpow_neg, zpow_natCast, inv_mul_le_iff₀ (by positivity), mul_comm]
    exact_mod_cast whole

/-- The eighteen grids that are searched are enough where the lower end is not nearer to the
number than a unit of its seventeenth digit. -/
theorem Target.onGrid?_of_wide {target : Target} (denominatorPos : 0 < target.denominator)
    (positive : 0 < target.value) (below : target.value < target.high)
    (wide : (target.value : ℚ) ≤ 10 ^ 17 * (target.value - target.low)) :
    let found := target.search 18 (leadingExponent target.value target.denominator)
    target.onGrid? found.exponent = some found.digits := by
  have leading := zpow_leadingExponent_le positive denominatorPos
  generalize leadingExponent target.value target.denominator = start at *
  refine onGrid?_search ⟨17, by decide, isSome_onGrid? denominatorPos below ?_⟩
  have castPos : (0 : ℚ) < target.denominator := by exact_mod_cast denominatorPos
  have finest : (10 : ℚ) ^ (start - (17 : ℕ)) * target.denominator ≤
      target.value - target.low := by
    rw [le_div_iff₀ castPos] at leading
    rw [zpow_sub₀ (by norm_num), zpow_natCast, div_mul_eq_mul_div, div_le_iff₀ (by norm_num)]
    linarith
  rw [ten_zpow] at finest
  have downPositive : 0 < Nat.pow 10 (-(start - (17 : ℕ))).toNat := Nat.pow_pos (by decide)
  generalize Nat.pow 10 (-(start - (17 : ℕ))).toNat = down at *
  generalize Nat.pow 10 (start - (17 : ℕ)).toNat = up at *
  have downPos : (0 : ℚ) < down := by exact_mod_cast downPositive
  rw [div_mul_eq_mul_div, div_le_iff₀ downPos] at finest
  have cast : (target.denominator * up + target.low * down : ℚ) ≤ target.value * down := by
    linarith
  exact_mod_cast cast

variable {x : Binary64}

/-- A unit of the seventeenth digit is no more than half the distance to the next number. -/
theorem magnitude_le_gapBelow (x : Binary64) : x.magnitude ≤ 10 ^ 17 * (x.gapBelow / 2) := by
  have unit : (0 : ℚ) < 2 ^ (x.scale - 1) := by positivity
  rw [magnitude, gapBelow, two_zpow_eq]
  split
  · rename_i least
    rw [least.1]
    push_cast
    linarith
  · have few : (x.significand : ℚ) ≤ 2 ^ 53 := by exact_mod_cast x.significand_lt.le
    nlinarith

/-- Digits are found, and no number is nearer to them. -/
theorem isNearest_search (nonzero : 0 < x.significand) :
    let target := Target.ofNumber x
    let found := target.search 18 (leadingExponent target.value target.denominator)
    0 < found.digits ∧ x.IsNearest (found.digits * 10 ^ found.exponent) := by
  have size : 0 < x.magnitude := by
    rw [magnitude]
    positivity
  have unit : (0 : ℚ) < 2 ^ x.scale := by positivity
  have denominatorPos := Target.denominator_pos x
  have castPos : (0 : ℚ) < (Target.ofNumber x).denominator := by exact_mod_cast denominatorPos
  have value := (div_eq_iff castPos.ne').1 (Target.value_ofNumber x)
  have low := (div_eq_iff castPos.ne').1 (Target.low_ofNumber nonzero)
  have high := (div_eq_iff castPos.ne').1 (Target.high_ofNumber x)
  have positive : (0 : ℚ) < (Target.ofNumber x).value := by
    rw [value]
    positivity
  have below : ((Target.ofNumber x).value : ℚ) < (Target.ofNumber x).high := by
    rw [value, high]
    gcongr
    linarith
  have wide : ((Target.ofNumber x).value : ℚ) ≤
      10 ^ 17 * ((Target.ofNumber x).value - (Target.ofNumber x).low) := by
    rw [value, low]
    nlinarith [magnitude_le_gapBelow x]
  have found := Target.onGrid?_of_wide denominatorPos (by exact_mod_cast positive)
    (by exact_mod_cast below) wide
  obtain ⟨digitsPos, least, most⟩ := Target.le_of_onGrid? denominatorPos found
  rw [Target.low_ofNumber nonzero] at least
  rw [Target.high_ofNumber] at most
  exact ⟨digitsPos, isNearest_of_between least most⟩

end ContextDb.Decimal
