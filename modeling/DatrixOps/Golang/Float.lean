import Mathlib.Data.Int.Log
import Mathlib.Data.Rat.Floor
import Mathlib.Tactic.Linarith
import Mathlib.Tactic.Positivity

/-! Binary floating point as rounding of rational numbers: the nearest number of 53 binary digits, of two the
    even one. Numbers too great for the format are rounded as if it had greater exponents. -/

namespace Golang

/-! ### Integers -/

/-- The nearest integer, of two the even one. -/
def roundToEven (x : ℚ) : ℤ := if Int.fract x < 1 / 2 ∨ Int.fract x = 1 / 2 ∧ Even ⌊x⌋ then ⌊x⌋ else ⌊x⌋ + 1

variable {x y : ℚ} {m e : ℤ}

theorem roundToEven_intCast (n : ℤ) : roundToEven (n : ℚ) = n := by
  rw [roundToEven, Int.fract_intCast, Int.floor_intCast, if_pos (Or.inl (by norm_num))]

theorem floor_le_roundToEven : ⌊x⌋ ≤ roundToEven x ∧ roundToEven x ≤ ⌊x⌋ + 1 := by
  unfold roundToEven
  split <;> omega

theorem abs_roundToEven_sub_le : |(roundToEven x : ℚ) - x| ≤ 1 / 2 := by
  have parts := Int.fract_add_floor x
  have nonneg := Int.fract_nonneg x
  have below := Int.fract_lt_one x
  unfold roundToEven
  split
  · rename_i low
    have half : Int.fract x ≤ 1 / 2 := low.elim le_of_lt fun tie => tie.1.le
    rw [abs_le]
    constructor <;> linarith
  · rename_i high
    have half : 1 / 2 ≤ Int.fract x := not_lt.mp fun less => high (Or.inl less)
    rw [abs_le]
    push_cast
    constructor <;> linarith

theorem roundToEven_mono (h : x ≤ y) : roundToEven x ≤ roundToEven y := by
  rcases (Int.floor_le_floor h).lt_or_eq with less | same
  · exact floor_le_roundToEven.2.trans ((Int.add_one_le_iff.mpr less).trans floor_le_roundToEven.1)
  · -- in one unit, the greater number has the greater fraction
    have fractions : Int.fract x ≤ Int.fract y := by
      rw [Int.fract, Int.fract, same]
      exact sub_le_sub_right h _
    unfold roundToEven
    rw [same]
    split
    · split <;> omega
    · rename_i high
      rw [if_neg]
      rintro (less | ⟨tie, even⟩)
      · exact high (Or.inl (fractions.trans_lt less))
      · exact high ((tie ▸ fractions).lt_or_eq.imp id fun tie => ⟨tie, even⟩)

theorem roundToEven_neg : roundToEven (-x) = -roundToEven x := by
  by_cases whole : Int.fract x = 0
  · obtain ⟨n, rfl⟩ := Int.fract_eq_zero_iff.mp whole
    rw [← Int.cast_neg, roundToEven_intCast, roundToEven_intCast]
  · have floor : ⌊-x⌋ = -⌊x⌋ - 1 := by
      have parts := Int.fract_add_floor x
      have positive : 0 < Int.fract x := (Int.fract_nonneg x).lt_of_ne (Ne.symm whole)
      have below := Int.fract_lt_one x
      rw [Int.floor_eq_iff]
      push_cast
      constructor <;> linarith
    have parity : Even (-⌊x⌋ - 1) ↔ ¬Even ⌊x⌋ := by rw [Int.even_sub_one, even_neg]
    unfold roundToEven
    rw [floor, Int.fract_neg whole]
    simp only [parity]
    rcases lt_trichotomy (Int.fract x) (1 / 2) with low | tie | high
    · rw [if_pos (Or.inl low), if_neg]
      · ring
      · rintro (less | ⟨tie, -⟩) <;> linarith
    · rw [tie]
      by_cases even : Even ⌊x⌋
      · rw [if_neg (by norm_num [even]), if_pos (Or.inr ⟨rfl, even⟩)]
        ring
      · rw [if_pos (Or.inr ⟨by norm_num, even⟩), if_neg (by norm_num [even])]
        ring
    · rw [if_pos (Or.inl (by linarith)), if_neg]
      · ring
      · rintro (less | ⟨tie, -⟩) <;> linarith

/-! ### Binary digits -/

/-- The exponent of the last of the 53 digits of a number; the least there is stands for those about zero. -/
def lastExponent (x : ℚ) : ℤ := max (Int.log 2 |x| - 52) (-1074)

/-- A unit in the last place. -/
def ulp (x : ℚ) : ℚ := 2 ^ lastExponent x

/-- A number as it is held in a `float64`. -/
def float64 (x : ℚ) : ℚ := roundToEven (x / ulp x) * ulp x

theorem ulp_pos : 0 < ulp x := zpow_pos (by norm_num) _

theorem ulp_neg : ulp (-x) = ulp x := by rw [ulp, ulp, lastExponent, lastExponent, abs_neg]

theorem float64_neg : float64 (-x) = -float64 x := by
  rw [float64, float64, ulp_neg, neg_div, roundToEven_neg, Int.cast_neg, neg_mul]

theorem float64_zero : float64 0 = 0 := by decide +kernel

/-- Rounding errs by half a unit in the last place at most. -/
theorem abs_float64_sub_le : |float64 x - x| ≤ ulp x / 2 := by
  have error := abs_roundToEven_sub_le (x := x / ulp x)
  have scaled : float64 x - x = (roundToEven (x / ulp x) - x / ulp x) * ulp x := by
    rw [float64, sub_mul, div_mul_cancel₀ _ ulp_pos.ne']
  rw [scaled, abs_mul, abs_of_pos ulp_pos]
  calc |(roundToEven (x / ulp x) : ℚ) - x / ulp x| * ulp x ≤ 1 / 2 * ulp x :=
    mul_le_mul_of_nonneg_right error ulp_pos.le
    _ = ulp x / 2 := by ring

/-- A number with all its digits before the last place of `x` is a multiple of the unit there. -/
theorem multiple_of_ulp (h : lastExponent x ≤ e) : ∃ n : ℤ, (m : ℚ) * 2 ^ e = n * ulp x := by
  refine ⟨m * 2 ^ (e - lastExponent x).toNat, ?_⟩
  have split : (2 : ℚ) ^ e = 2 ^ (e - lastExponent x).toNat * ulp x := by
    rw [ulp, ← zpow_natCast, Int.toNat_of_nonneg (sub_nonneg.mpr h), ← zpow_add₀ (by norm_num), sub_add_cancel]
  rw [split]
  push_cast
  ring

theorem float64_of_digits (h : lastExponent x ≤ e) (value : x = m * 2 ^ e) : float64 x = x := by
  obtain ⟨n, multiple⟩ := multiple_of_ulp (m := m) h
  rw [← value] at multiple
  have units : x / ulp x = n := by
    rw [div_eq_iff ulp_pos.ne']
    exact multiple
  rw [float64, units, roundToEven_intCast, ← multiple]

theorem le_float64 (h : lastExponent x ≤ e) (le : m * 2 ^ e ≤ x) : m * 2 ^ e ≤ float64 x := by
  obtain ⟨n, multiple⟩ := multiple_of_ulp (m := m) h
  rw [multiple] at le ⊢
  have units : (n : ℚ) ≤ x / ulp x := (le_div_iff₀ ulp_pos).mpr le
  have rounded : n ≤ roundToEven (x / ulp x) := roundToEven_intCast n ▸ roundToEven_mono units
  exact mul_le_mul_of_nonneg_right (by exact_mod_cast rounded) ulp_pos.le

theorem float64_le (h : lastExponent x ≤ e) (le : x ≤ m * 2 ^ e) : float64 x ≤ m * 2 ^ e := by
  obtain ⟨n, multiple⟩ := multiple_of_ulp (m := m) h
  rw [multiple] at le ⊢
  have units : x / ulp x ≤ n := (div_le_iff₀ ulp_pos).mpr le
  have rounded : roundToEven (x / ulp x) ≤ n := roundToEven_intCast n ▸ roundToEven_mono units
  exact mul_le_mul_of_nonneg_right (by exact_mod_cast rounded) ulp_pos.le

theorem float64_nonneg (h : 0 ≤ x) : 0 ≤ float64 x := by
  have le := le_float64 (x := x) (m := 0) (le_refl _) (by simpa using h)
  simpa using le

theorem lastExponent_le {k : ℤ} (below : |x| < 2 ^ (k + 53)) (least : -1074 ≤ k) (some_ : x ≠ 0) :
    lastExponent x ≤ k := by
  have digits : Int.log 2 |x| < k + 53 :=
    (Int.lt_zpow_iff_log_lt one_lt_two (abs_pos.mpr some_)).mp (by exact_mod_cast below)
  exact max_le (by omega) least

/-- An integer of at most 53 digits is held as it is. -/
theorem float64_intCast {n : ℤ} (below : |n| < 2 ^ 53) : float64 (n : ℚ) = n := by
  rcases eq_or_ne n 0 with rfl | some_
  · exact_mod_cast float64_zero
  · have small : |(n : ℚ)| < 2 ^ (0 + 53 : ℤ) := by exact_mod_cast below
    exact float64_of_digits (lastExponent_le small (by norm_num) (by exact_mod_cast some_)) (by rw [zpow_zero, mul_one])

/-- The error of rounding a number below a power of two. -/
theorem abs_float64_sub_le_of_lt {k : ℤ} (below : |x| < 2 ^ (k + 53))
    (least : -1074 ≤ k) : |float64 x - x| ≤ 2 ^ k / 2 := by
  rcases eq_or_ne x 0 with rfl | some_
  · rw [float64_zero, sub_self, abs_zero]
    exact div_nonneg (zpow_nonneg (by norm_num) k) (by norm_num)
  · have unit : ulp x ≤ 2 ^ k := zpow_le_zpow_right₀ (by norm_num) (lastExponent_le below least some_)
    linarith [abs_float64_sub_le (x := x)]

/-! ### Order -/

private theorem float64_mono_of_pos (positive : 0 < x) (h : x ≤ y) : float64 x ≤ float64 y := by
  have positive' : 0 < y := positive.trans_le h
  have logs : Int.log 2 |x| ≤ Int.log 2 |y| := by
    rw [abs_of_pos positive, abs_of_pos positive']
    exact Int.log_mono_right positive h
  have exponents : lastExponent x ≤ lastExponent y := max_le_max (by omega) (le_refl _)
  rcases exponents.lt_or_eq with less | same
  · -- the power of two at which `y` has its first digit lies between them
    have last : lastExponent y = Int.log 2 |y| - 52 := by
      unfold lastExponent at less ⊢
      omega
    have first : (2 : ℚ) ^ Int.log 2 |y| ≤ y := by
      rw [abs_of_pos positive']
      exact_mod_cast Int.zpow_log_le_self (R := ℚ) (b := 2) one_lt_two positive'
    have beyond : x ≤ 2 ^ Int.log 2 |y| := by
      by_contra greater
      have reached : (2 : ℚ) ^ Int.log 2 |y| ≤ |x| := by
        rw [abs_of_pos positive]
        exact (not_le.mp greater).le
      have digits : Int.log 2 |y| ≤ Int.log 2 |x| :=
        (Int.zpow_le_iff_le_log (R := ℚ) (b := 2) one_lt_two (abs_pos.mpr positive.ne')).mp (by exact_mod_cast reached)
      unfold lastExponent at less
      omega
    have low := float64_le (x := x) (m := 1) (e := Int.log 2 |y|) (by omega) (by simpa using beyond)
    have high := le_float64 (x := y) (m := 1) (e := Int.log 2 |y|) (by omega) (by simpa using first)
    exact low.trans high
  · have unit : ulp x = ulp y := by rw [ulp, ulp, same]
    rw [float64, float64, unit]
    have rounded : roundToEven (x / ulp y) ≤ roundToEven (y / ulp y) :=
      roundToEven_mono (div_le_div_of_nonneg_right h ulp_pos.le)
    exact mul_le_mul_of_nonneg_right (by exact_mod_cast rounded) ulp_pos.le

theorem float64_mono : Monotone float64 := by
  intro x y h
  rcases lt_or_ge 0 x with positive | nonpos
  · exact float64_mono_of_pos positive h
  · rcases lt_or_ge y 0 with negative | nonneg
    · have mirrored := float64_mono_of_pos (neg_pos.mpr negative) (neg_le_neg h)
      rw [float64_neg, float64_neg] at mirrored
      exact neg_le_neg_iff.mp mirrored
    · have low : 0 ≤ float64 (-x) := float64_nonneg (neg_nonneg.mpr nonpos)
      rw [float64_neg] at low
      exact (neg_nonneg.mp low).trans (float64_nonneg nonneg)

example : float64 (1 / 10) = 3602879701896397 / 36028797018963968 ∧ float64 (2 ^ 53 + 1) = 2 ^ 53 := by decide +kernel

end Golang
