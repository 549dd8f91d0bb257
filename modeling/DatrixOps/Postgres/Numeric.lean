import Mathlib.Data.Rat.Floor
import Mathlib.Tactic.Linarith
import Mathlib.Tactic.FieldSimp
import Mathlib.Tactic.Ring

/-! `numeric` values as exact numbers: rounding to a scale, and the columns that limit their digits. -/

namespace Postgres

/-- The nearest integer, half away from zero. -/
def nearest (q : ℚ) : Int := if 0 ≤ q then ⌊q + 1 / 2⌋ else ⌈q - 1 / 2⌉

/-- `ROUND(q, scale)` -/
def roundTo (scale : Nat) (q : ℚ) : ℚ := nearest (q * 10 ^ scale) / 10 ^ scale

/-- A value assigned to a column `NUMERIC(precision, scale)`: it is rounded, and an error when its digits do not fit. -/
def numeric (precision scale : Nat) (q : ℚ) : Option ℚ :=
  if |roundTo scale q| < 10 ^ (precision - scale) then some (roundTo scale q) else none

/-- A value assigned to a column `INTEGER` -/
def int4 (n : Int) : Option Int := if -2 ^ 31 ≤ n ∧ n < 2 ^ 31 then some n else none

/-- A value assigned to a column `VARCHAR(limit)` -/
def varchar (limit : Nat) (s : String) : Option String := if s.length ≤ limit then some s else none

/-- A value assigned to a column that may be `NULL` -/
def nullable {α : Type} (column : α → Option α) : Option α → Option (Option α)
  | none => some none
  | some v => (column v).map some

variable {q : ℚ} {scale : Nat} {n : Int}

theorem abs_nearest_sub_le : |(nearest q : ℚ) - q| ≤ 1 / 2 := by
  unfold nearest
  rw [abs_le]
  split
  · have low := Int.lt_floor_add_one (q + 1 / 2)
    have high := Int.floor_le (q + 1 / 2)
    exact ⟨by linarith, by linarith⟩
  · have low := Int.le_ceil (q - 1 / 2)
    have high := Int.ceil_lt_add_one (q - 1 / 2)
    exact ⟨by linarith, by linarith⟩

/-- What is nearer than any other integer is the nearest one. -/
theorem nearest_eq (h : |(n : ℚ) - q| < 1 / 2) : nearest q = n := by
  have error := abs_nearest_sub_le (q := q)
  rw [abs_lt] at h
  rw [abs_le] at error
  have above : (nearest q : ℚ) < n + 1 := by linarith
  have below : (n : ℚ) < nearest q + 1 := by linarith
  have above : nearest q < n + 1 := by exact_mod_cast above
  have below : n < nearest q + 1 := by exact_mod_cast below
  omega

theorem nearest_intCast : nearest (n : ℚ) = n := nearest_eq (by norm_num)

/-- A number with no more digits than the scale is left as it is. -/
theorem roundTo_div : roundTo scale ((n : ℚ) / 10 ^ scale) = n / 10 ^ scale := by
  have some_ : (10 : ℚ) ^ scale ≠ 0 := by positivity
  rw [roundTo, div_mul_cancel₀ _ some_, nearest_intCast]

theorem roundTo_roundTo : roundTo scale (roundTo scale q) = roundTo scale q := roundTo_div

theorem roundTo_natCast {n : Nat} : roundTo scale (n : ℚ) = n := by
  have some_ : (10 : ℚ) ^ scale ≠ 0 := by positivity
  have same : (n : ℚ) = ((n * 10 ^ scale : Nat) : Int) / 10 ^ scale := by
    rw [Int.cast_natCast, Nat.cast_mul, Nat.cast_pow, Nat.cast_ofNat, mul_div_cancel_right₀ _ some_]
  rw [same, roundTo_div]

theorem numeric_eq_some {precision : Nat} {v : ℚ} (h : numeric precision scale q = some v) : v = roundTo scale q := by
  unfold numeric at h
  split at h
  · exact (Option.some.inj h).symm
  · cases h

theorem int4_eq_some {v : Int} (h : int4 n = some v) : v = n := by
  unfold int4 at h
  split at h
  · exact (Option.some.inj h).symm
  · cases h

example : roundTo 2 (3125 / 1000) = 313 / 100 ∧ numeric 5 2 1000 = none := by decide +kernel

end Postgres
