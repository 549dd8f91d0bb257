import DatrixOps.Golang.Float

/-! Computing with fractions: what the operations of a program make of the exact results, and `math.Round`. -/

namespace Golang

/-- How the operations on fractions round the exact results. -/
class Arithmetic where
  rounded : ℚ → ℚ
  rounded_mono : Monotone rounded

export Arithmetic (rounded)

namespace Arithmetic

@[reducible] def exact : Arithmetic := ⟨id, monotone_id⟩

/-- `float64`, each operation on its own. -/
@[reducible] def binary64 : Arithmetic := ⟨float64, float64_mono⟩

end Arithmetic

/-- `math.Round`: the nearest integer, half away from zero. It is exact. -/
def mathRound (x : ℚ) : ℚ := if x < 0 then -⌊-x + 1 / 2⌋ else ⌊x + 1 / 2⌋

section
variable [Arithmetic]

/-- Rounded to one decimal, as in `math.Round(x*10) / 10`. -/
def round1 (x : ℚ) : ℚ := rounded (mathRound (rounded (x * 10)) / 10)

/-- The conversion of an integer to `float64`. -/
def ofInt (n : ℤ) : ℚ := rounded n

/-- `sum += x`, over a list. -/
def sumOf (xs : List ℚ) : ℚ := xs.foldl (fun sum x => rounded (sum + x)) 0

end

/-! ### Order -/

variable {x y : ℚ}

theorem mathRound_mono (h : x ≤ y) : mathRound x ≤ mathRound y := by
  unfold mathRound
  split
  · split
    · have floors : ⌊-y + 1 / 2⌋ ≤ ⌊-x + 1 / 2⌋ := Int.floor_le_floor (by linarith)
      exact_mod_cast neg_le_neg floors
    · have below : 0 ≤ ⌊-x + 1 / 2⌋ := Int.floor_nonneg.mpr (by linarith)
      have above : 0 ≤ ⌊y + 1 / 2⌋ := Int.floor_nonneg.mpr (by linarith)
      exact_mod_cast (neg_nonpos.mpr below).trans above
  · rw [if_neg (by linarith)]
    exact_mod_cast Int.floor_le_floor (by linarith)

theorem round1_mono [Arithmetic] (h : x ≤ y) : round1 x ≤ round1 y := by
  have scaled : mathRound (rounded (x * 10)) ≤ mathRound (rounded (y * 10)) :=
    mathRound_mono (Arithmetic.rounded_mono (by linarith))
  exact Arithmetic.rounded_mono (div_le_div_of_nonneg_right scaled (by norm_num))

theorem ofInt_mono [Arithmetic] {m n : ℤ} (h : m ≤ n) : ofInt m ≤ ofInt n :=
  Arithmetic.rounded_mono (by exact_mod_cast h)

/-! ### Errors -/

theorem abs_mathRound_sub_le : |mathRound x - x| ≤ 1 / 2 := by
  unfold mathRound
  rw [abs_le]
  split
  · have low := Int.lt_floor_add_one (-x + 1 / 2)
    have high := Int.floor_le (-x + 1 / 2)
    constructor <;> linarith
  · have low := Int.lt_floor_add_one (x + 1 / 2)
    have high := Int.floor_le (x + 1 / 2)
    constructor <;> linarith

theorem abs_sum_le {xs : List ℚ} {b : ℚ} (bounds : ∀ x ∈ xs, |x| ≤ b) : |xs.sum| ≤ xs.length * b := by
  induction xs with
  | nil => simp
  | cons x xs ih =>
    have rest := ih fun y hy => bounds y (List.mem_cons_of_mem _ hy)
    have first := bounds x List.mem_cons_self
    rw [List.sum_cons, List.length_cons]
    push_cast
    linarith [abs_add_le x xs.sum]

/-- A sum adds up the errors of its steps. -/
theorem abs_sumOf_sub_le {xs : List ℚ} {b : ℚ} {k : ℤ} (bounds : ∀ x ∈ xs, |x| ≤ b)
    (fits : xs.length * (b + 2 ^ k / 2) < 2 ^ (k + 53))
    (least : -1074 ≤ k) : |@sumOf .binary64 xs - xs.sum| ≤ xs.length * (2 ^ k / 2) := by
  have unit : (0 : ℚ) < 2 ^ k := zpow_pos (by norm_num) k
  induction xs using List.reverseRecOn with
  | nil => simp [sumOf]
  | append_singleton xs x ih =>
    have last : |x| ≤ b := bounds x (by simp)
    have nonneg : 0 ≤ b := (abs_nonneg x).trans last
    rw [List.length_append, List.length_singleton] at fits ⊢
    push_cast at fits ⊢
    have error := ih (fun y hy => bounds y (List.mem_append_left _ hy)) (by linarith)
    have exact_ := abs_sum_le fun y hy => bounds y (List.mem_append_left _ hy)
    have before : |@sumOf .binary64 xs + x| < 2 ^ (k + 53) := by
      rw [abs_le] at error exact_ last
      rw [abs_lt]
      constructor <;> linarith
    have step := abs_float64_sub_le_of_lt before least
    have sum : @sumOf .binary64 (xs ++ [x]) = float64 (@sumOf .binary64 xs + x) := by
      unfold sumOf
      rw [List.foldl_append]
      rfl
    rw [sum, List.sum_append, List.sum_singleton]
    rw [abs_le] at error step ⊢
    constructor <;> linarith

/-! ### Exact fractions -/

section
attribute [local instance] Arithmetic.exact

theorem sumOf_exact (xs : List ℚ) : sumOf xs = xs.sum := (List.sum_eq_foldl ..).symm

example : mathRound (5 / 2) = 3 ∧ mathRound (-5 / 2) = -3 ∧ round1 (37 / 300) = 1 / 10 := by decide +kernel

end

end Golang
