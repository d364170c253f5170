import Mathlib

/-! Single precision. A positive number of the normal range is rounded to 24 binary digits, to the nearest
such number and at a tie to the even one; the results of operations are exact results that were rounded. -/
namespace Binary32

/-- The weight of the last of 24 digits. -/
def quantum (x : ℚ) : ℚ := (2 : ℚ) ^ (Int.log 2 x - 23)

/-- The nearest integer, the even one at a tie. -/
def nearestEven (x : ℚ) : ℤ :=
  let k := ⌊x⌋
  if x - k < 1 / 2 then k
  else if 1 / 2 < x - k then k + 1
  else k + k % 2

def rounded (x : ℚ) : ℚ := nearestEven (x / quantum x) * quantum x

def mul (x y : ℚ) : ℚ := rounded (x * y)
def div (x y : ℚ) : ℚ := rounded (x / y)

/-- `llround` of a number that is not negative: at a tie away from zero. -/
def llround (x : ℚ) : ℤ := ⌊x + 1 / 2⌋

theorem quantum_pos (x : ℚ) : 0 < quantum x := by
  unfold quantum
  positivity

theorem nearestEven_error (x : ℚ) : |(nearestEven x : ℚ) - x| ≤ 1 / 2 := by
  have low := Int.floor_le x
  have high := Int.lt_floor_add_one x
  have even : (⌊x⌋ % 2 : ℤ) = 0 ∨ (⌊x⌋ % 2 : ℤ) = 1 := by omega
  unfold nearestEven
  simp only
  split
  · rw [abs_le]
    constructor <;> linarith
  split
  · push_cast
    rw [abs_le]
    constructor <;> linarith
  · push_cast
    rcases even with zero | one
    · rw [zero, abs_le]
      push_cast
      constructor <;> linarith
    · rw [one, abs_le]
      push_cast
      constructor <;> linarith

/-- Rounding changes a number by a part in 2^24 at most. -/
theorem rounded_error {x : ℚ} (positive : 0 < x) : |rounded x - x| ≤ x / 2 ^ 24 := by
  have step := quantum_pos x
  have error := mul_le_mul_of_nonneg_right (nearestEven_error (x / quantum x)) step.le
  have scaled : |rounded x - x| = |(nearestEven (x / quantum x) : ℚ) - x / quantum x| * quantum x := by
    rw [← abs_of_pos step, ← abs_mul, abs_of_pos step, rounded, sub_mul, div_mul_cancel₀ _ step.ne']
  have digits : quantum x * 2 ^ 23 ≤ x := by
    have lead := Int.zpow_log_le_self (b := 2) (by norm_num) positive
    have weight : quantum x * 2 ^ 23 = (2 : ℚ) ^ Int.log 2 x := by
      rw [quantum, ← zpow_natCast, ← zpow_add₀ (by norm_num)]
      congr 1
      push_cast
      omega
    rw [weight]
    exact_mod_cast lead
  rw [scaled]
  linarith

theorem rounded_bounds {x : ℚ} (positive : 0 < x) : x * (1 - 1 / 2 ^ 24) ≤ rounded x ∧ rounded x ≤ x * (1 + 1 / 2 ^ 24) := by
  obtain ⟨low, high⟩ := abs_le.mp (rounded_error positive)
  constructor <;> linarith

theorem rounded_pos {x : ℚ} (positive : 0 < x) : 0 < rounded x := by
  have low := (rounded_bounds positive).1
  have factor : x * (1 - 1 / 2 ^ 24) > 0 := mul_pos positive (by norm_num)
  exact factor.trans_le low

theorem llround_error (x : ℚ) : |(llround x : ℚ) - x| ≤ 1 / 2 := by
  have low := Int.floor_le (x + 1 / 2)
  have high := Int.lt_floor_add_one (x + 1 / 2)
  rw [llround, abs_le]
  constructor <;> linarith

end Binary32
