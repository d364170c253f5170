import Mathlib

/-! The root of a quotient of natural numbers, rounded down, up and to the nearest number, by natural numbers
alone. -/
namespace RootRatio

def floorRoot (a u : Nat) : Nat := Nat.sqrt (a / u)

def ceilRoot (a u : Nat) : Nat := if floorRoot a u * floorRoot a u * u = a then floorRoot a u else floorRoot a u + 1

/-- At a half away from zero. -/
def roundRoot (a u : Nat) : Nat :=
  if (2 * floorRoot a u + 1) * (2 * floorRoot a u + 1) * u ≤ 4 * a then floorRoot a u + 1 else floorRoot a u

section Bounds

variable {a u k : Nat} (positive : 0 < u)
include positive

theorem le_floorRoot : k ≤ floorRoot a u ↔ k * k * u ≤ a := by
  rw [floorRoot, Nat.le_sqrt, Nat.le_div_iff_mul_le positive]

theorem floorRoot_lt : floorRoot a u < k ↔ a < k * k * u := by
  rw [← not_le, le_floorRoot positive, not_le]

theorem ceilRoot_le : ceilRoot a u ≤ k ↔ a ≤ k * k * u := by
  have below : floorRoot a u * floorRoot a u * u ≤ a := (le_floorRoot positive).mp le_rfl
  unfold ceilRoot
  split
  · rename_i exact
    constructor
    · intro le
      rw [← exact]
      exact Nat.mul_le_mul_right _ (Nat.mul_le_mul le le)
    · intro le
      by_contra more
      have less := Nat.mul_lt_mul_of_lt_of_le (Nat.mul_self_lt_mul_self (not_le.mp more)) (le_refl u) positive
      omega
  · rename_i inexact
    constructor
    · intro lt
      exact ((floorRoot_lt positive).mp lt).le
    · intro le
      have strict : a < (floorRoot a u + 1) * (floorRoot a u + 1) * u := (floorRoot_lt positive).mp (Nat.lt_succ_self _)
      by_contra less
      have upper : k ≤ floorRoot a u := by omega
      have same := (Nat.mul_le_mul_right u (Nat.mul_le_mul upper upper)).trans below
      have equal : k * k * u = a := by omega
      have floor : floorRoot a u * floorRoot a u * u = a := by
        have high := Nat.mul_le_mul_right u (Nat.mul_le_mul upper upper)
        omega
      exact inexact floor

theorem roundRoot_le : roundRoot a u ≤ k ↔ 4 * a < (2 * k + 1) * (2 * k + 1) * u := by
  have below : floorRoot a u * floorRoot a u * u ≤ a := (le_floorRoot positive).mp le_rfl
  have above : a < (floorRoot a u + 1) * (floorRoot a u + 1) * u := (floorRoot_lt positive).mp (Nat.lt_succ_self _)
  have mono : ∀ i j : Nat, i ≤ j → (2 * i + 1) * (2 * i + 1) * u ≤ (2 * j + 1) * (2 * j + 1) * u := fun i j le =>
    Nat.mul_le_mul_right u (Nat.mul_le_mul (by omega) (by omega))
  have next : 4 * ((floorRoot a u + 1) * (floorRoot a u + 1) * u) ≤
      (2 * (floorRoot a u + 1) + 1) * (2 * (floorRoot a u + 1) + 1) * u := by
    have square : 4 * ((floorRoot a u + 1) * (floorRoot a u + 1)) ≤
        (2 * (floorRoot a u + 1) + 1) * (2 * (floorRoot a u + 1) + 1) := by nlinarith
    calc 4 * ((floorRoot a u + 1) * (floorRoot a u + 1) * u)
        = 4 * ((floorRoot a u + 1) * (floorRoot a u + 1)) * u := by ring
      _ ≤ _ := Nat.mul_le_mul_right u square
  unfold roundRoot
  split
  · rename_i half
    constructor
    · intro le
      have step := mono _ _ le
      omega
    · intro lt
      by_contra more
      have step := mono k (floorRoot a u) (by omega)
      omega
  · rename_i half
    constructor
    · intro le
      have step := mono _ _ le
      omega
    · intro lt
      by_contra more
      have upper : 2 * k + 1 ≤ 2 * floorRoot a u := by omega
      have square := Nat.mul_le_mul_right u (Nat.mul_le_mul upper upper)
      have scaled : 2 * floorRoot a u * (2 * floorRoot a u) * u = 4 * (floorRoot a u * floorRoot a u * u) := by ring
      omega

/-! The functions are those of real numbers. -/

theorem floorRoot_eq : floorRoot a u = ⌊√((a : ℝ) / u)⌋₊ := by
  have unit : (0 : ℝ) < u := by exact_mod_cast positive
  refine eq_of_forall_le_iff fun k => ?_
  have root : (k : ℝ) ≤ √((a : ℝ) / u) ↔ (k : ℝ) ^ 2 ≤ a / u :=
    Real.le_sqrt (Nat.cast_nonneg k) (by positivity)
  rw [le_floorRoot positive, Nat.le_floor_iff (Real.sqrt_nonneg _), root, le_div_iff₀ unit, sq]
  exact_mod_cast Iff.rfl

theorem ceilRoot_eq : ceilRoot a u = ⌈√((a : ℝ) / u)⌉₊ := by
  have unit : (0 : ℝ) < u := by exact_mod_cast positive
  refine eq_of_forall_ge_iff fun k => ?_
  rw [ceilRoot_le positive, Nat.ceil_le, Real.sqrt_le_left (Nat.cast_nonneg k), div_le_iff₀ unit, sq]
  exact_mod_cast Iff.rfl

theorem roundRoot_eq : roundRoot a u = ⌊√((a : ℝ) / u) + 1 / 2⌋₊ := by
  have unit : (0 : ℝ) < u := by exact_mod_cast positive
  refine eq_of_forall_ge_iff fun k => ?_
  have half : √((a : ℝ) / u) + 1 / 2 < (k + 1 : ℕ) ↔ √((a : ℝ) / u) < (2 * k + 1) / 2 := by
    push_cast
    constructor <;> intro less <;> linarith
  rw [roundRoot_le positive, ← Nat.lt_succ_iff, Nat.floor_lt (by positivity), Nat.succ_eq_add_one, half,
    Real.sqrt_lt' (by positivity), div_lt_iff₀ unit]
  have square : ((2 * (k : ℝ) + 1) / 2) ^ 2 * u = (2 * k + 1) * (2 * k + 1) * u / 4 := by ring
  rw [square, lt_div_iff₀ (by norm_num), mul_comm (a : ℝ)]
  exact_mod_cast Iff.rfl

end Bounds

end RootRatio
