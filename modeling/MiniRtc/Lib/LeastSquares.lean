import Mathlib.Algebra.BigOperators.Ring.List
import Mathlib.Algebra.Order.BigOperators.Group.List
import Mathlib.Algebra.Order.Ring.Abs
import Mathlib.Tactic

/-! The straight line through points that fits them best.
Both coordinates are centred first. Points that lie on a line give its slope back, and every prediction lies
on it. -/
namespace LeastSquares

variable {ι K : Type*} [Field K] [LinearOrder K] [IsStrictOrderedRing K]

def mean (f : ι → K) (points : List ι) : K := (points.map f).sum / points.length

/-- The sum of the products of what the coordinates differ from their means by. -/
def covariance (x y : ι → K) (points : List ι) : K :=
  (points.map fun i => (x i - mean x points) * (y i - mean y points)).sum

def variance (x : ι → K) (points : List ι) : K := covariance x x points

def slope (x y : ι → K) (points : List ι) : K := covariance x y points / variance x points

/-- The value of the fitted line. -/
def predict (x y : ι → K) (points : List ι) (place : K) : K :=
  mean y points + slope x y points * (place - mean x points)

variable {x y : ι → K} {points : List ι} {c s : K}

theorem mean_line (some : points ≠ []) (line : ∀ i ∈ points, y i = c + s * x i) :
    mean y points = c + s * mean x points := by
  have count : (points.length : K) ≠ 0 := by
    exact_mod_cast (List.length_pos_iff.mpr some).ne'
  have sums : (points.map y).sum = points.length * c + s * (points.map x).sum := by
    rw [List.map_congr_left line]
    clear some count line
    induction points with
    | nil => simp
    | cons i points ih =>
      simp only [List.map_cons, List.sum_cons, ih, List.length_cons]
      push_cast
      ring
  rw [mean, mean, sums]
  field_simp

theorem covariance_line (some : points ≠ []) (line : ∀ i ∈ points, y i = c + s * x i) :
    covariance x y points = s * variance x points := by
  have centre := mean_line some line
  have terms : ∀ i ∈ points, (x i - mean x points) * (y i - mean y points) =
      s * ((x i - mean x points) * (x i - mean x points)) := by
    intro i member
    rw [line i member, centre]
    ring
  rw [covariance, List.map_congr_left terms, variance, covariance, List.sum_map_mul_left]

/-- Points at one place have no spread. -/
theorem variance_const {v : K} (same : ∀ i ∈ points, x i = v) : variance x points = 0 := by
  by_cases some : points = []
  · rw [some]
    rfl
  · have centre : mean x points = v := by
      rw [mean_line some (x := x) (c := v) (s := 0) fun i member => by rw [same i member, zero_mul, add_zero],
        zero_mul, add_zero]
    refine List.sum_eq_zero fun term member => ?_
    obtain ⟨i, there, rfl⟩ := List.mem_map.mp member
    rw [same i there, centre, sub_self, zero_mul]

/-- The slope of points on a line. -/
theorem slope_line (spread : variance x points ≠ 0) (line : ∀ i ∈ points, y i = c + s * x i) :
    slope x y points = s := by
  have some : points ≠ [] := by
    rintro rfl
    exact spread rfl
  rw [slope, covariance_line some line, mul_div_cancel_right₀ _ spread]

/-- Every prediction from points on a line lies on it. -/
theorem predict_line (spread : variance x points ≠ 0) (line : ∀ i ∈ points, y i = c + s * x i) (place : K) :
    predict x y points place = c + s * place := by
  have some : points ≠ [] := by
    rintro rfl
    exact spread rfl
  rw [predict, slope_line spread line, mean_line some line]
  ring

end LeastSquares
