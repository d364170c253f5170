import Mathlib

/-! Systems of linear equations over a field, solved in place by row operations. The unknowns and the
right sides are elements of a module. An operation keeps every solution, and it keeps the matrix
regular; a regular matrix has a pivot in every column, and what is left at the end is the solution. -/
namespace RowReduction

/-- The coefficients and the right sides of the equations. -/
structure System (K V : Type*) where
  matrix : Nat → Nat → K
  rhs : Nat → V

variable {K V : Type*} [Field K] [AddCommGroup V] [Module K V] {m : Nat} {s : System K V}

namespace System

def Solves (m : Nat) (s : System K V) (x : Nat → V) : Prop :=
  ∀ i < m, ∑ j ∈ Finset.range m, s.matrix i j • x j = s.rhs i

/-- Only zero is sent to zero. -/
def Regular (m : Nat) (matrix : Nat → Nat → K) : Prop :=
  ∀ y : Nat → K, (∀ i < m, ∑ j ∈ Finset.range m, matrix i j * y j = 0) → ∀ j < m, y j = 0

/-- The columns before this one are those of the identity. -/
def Cleared (m col : Nat) (matrix : Nat → Nat → K) : Prop :=
  ∀ j < col, ∀ i < m, matrix i j = if i = j then 1 else 0

def swap (s : System K V) (i j : Nat) : System K V where
  matrix row := s.matrix (Equiv.swap i j row)
  rhs row := s.rhs (Equiv.swap i j row)

/-- A row times a factor, from a column on. -/
def scale (s : System K V) (col i : Nat) (c : K) : System K V where
  matrix row j := if row = i ∧ col ≤ j then c * s.matrix i j else s.matrix row j
  rhs row := if row = i then c • s.rhs i else s.rhs row

/-- A multiple of a row added to another, from a column on. -/
def add (s : System K V) (col i k : Nat) (c : K) : System K V where
  matrix row j := if row = i ∧ col ≤ j then s.matrix i j + c * s.matrix k j else s.matrix row j
  rhs row := if row = i then s.rhs i + c • s.rhs k else s.rhs row

/-! ### Operations keep solutions -/

theorem swap_lt {i j row : Nat} (hi : i < m) (hj : j < m) (hrow : row < m) : Equiv.swap i j row < m := by
  rw [Equiv.swap_apply_def]
  split_ifs
  · exact hj
  · exact hi
  · exact hrow

theorem Solves.swap {x : Nat → V} (solves : s.Solves m x) {i j : Nat} (hi : i < m) (hj : j < m) :
    (s.swap i j).Solves m x := fun _ hrow => solves _ (swap_lt hi hj hrow)

omit [AddCommGroup V] [Module K V] in
theorem Regular.swap (regular : Regular m s.matrix) {i j : Nat} (hi : i < m) (hj : j < m) :
    Regular m (s.swap i j).matrix := by
  intro y zero
  refine regular y fun row hrow => ?_
  have here := zero (Equiv.swap i j row) (swap_lt hi hj hrow)
  simpa only [System.swap, Equiv.swap_apply_self] using here

/-- Where the row is zero before the column, it is the whole row that is scaled. -/
theorem scale_matrix {col i : Nat} {c : K} (zero : ∀ j < col, s.matrix i j = 0) (row j : Nat) :
    (s.scale col i c).matrix row j = if row = i then c * s.matrix i j else s.matrix row j := by
  unfold scale
  by_cases here : row = i
  · subst here
    by_cases later : col ≤ j
    · simp [later]
    · simp [later, zero j (not_le.mp later)]
  · simp [here]

theorem add_matrix {col i k : Nat} {c : K} (zero : ∀ j < col, s.matrix k j = 0) (row j : Nat) :
    (s.add col i k c).matrix row j = if row = i then s.matrix i j + c * s.matrix k j else s.matrix row j := by
  unfold add
  by_cases here : row = i
  · subst here
    by_cases later : col ≤ j
    · simp [later]
    · simp [later, zero j (not_le.mp later)]
  · simp [here]

theorem Solves.scale {x : Nat → V} (solves : s.Solves m x) {col i : Nat} {c : K}
    (zero : ∀ j < col, s.matrix i j = 0) : (s.scale col i c).Solves m x := by
  intro row hrow
  simp only [scale_matrix zero]
  by_cases here : row = i
  · subst here
    simp only [if_true, mul_smul, System.scale]
    rw [← Finset.smul_sum, solves row hrow]
  · simp only [if_neg here, System.scale]
    exact solves row hrow

theorem Regular.scale (regular : Regular m s.matrix) {col i : Nat} {c : K} (zero : ∀ j < col, s.matrix i j = 0)
    (unit : c ≠ 0) : Regular m (s.scale col i c).matrix := by
  intro y null
  refine regular y fun row hrow => ?_
  have here := null row hrow
  simp only [scale_matrix zero] at here
  by_cases same : row = i
  · subst same
    simp only [if_true, mul_assoc] at here
    rw [← Finset.mul_sum] at here
    exact (mul_eq_zero.mp here).resolve_left unit
  · simpa only [if_neg same] using here

theorem Solves.add {x : Nat → V} (solves : s.Solves m x) {col i k : Nat} {c : K} (hk : k < m)
    (zero : ∀ j < col, s.matrix k j = 0) : (s.add col i k c).Solves m x := by
  intro row hrow
  simp only [add_matrix zero]
  by_cases here : row = i
  · subst here
    simp only [if_true, add_smul, mul_smul, System.add]
    rw [Finset.sum_add_distrib, ← Finset.smul_sum, solves row hrow, solves k hk]
  · simp only [if_neg here, System.add]
    exact solves row hrow

theorem Regular.add (regular : Regular m s.matrix) {col i k : Nat} {c : K} (hk : k < m) (other : k ≠ i)
    (zero : ∀ j < col, s.matrix k j = 0) : Regular m (s.add col i k c).matrix := by
  intro y null
  have pivot := null k hk
  simp only [add_matrix zero, if_neg other] at pivot
  refine regular y fun row hrow => ?_
  have here := null row hrow
  simp only [add_matrix zero] at here
  by_cases same : row = i
  · subst same
    simp only [if_true, add_mul, mul_assoc] at here
    rwa [Finset.sum_add_distrib, ← Finset.mul_sum, pivot, mul_zero, add_zero] at here
  · simpa only [if_neg same] using here

/-- A matrix with a determinant is regular. -/
theorem regular_of_det {matrix : Nat → Nat → K}
    (det : (Matrix.of fun i j : Fin m => matrix i j).det ≠ 0) : Regular m matrix := by
  intro y null j hj
  have zero : (Matrix.of fun i j : Fin m => matrix i j).mulVec (fun j => y j) = 0 := by
    funext i
    have here := null i i.isLt
    rw [Finset.sum_range] at here
    exact here
  exact congrFun (Matrix.eq_zero_of_mulVec_eq_zero det zero) ⟨j, hj⟩

/-- The system with zeros on its right side. -/
def homogeneous (s : System K V) : System K K := ⟨s.matrix, fun _ => 0⟩

omit [AddCommGroup V] [Module K V] in
/-- What keeps the solutions with zeros on the right side makes no matrix regular. -/
theorem Regular.of_solves {s' : System K V} (keeps : ∀ y, s.homogeneous.Solves m y → s'.homogeneous.Solves m y)
    (regular : Regular m s'.matrix) : Regular m s.matrix := fun y null => regular y (keeps y null)

omit [AddCommGroup V] [Module K V] in
theorem regular_swap {i j : Nat} (hi : i < m) (hj : j < m) : Regular m (s.swap i j).matrix ↔ Regular m s.matrix := by
  refine ⟨Regular.of_solves fun y solves => ?_, fun regular => regular.swap hi hj⟩
  have same : (s.swap i j).homogeneous = s.homogeneous.swap i j := rfl
  rw [same]
  exact solves.swap hi hj

theorem regular_scale {col i : Nat} {c : K} (zero : ∀ j < col, s.matrix i j = 0) (unit : c ≠ 0) :
    Regular m (s.scale col i c).matrix ↔ Regular m s.matrix := by
  refine ⟨Regular.of_solves fun y solves => ?_, fun regular => regular.scale zero unit⟩
  have same : (s.scale col i c).homogeneous = s.homogeneous.scale col i c := by
    simp [homogeneous, System.scale]
  rw [same]
  exact solves.scale zero

theorem regular_add {col i k : Nat} {c : K} (hk : k < m) (other : k ≠ i) (zero : ∀ j < col, s.matrix k j = 0) :
    Regular m (s.add col i k c).matrix ↔ Regular m s.matrix := by
  refine ⟨Regular.of_solves fun y solves => ?_, fun regular => regular.add hk other zero⟩
  have same : (s.add col i k c).homogeneous = s.homogeneous.add col i k c := by
    simp [homogeneous, System.add]
  rw [same]
  exact solves.add hk zero

theorem det_of_regular {matrix : Nat → Nat → K} (regular : Regular m matrix) :
    (Matrix.of fun i j : Fin m => matrix i j).det ≠ 0 := by
  intro zero
  obtain ⟨v, nonzero, null⟩ := Matrix.exists_mulVec_eq_zero_iff.mpr zero
  refine nonzero (funext fun j => ?_)
  have trivial := regular (fun j => if h : j < m then v ⟨j, h⟩ else 0) ?_ j j.isLt
  · simpa using trivial
  · intro i hi
    have here := congrFun null ⟨i, hi⟩
    rw [Finset.sum_range]
    simpa [Matrix.mulVec, dotProduct] using here

/-- A system with a determinant has a solution. -/
theorem exists_solves (det : (Matrix.of fun i j : Fin m => s.matrix i j).det ≠ 0) : ∃ x, s.Solves m x := by
  have inverse := Matrix.mul_nonsing_inv _ (isUnit_iff_ne_zero.mpr det)
  generalize (Matrix.of fun i j : Fin m => s.matrix i j)⁻¹ = inv at inverse
  refine ⟨fun j => if h : j < m then ∑ l : Fin m, inv ⟨j, h⟩ l • s.rhs l else 0, fun i hi => ?_⟩
  have terms : ∀ j : Fin m, (s.matrix i j • if h : (j : Nat) < m then ∑ l : Fin m, inv ⟨j, h⟩ l • s.rhs l else 0) =
      ∑ l : Fin m, (s.matrix i j * inv j l) • s.rhs l := by
    intro j
    rw [dif_pos j.isLt, Finset.smul_sum]
    exact Finset.sum_congr rfl fun l _ => (mul_smul _ _ _).symm
  have entries : ∀ l : Fin m, ∑ j : Fin m, (s.matrix i j * inv j l) • s.rhs l =
      (if (⟨i, hi⟩ : Fin m) = l then (1 : K) else 0) • s.rhs l := by
    intro l
    rw [← Finset.sum_smul]
    exact congrArg (· • s.rhs l) (congrFun (congrFun inverse ⟨i, hi⟩) l)
  rw [Finset.sum_range, Finset.sum_congr rfl fun j _ => terms j, Finset.sum_comm,
    Finset.sum_congr rfl fun l _ => entries l]
  simp

/-! ### Columns -/

/-- A column of a regular matrix that is next to be cleared has a pivot. -/
theorem exists_pivot {matrix : Nat → Nat → K} {col : Nat} (regular : Regular m matrix)
    (cleared : Cleared m col matrix) (hcol : col < m) : ∃ pivot, col ≤ pivot ∧ pivot < m ∧ matrix pivot col ≠ 0 := by
  by_contra none
  simp only [not_exists, not_and, not_not] at none
  -- Without a pivot the column is a combination of the cleared ones.
  have zero := regular (fun j => if j < col then -matrix j col else if j = col then 1 else 0) ?_ col hcol
  · simp at zero
  · intro i hi
    have split : ∀ j ∈ Finset.range m, matrix i j * (if j < col then -matrix j col else if j = col then 1 else 0) =
        (if j = i ∧ i < col then -matrix i col else 0) + if j = col then matrix i col else 0 := by
      intro j _
      by_cases before : j < col
      · rw [if_pos before, cleared j before i hi, if_neg before.ne]
        by_cases same : i = j
        · subst same
          simp [before]
        · simp [same, Ne.symm same]
      · rw [if_neg before]
        by_cases here : j = col
        · subst here
          have away : ¬ (j = i ∧ i < j) := fun both => absurd both.1 both.2.ne'
          simp [away]
        · have away : ¬ (j = i ∧ i < col) := fun both => before (both.1 ▸ both.2)
          simp [here, away]
    rw [Finset.sum_congr rfl split, Finset.sum_add_distrib, Finset.sum_ite_eq' (Finset.range m) col,
      if_pos (Finset.mem_range.mpr hcol)]
    by_cases early : i < col
    · simp [early, hi]
    · simp [early, none i (not_lt.mp early) hi]

/-- The identity is regular. -/
theorem Cleared.regular {matrix : Nat → Nat → K} (cleared : Cleared m m matrix) : Regular m matrix := by
  intro y null j hj
  have here := null j hj
  rw [Finset.sum_eq_single j, cleared j hj j hj, if_pos rfl, one_mul] at here
  · exact here
  · intro k hk other
    rw [cleared k (Finset.mem_range.mp hk) j hj, if_neg (Ne.symm other), zero_mul]
  · exact fun outside => absurd (Finset.mem_range.mpr hj) outside

/-- A system with the identity as its matrix shows its solution. -/
theorem Solves.eq {x : Nat → V} (solves : s.Solves m x) (cleared : Cleared m m s.matrix) {i : Nat} (hi : i < m) :
    s.rhs i = x i := by
  rw [← solves i hi, Finset.sum_eq_single i]
  · rw [cleared i hi i hi, if_pos rfl, one_smul]
  · intro j hj other
    rw [cleared j (Finset.mem_range.mp hj) i hi, if_neg (Ne.symm other), zero_smul]
  · exact fun outside => absurd (Finset.mem_range.mpr hi) outside

omit [AddCommGroup V] [Module K V] in
/-- A swap of later rows leaves the cleared columns. -/
theorem Cleared.swap {col i j : Nat} (cleared : Cleared m col s.matrix) (hi : col ≤ i) (hj : col ≤ j) (hi' : i < m)
    (hj' : j < m) : Cleared m col (s.swap i j).matrix := by
  intro k hk row hrow
  have here := cleared k hk (Equiv.swap i j row) (swap_lt hi' hj' hrow)
  rw [System.swap, here, Equiv.swap_apply_def]
  split_ifs
  all_goals first | rfl | omega

theorem Cleared.scale {col i : Nat} {c : K} (cleared : Cleared m col s.matrix) :
    Cleared m col (s.scale col i c).matrix := by
  intro k hk row hrow
  have before : ¬ (row = i ∧ col ≤ k) := fun both => absurd both.2 (not_le.mpr hk)
  simp only [System.scale, if_neg before]
  exact cleared k hk row hrow

theorem Cleared.add {col i k : Nat} {c : K} (cleared : Cleared m col s.matrix) :
    Cleared m col (s.add col i k c).matrix := by
  intro j hj row hrow
  have before : ¬ (row = i ∧ col ≤ j) := fun both => absurd both.2 (not_le.mpr hj)
  simp only [System.add, if_neg before]
  exact cleared j hj row hrow

theorem Cleared.zero {col i : Nat} {matrix : Nat → Nat → K} (cleared : Cleared m col matrix) (hi : i < m)
    (later : col ≤ i) : ∀ j < col, matrix i j = 0 := by
  intro j hj
  rw [cleared j hj i hi, if_neg (by omega)]

theorem Cleared.succ {col : Nat} {matrix : Nat → Nat → K} (cleared : Cleared m col matrix) (pivot : matrix col col = 1)
    (others : ∀ i < m, i ≠ col → matrix i col = 0) : Cleared m (col + 1) matrix := by
  intro j hj i hi
  rcases Nat.lt_succ_iff_lt_or_eq.mp hj with before | rfl
  · exact cleared j before i hi
  · by_cases same : i = j
    · rw [same, pivot, if_pos rfl]
    · rw [others i hi same, if_neg same]

end System

end RowReduction
