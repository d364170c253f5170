import MiniRtc.Lib.RootRatio

/-! Sizes of exactly the source's aspect ratio (resolution_adapter.cpp). Sizes and areas are natural numbers;
the source refuses what is not positive, and no size stands for its false and its {-1, -1}. Square roots are
exact. -/
namespace MiniRtc.ResolutionAdapter
open RootRatio

def snapDownToMultiple (value step : Nat) : Nat := if step ≤ 1 then value else value - value % step

def snapUpToMultiple (value step : Nat) : Nat := if step ≤ 1 then value else (value + step - 1) / step * step

def clamp (value minV maxV : Nat) : Nat := if value < minV then minV else if maxV < value then maxV else value

def areaFromK (unitArea k : Nat) : Nat := unitArea * k * k

/-- The choice between the factors below and above the ideal one. -/
def chosenK (unitArea clampedTargetArea minK maxK kStep : Nat) : Nat :=
  let idealK := clamp (roundRoot clampedTargetArea unitArea) minK maxK
  let kDown := snapDownToMultiple idealK kStep
  let kUp := snapUpToMultiple idealK kStep
  let kDown := if kDown < minK then minK else kDown
  let kUp := if maxK < kUp then maxK else kUp
  if minK ≤ kUp ∧ kUp ≤ maxK then
    let downDiff := Nat.dist (areaFromK unitArea kDown) clampedTargetArea
    let upDiff := Nat.dist (areaFromK unitArea kUp) clampedTargetArea
    if upDiff < downDiff then kUp else kDown
  else kDown

def buildStrictAspectResolution (srcW srcH targetArea minArea maxArea : Nat) : Option (Nat × Nat) :=
  if srcW = 0 ∨ srcH = 0 ∨ minArea = 0 ∨ maxArea = 0 ∨ maxArea < minArea then none
  else
    let gcdWh := Nat.gcd srcW srcH
    let unitW := srcW / gcdWh
    let unitH := srcH / gcdWh
    let unitArea := unitW * unitH
    if unitArea = 0 then none
    else
      let kStep := if unitW % 2 ≠ 0 ∨ unitH % 2 ≠ 0 then 2 else 1
      let clampedTargetArea := clamp targetArea minArea maxArea
      let minK := max 1 (snapUpToMultiple (ceilRoot minArea unitArea) kStep)
      let maxK := snapDownToMultiple (floorRoot maxArea unitArea) kStep
      if maxK < minK then none
      else
        let k := chosenK unitArea clampedTargetArea minK maxK kStep
        if 0 < unitW * k ∧ 0 < unitH * k then some (unitW * k, unitH * k) else none

/-! ### The nearest even factor -/

theorem areaFromK_mono {u i j : Nat} (le : i ≤ j) : areaFromK u i ≤ areaFromK u j :=
  Nat.mul_le_mul (Nat.mul_le_mul_left u le) le

theorem dist_of_middle_le {a b t : Nat} (order : a ≤ b) (middle : a + b ≤ 2 * t) : Nat.dist b t ≤ Nat.dist a t := by
  unfold Nat.dist
  omega

theorem dist_of_le_middle {a b t : Nat} (order : b ≤ a) (middle : 2 * t ≤ a + b) : Nat.dist b t ≤ Nat.dist a t := by
  unfold Nat.dist
  omega

theorem snapDown_even (n : Nat) : snapDownToMultiple n 2 = n / 2 * 2 := by
  rw [snapDownToMultiple, if_neg (by decide)]
  omega

theorem snapUp_even (n : Nat) : snapUpToMultiple n 2 = (n + 1) / 2 * 2 := by
  rw [snapUpToMultiple, if_neg (by decide)]
  omega

/-- A number that is the root when rounded, between its halves. -/
theorem roundRoot_between {t u q : Nat} (positive : 0 < u) (root : roundRoot t u = q + 1) :
    (2 * q + 1) * (2 * q + 1) * u ≤ 4 * t ∧ 4 * t < (2 * q + 3) * (2 * q + 3) * u := by
  have high := (roundRoot_le positive).mp (le_of_eq root)
  have low := mt (@roundRoot_le t u q positive).mpr (by omega)
  have same : 2 * (q + 1) + 1 = 2 * q + 3 := by omega
  rw [same] at high
  exact ⟨not_lt.mp low, high⟩

/-! The areas of neighbours, against the square of a half. -/

theorem four_area (u k : Nat) : 4 * areaFromK u k = 2 * k * (2 * k) * u := by
  unfold areaFromK
  ring

theorem two_areas (u j k : Nat) : 2 * (areaFromK u j + areaFromK u k) = (2 * (j * j) + 2 * (k * k)) * u := by
  unfold areaFromK
  ring

theorem area_le {u t k : Nat} (above : (2 * k + 1) * (2 * k + 1) * u ≤ 4 * t) : areaFromK u k ≤ t := by
  have square : 2 * k * (2 * k) * u ≤ (2 * k + 1) * (2 * k + 1) * u :=
    Nat.mul_le_mul_right u (Nat.mul_le_mul (Nat.le_succ _) (Nat.le_succ _))
  have area := four_area u k
  omega

theorem le_area {u t k : Nat} (below : 4 * t < (2 * k + 1) * (2 * k + 1) * u) : t ≤ areaFromK u (k + 1) := by
  have square : (2 * k + 1) * (2 * k + 1) * u ≤ 2 * (k + 1) * (2 * (k + 1)) * u :=
    Nat.mul_le_mul_right u (Nat.mul_le_mul (by omega) (by omega))
  have area := four_area u (k + 1)
  omega

theorem areas_le (u k : Nat) :
    2 * (areaFromK u k + areaFromK u (k + 2)) ≤ (2 * (k + 1) + 1) * (2 * (k + 1) + 1) * u := by
  rw [two_areas]
  exact Nat.mul_le_mul_right u (by linarith)

theorem le_areas (u k : Nat) :
    (2 * k + 3) * (2 * k + 3) * u ≤ 2 * (areaFromK u (k + 1) + areaFromK u (k + 3)) := by
  rw [two_areas]
  exact Nat.mul_le_mul_right u (by linarith)

/-- An even factor within bounds; no other one has an area nearer to the target. -/
def IsNearest (u t minK maxK k : Nat) : Prop :=
  k % 2 = 0 ∧ (minK ≤ k ∧ k ≤ maxK) ∧
    ∀ j, j % 2 = 0 → minK ≤ j → j ≤ maxK → Nat.dist (areaFromK u k) t ≤ Nat.dist (areaFromK u j) t

section Choice

variable {u t minK maxK : Nat} (positive : 0 < u)
include positive

/-- The target is below all of the areas. -/
theorem chosenK_low (two : 2 ≤ minK) (evenMin : minK % 2 = 0) (order : minK ≤ maxK) (low : roundRoot t u < minK) :
    IsNearest u t minK maxK (chosenK u t minK maxK 2) := by
  have ideal : clamp (roundRoot t u) minK maxK = minK := if_pos low
  have under : t ≤ areaFromK u minK := by
    obtain ⟨q, rfl⟩ : ∃ q, minK = q + 1 := ⟨minK - 1, by omega⟩
    exact le_area ((roundRoot_le positive).mp (by omega))
  have chosen : minK / 2 * 2 = minK := by omega
  have chosen' : (minK + 1) / 2 * 2 = minK := by omega
  unfold chosenK
  simp only [snapDown_even, snapUp_even]
  rw [ideal, chosen, chosen']
  simp only [lt_irrefl, if_false, not_lt.mpr order, le_refl, order, and_self, if_true]
  refine ⟨evenMin, ⟨le_rfl, order⟩, fun j _ least _ => ?_⟩
  have mono := @areaFromK_mono u minK j least
  exact dist_of_le_middle mono (by omega)

/-- The target is above all of them. -/
theorem chosenK_high (evenMin : minK % 2 = 0) (evenMax : maxK % 2 = 0) (order : minK ≤ maxK)
    (inside : minK ≤ roundRoot t u) (high : maxK < roundRoot t u) :
    IsNearest u t minK maxK (chosenK u t minK maxK 2) := by
  have ideal : clamp (roundRoot t u) minK maxK = maxK := by
    rw [clamp, if_neg (by omega), if_pos high]
  have beneath : areaFromK u maxK ≤ t := area_le (not_lt.mp (mt (roundRoot_le positive).mpr (by omega)))
  have chosen : maxK / 2 * 2 = maxK := by omega
  have chosen' : (maxK + 1) / 2 * 2 = maxK := by omega
  unfold chosenK
  simp only [snapDown_even, snapUp_even]
  rw [ideal, chosen, chosen']
  simp only [not_lt.mpr order, lt_irrefl, if_false, le_refl, order, and_self, if_true]
  refine ⟨evenMax, ⟨order, le_rfl⟩, fun j _ _ most => ?_⟩
  have mono := @areaFromK_mono u j maxK most
  exact dist_of_middle_le mono (by omega)

/-- An odd root: the factors on its two sides. -/
theorem chosenK_odd (evenMin : minK % 2 = 0) (evenMax : maxK % 2 = 0) {q : Nat} (root : roundRoot t u = q + 1)
    (even : q % 2 = 0) (inside : minK ≤ q + 1) (inside' : q + 1 ≤ maxK) : IsNearest u t minK maxK (chosenK u t minK maxK 2) := by
  obtain ⟨low, high⟩ := roundRoot_between positive root
  have ideal : clamp (roundRoot t u) minK maxK = q + 1 := by
    rw [clamp, root, if_neg (by omega), if_neg (by omega)]
  have down : (q + 1) / 2 * 2 = q := by omega
  have up : (q + 1 + 1) / 2 * 2 = q + 2 := by omega
  have beneath : areaFromK u q ≤ t := area_le low
  have under : t ≤ areaFromK u (q + 2) := @le_area u t (q + 1) high
  have left : ∀ j, j ≤ q → Nat.dist (areaFromK u q) t ≤ Nat.dist (areaFromK u j) t := fun j le => by
    have mono := @areaFromK_mono u j q le
    exact dist_of_middle_le mono (by omega)
  have right : ∀ j, q + 2 ≤ j → Nat.dist (areaFromK u (q + 2)) t ≤ Nat.dist (areaFromK u j) t := fun j le => by
    have mono := @areaFromK_mono u (q + 2) j le
    exact dist_of_le_middle mono (by omega)
  have keepDown : (if q < minK then minK else q) = q := if_neg (by omega)
  have keepUp : (if maxK < q + 2 then maxK else q + 2) = q + 2 := if_neg (by omega)
  unfold chosenK
  simp only [snapDown_even, snapUp_even]
  rw [ideal, down, up, keepDown, keepUp, if_pos (by omega)]
  split
  · rename_i closer
    refine ⟨by omega, by omega, fun j evenJ _ _ => ?_⟩
    rcases Nat.lt_or_ge j (q + 2) with before | after
    · exact closer.le.trans (left j (by omega))
    · exact right j after
  · rename_i closer
    refine ⟨even, by omega, fun j evenJ _ _ => ?_⟩
    rcases Nat.lt_or_ge j (q + 2) with before | after
    · exact left j (by omega)
    · exact (not_lt.mp closer).trans (right j after)

/-- An even root is nearest itself. -/
theorem chosenK_even {q : Nat} (root : roundRoot t u = q + 1) (odd : q % 2 = 1)
    (inside : minK ≤ q + 1) (inside' : q + 1 ≤ maxK) : IsNearest u t minK maxK (chosenK u t minK maxK 2) := by
  obtain ⟨low, high⟩ := roundRoot_between positive root
  have ideal : clamp (roundRoot t u) minK maxK = q + 1 := by
    rw [clamp, root, if_neg (by omega), if_neg (by omega)]
  have down : (q + 1) / 2 * 2 = q + 1 := by omega
  have up : (q + 1 + 1) / 2 * 2 = q + 1 := by omega
  have keepDown : (if q + 1 < minK then minK else q + 1) = q + 1 := if_neg (by omega)
  have keepUp : (if maxK < q + 1 then maxK else q + 1) = q + 1 := if_neg (by omega)
  unfold chosenK
  simp only [snapDown_even, snapUp_even]
  rw [ideal, down, up, keepDown, keepUp, if_pos (by omega), if_neg (lt_irrefl _)]
  refine ⟨by omega, by omega, fun j evenJ _ _ => ?_⟩
  rcases Nat.lt_trichotomy j (q + 1) with before | same | after
  · obtain ⟨p, rfl⟩ : ∃ p, q = p + 1 := ⟨q - 1, by omega⟩
    have mono := @areaFromK_mono u j p (by omega)
    have mono' := @areaFromK_mono u j (p + 1 + 1) (by omega)
    have middle : 2 * (areaFromK u p + areaFromK u (p + 1 + 1)) ≤ _ := areas_le u p
    exact dist_of_middle_le mono' (by omega)
  · rw [same]
  · have mono := @areaFromK_mono u (q + 3) j (by omega)
    have mono' := @areaFromK_mono u (q + 1) j (by omega)
    have middle := le_areas u q
    exact dist_of_le_middle mono' (by omega)

/-- The chosen factor is even, within its bounds, and no other such factor has an area nearer to the target. -/
theorem chosenK_nearest (two : 2 ≤ minK) (evenMin : minK % 2 = 0) (evenMax : maxK % 2 = 0) (order : minK ≤ maxK) :
    chosenK u t minK maxK 2 % 2 = 0 ∧
    (minK ≤ chosenK u t minK maxK 2 ∧ chosenK u t minK maxK 2 ≤ maxK) ∧
    ∀ j, j % 2 = 0 → minK ≤ j → j ≤ maxK →
      Nat.dist (areaFromK u (chosenK u t minK maxK 2)) t ≤ Nat.dist (areaFromK u j) t := by
  rcases lt_or_ge (roundRoot t u) minK with low | inside
  · exact chosenK_low positive two evenMin order low
  rcases lt_or_ge maxK (roundRoot t u) with high | inside'
  · exact chosenK_high positive evenMin evenMax order inside high
  obtain ⟨q, root⟩ : ∃ q, roundRoot t u = q + 1 := ⟨roundRoot t u - 1, by omega⟩
  rw [root] at inside inside'
  rcases Nat.mod_two_eq_zero_or_one q with even | odd
  · exact chosenK_odd positive evenMin evenMax root even inside inside'
  · exact chosenK_even positive root odd inside inside'

end Choice

/-! ### Sizes of one ratio -/

/-- A size of the source's ratio with even sides and an area within bounds. -/
structure Strict (srcW srcH minArea maxArea : Nat) (size : Nat × Nat) : Prop where
  ratio : size.1 * srcH = size.2 * srcW
  evenW : size.1 % 2 = 0
  evenH : size.2 % 2 = 0
  least : minArea ≤ size.1 * size.2
  most : size.1 * size.2 ≤ maxArea

/-- The reduced ratio, and how often the source holds it. -/
structure Reduced (srcW srcH unitW unitH g : Nat) : Prop where
  width : srcW = unitW * g
  height : srcH = unitH * g
  coprime : Nat.Coprime unitW unitH
  positiveW : 0 < unitW
  positiveH : 0 < unitH
  positive : 0 < g

theorem reduced_gcd {srcW srcH : Nat} (positiveW : 0 < srcW) (positiveH : 0 < srcH) :
    Reduced srcW srcH (srcW / Nat.gcd srcW srcH) (srcH / Nat.gcd srcW srcH) (Nat.gcd srcW srcH) := by
  have positive := Nat.gcd_pos_of_pos_left srcH positiveW
  constructor
  · exact (Nat.div_mul_cancel (Nat.gcd_dvd_left srcW srcH)).symm
  · exact (Nat.div_mul_cancel (Nat.gcd_dvd_right srcW srcH)).symm
  · exact Nat.coprime_div_gcd_div_gcd positive
  · exact Nat.div_pos (Nat.gcd_le_left _ positiveW) positive
  · exact Nat.div_pos (Nat.gcd_le_right _ positiveH) positive
  · exact positive

theorem area_eq (unitW unitH k : Nat) : unitW * k * (unitH * k) = areaFromK (unitW * unitH) k := by
  unfold areaFromK
  ring

section Ratio

variable {srcW srcH unitW unitH g : Nat} (reduced : Reduced srcW srcH unitW unitH g)
include reduced

theorem Reduced.unit_pos : 0 < unitW * unitH := Nat.mul_pos reduced.positiveW reduced.positiveH

/-- Coprime sides are not both even. -/
theorem Reduced.odd : unitW % 2 ≠ 0 ∨ unitH % 2 ≠ 0 := by
  by_contra both
  have evenW : 2 ∣ unitW := by omega
  have evenH : 2 ∣ unitH := by omega
  have one := Nat.Coprime.eq_one_of_dvd (Nat.Coprime.coprime_dvd_left evenW reduced.coprime) evenH
  omega

theorem Reduced.even_mul {k : Nat} : unitW * k % 2 = 0 ∧ unitH * k % 2 = 0 ↔ k % 2 = 0 := by
  have odd := reduced.odd
  rw [Nat.mul_mod, Nat.mul_mod unitH]
  rcases Nat.mod_two_eq_zero_or_one k with even | one
  · simp [even]
  · rw [one]
    omega

/-- A size of the ratio is a multiple of the reduced ratio. -/
theorem Reduced.multiple {current : Nat × Nat} (ratio : current.1 * srcH = current.2 * srcW) :
    ∃ k, current = (unitW * k, unitH * k) := by
  obtain ⟨w, h⟩ := current
  simp only at ratio
  have cross : w * unitH = h * unitW := by
    have scaled : w * unitH * g = h * unitW * g := by
      rw [reduced.width, reduced.height] at ratio
      rw [Nat.mul_assoc, ratio, Nat.mul_assoc]
    exact Nat.eq_of_mul_eq_mul_right reduced.positive scaled
  obtain ⟨k, rfl⟩ : unitW ∣ w := reduced.coprime.dvd_of_dvd_mul_right (Dvd.intro_left h cross.symm)
  have scaled : unitW * h = unitW * (unitH * k) := by
    rw [Nat.mul_comm unitW h, ← cross]
    ring
  exact ⟨k, by rw [Nat.eq_of_mul_eq_mul_left reduced.positiveW scaled]⟩

theorem Reduced.strict_iff {minArea maxArea : Nat} {size : Nat × Nat} :
    Strict srcW srcH minArea maxArea size ↔ ∃ k, k % 2 = 0 ∧ size = (unitW * k, unitH * k) ∧
      minArea ≤ areaFromK (unitW * unitH) k ∧ areaFromK (unitW * unitH) k ≤ maxArea := by
  constructor
  · rintro ⟨ratio, evenW, evenH, least, most⟩
    obtain ⟨k, rfl⟩ := reduced.multiple ratio
    simp only [area_eq] at least most
    exact ⟨k, reduced.even_mul.mp ⟨evenW, evenH⟩, rfl, least, most⟩
  · rintro ⟨k, even, same, least, most⟩
    cases same
    obtain ⟨evenW, evenH⟩ := reduced.even_mul.mpr even
    refine ⟨?_, evenW, evenH, ?_, ?_⟩
    · simp only [reduced.width, reduced.height]
      ring
    · simp only [area_eq]
      exact least
    · simp only [area_eq]
      exact most

end Ratio

/-- What is asked of a choice among the sizes of a ratio. -/
def Chosen (srcW srcH targetArea minArea maxArea : Nat) : Option (Nat × Nat) → Prop
  | none => ∀ size, ¬Strict srcW srcH minArea maxArea size
  | some size => Strict srcW srcH minArea maxArea size ∧ ∀ other, Strict srcW srcH minArea maxArea other →
      Nat.dist (size.1 * size.2) (clamp targetArea minArea maxArea) ≤
        Nat.dist (other.1 * other.2) (clamp targetArea minArea maxArea)

theorem even_bounds {u minArea maxArea k : Nat} (positive : 0 < u) (even : k % 2 = 0) :
    (snapUpToMultiple (ceilRoot minArea u) 2 ≤ k ↔ minArea ≤ areaFromK u k) ∧
      (k ≤ snapDownToMultiple (floorRoot maxArea u) 2 ↔ areaFromK u k ≤ maxArea) := by
  have square : k * k * u = areaFromK u k := by
    unfold areaFromK
    ring
  have low := @ceilRoot_le minArea u k positive
  have high := @le_floorRoot maxArea u k positive
  rw [snapUp_even, snapDown_even, ← square, ← low, ← high]
  constructor <;> omega

theorem build_chosen {srcW srcH targetArea minArea maxArea : Nat} (positiveW : 0 < srcW) (positiveH : 0 < srcH)
    (some' : 0 < minArea) (order : minArea ≤ maxArea) :
    Chosen srcW srcH targetArea minArea maxArea (buildStrictAspectResolution srcW srcH targetArea minArea maxArea) := by
  have reduced := reduced_gcd positiveW positiveH
  unfold buildStrictAspectResolution
  simp only
  generalize srcW / Nat.gcd srcW srcH = unitW at reduced ⊢
  generalize srcH / Nat.gcd srcW srcH = unitH at reduced ⊢
  have unit := reduced.unit_pos
  rw [if_neg (by omega), if_neg unit.ne', if_pos reduced.odd]
  generalize area : unitW * unitH = u at unit
  have least : 2 ≤ snapUpToMultiple (ceilRoot minArea u) 2 := by
    have zero := mt (@ceilRoot_le minArea u 0 unit).mp (by omega)
    rw [snapUp_even]
    omega
  have evenMin : snapUpToMultiple (ceilRoot minArea u) 2 % 2 = 0 := by
    rw [snapUp_even]
    omega
  have evenMax : snapDownToMultiple (floorRoot maxArea u) 2 % 2 = 0 := by
    rw [snapDown_even]
    omega
  have bounds := fun k even => @even_bounds u minArea maxArea k unit even
  rw [Nat.max_eq_right (by omega)]
  generalize snapUpToMultiple (ceilRoot minArea u) 2 = minK at *
  generalize snapDownToMultiple (floorRoot maxArea u) 2 = maxK at *
  split
  · rename_i empty
    intro size strict
    obtain ⟨k, even, -, low, high⟩ := reduced.strict_iff.mp strict
    rw [area] at low high
    have below := (bounds k even).1.mpr low
    have above := (bounds k even).2.mpr high
    omega
  · rename_i full
    obtain ⟨even, inside, nearest⟩ :=
      @chosenK_nearest u (clamp targetArea minArea maxArea) minK maxK unit least evenMin evenMax (by omega)
    generalize chosenK u (clamp targetArea minArea maxArea) minK maxK 2 = k at *
    rw [if_pos ⟨Nat.mul_pos reduced.positiveW (by omega), Nat.mul_pos reduced.positiveH (by omega)⟩]
    refine ⟨reduced.strict_iff.mpr ⟨k, even, rfl, ?_, ?_⟩, fun other strict => ?_⟩
    · rw [area]
      exact (bounds k even).1.mp inside.1
    · rw [area]
      exact (bounds k even).2.mp inside.2
    · obtain ⟨j, evenJ, rfl, low, high⟩ := reduced.strict_iff.mp strict
      rw [area] at low high
      simp only [area_eq, area]
      exact nearest j evenJ ((bounds j evenJ).1.mpr low) ((bounds j evenJ).2.mpr high)

end MiniRtc.ResolutionAdapter
