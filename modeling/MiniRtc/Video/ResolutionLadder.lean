import MiniRtc.Lib.Binary32
import MiniRtc.Video.StrictAspect

/-! The steps down and up the ladder of resolutions (resolution_adapter.cpp). A step aims at a part of the
current area and takes the nearest size of the source's ratio, which may be the current one. -/
namespace MiniRtc.ResolutionAdapter
open Binary32

inductive VideoQuality where
  | low
  | medium
  | high
deriving DecidableEq, Repr

def kResolutionSteps : List (Nat × Nat) :=
  [(320, 180), (480, 270), (640, 360), (960, 540), (1280, 720), (1920, 1080), (2560, 1440), (3840, 2160)]

def kDownscaleStep : ℚ := rounded (88 / 100)

def kUpscaleStep : ℚ := div 1 kDownscaleStep

def getMaxPixelsForQuality : VideoQuality → Nat
  | .high => 3840 * 2160
  | .medium => 1920 * 1080
  | .low => 1280 * 720

/-- The sizes of `GetBitrateLimits`: the steps up to the last one within the quality. -/
def bitrateLimitSizes (videoQuality : VideoQuality) : List (Nat × Nat) :=
  (kResolutionSteps.reverse.dropWhile fun step => getMaxPixelsForQuality videoQuality < step.1 * step.2).reverse

/-- An area that is multiplied twice in single precision. -/
def scaledArea (area : Nat) (step : ℚ) : Nat := (llround (mul (mul (rounded area) step) step)).toNat

def getNextLowerResolution (videoQuality : VideoQuality) (currentW currentH sourceW sourceH : Nat) :
    Option (Nat × Nat) :=
  match (bitrateLimitSizes videoQuality).head? with
  | none => none
  | some front =>
    if currentW = 0 ∨ currentH = 0 ∨ sourceW = 0 ∨ sourceH = 0 then none
    else
      let sourceArea := sourceW * sourceH
      let minArea := min (front.1 * front.2) sourceArea
      let currentArea := currentW * currentH
      if sourceArea < currentArea then some (sourceW, sourceH)
      else if currentArea ≤ minArea then none
      else
        let targetArea := scaledArea currentArea kDownscaleStep
        let maxArea := min currentArea sourceArea
        match buildStrictAspectResolution sourceW sourceH targetArea minArea maxArea with
        | none => none
        | some (nextW, nextH) => if currentW ≤ nextW ∨ currentH ≤ nextH then none else some (nextW, nextH)

def getNextHigherResolution (videoQuality : VideoQuality) (currentW currentH sourceW sourceH : Nat) :
    Option (Nat × Nat) :=
  match (bitrateLimitSizes videoQuality).getLast? with
  | none => none
  | some back =>
    if currentW = 0 ∨ currentH = 0 ∨ sourceW = 0 ∨ sourceH = 0 then none
    else
      let sourceArea := sourceW * sourceH
      let maxArea := min (back.1 * back.2) sourceArea
      let currentArea := currentW * currentH
      if maxArea ≤ currentArea then none
      else
        let targetArea := scaledArea currentArea kUpscaleStep
        match buildStrictAspectResolution sourceW sourceH targetArea currentArea maxArea with
        | none => none
        | some (nextW, nextH) => if nextW ≤ currentW ∨ nextH ≤ currentH then none else some (nextW, nextH)

/-! ### The targets -/

theorem bitrateLimitSizes_head (videoQuality : VideoQuality) :
    (bitrateLimitSizes videoQuality).head? = some (320, 180) := by
  cases videoQuality <;> decide

theorem bitrateLimitSizes_last (videoQuality : VideoQuality) : ∃ back, (bitrateLimitSizes videoQuality).getLast? = some back ∧
    back.1 * back.2 = getMaxPixelsForQuality videoQuality := by
  cases videoQuality
  · exact ⟨(1280, 720), by decide, rfl⟩
  · exact ⟨(1920, 1080), by decide, rfl⟩
  · exact ⟨(3840, 2160), by decide, rfl⟩

theorem scaled_bounds {a c : ℚ} (positive : 0 < a) (factor : 0 < c) :
    a * c ^ 2 * (1 - 1 / 2 ^ 24) ^ 3 ≤ mul (mul (rounded a) c) c ∧
      mul (mul (rounded a) c) c ≤ a * c ^ 2 * (1 + 1 / 2 ^ 24) ^ 3 := by
  obtain ⟨low₁, high₁⟩ := rounded_bounds positive
  have positive₁ := mul_pos (rounded_pos positive) factor
  obtain ⟨low₂, high₂⟩ := rounded_bounds positive₁
  have positive₂ := mul_pos (rounded_pos positive₁) factor
  obtain ⟨low₃, high₃⟩ := rounded_bounds positive₂
  unfold mul
  constructor
  · calc a * c ^ 2 * (1 - 1 / 2 ^ 24) ^ 3
        = a * (1 - 1 / 2 ^ 24) * c * (1 - 1 / 2 ^ 24) * c * (1 - 1 / 2 ^ 24) := by ring
      _ ≤ rounded a * c * (1 - 1 / 2 ^ 24) * c * (1 - 1 / 2 ^ 24) := by gcongr
      _ ≤ rounded (rounded a * c) * c * (1 - 1 / 2 ^ 24) := by gcongr
      _ ≤ _ := low₃
  · calc rounded (rounded (rounded a * c) * c)
        ≤ rounded (rounded a * c) * c * (1 + 1 / 2 ^ 24) := high₃
      _ ≤ rounded a * c * (1 + 1 / 2 ^ 24) * c * (1 + 1 / 2 ^ 24) := by gcongr
      _ ≤ a * (1 + 1 / 2 ^ 24) * c * (1 + 1 / 2 ^ 24) * c * (1 + 1 / 2 ^ 24) := by gcongr
      _ = _ := by ring

/-- The rounding of the products, in parts of ten thousand. -/
theorem scaledArea_bounds {area low high : Nat} {step : ℚ} (positive : 0 < area) (factor : 0 < step)
    (least : (low : ℚ) / 10000 ≤ step ^ 2 * (1 - 1 / 2 ^ 24) ^ 3) (most : step ^ 2 * (1 + 1 / 2 ^ 24) ^ 3 ≤ high / 10000) :
    low * area ≤ 10000 * scaledArea area step + 5000 ∧ 10000 * scaledArea area step ≤ high * area + 5000 := by
  have some' : (0 : ℚ) < area := by exact_mod_cast positive
  obtain ⟨below, above⟩ := scaled_bounds some' factor
  have rounding := llround_error (mul (mul (rounded area) step) step)
  obtain ⟨down, up⟩ := abs_le.mp rounding
  have lowArea : (area : ℚ) * (low / 10000) ≤ area * (step ^ 2 * (1 - 1 / 2 ^ 24) ^ 3) := by gcongr
  have highArea : (area : ℚ) * (step ^ 2 * (1 + 1 / 2 ^ 24) ^ 3) ≤ area * (high / 10000) := by gcongr
  have nonneg : 0 ≤ llround (mul (mul (rounded area) step) step) := by
    have product : 0 < mul (mul (rounded area) step) step :=
      rounded_pos (mul_pos (rounded_pos (mul_pos (rounded_pos some') factor)) factor)
    exact Int.floor_nonneg.mpr (by linarith)
  have value : ((scaledArea area step : Nat) : ℚ) = (llround (mul (mul (rounded area) step) step) : ℤ) := by
    rw [scaledArea]
    exact_mod_cast Int.toNat_of_nonneg nonneg
  constructor
  · have bound : (low : ℚ) * area ≤ 10000 * scaledArea area step + 5000 := by
      rw [value]
      linarith
    exact_mod_cast bound
  · have bound : 10000 * (scaledArea area step : ℚ) ≤ high * area + 5000 := by
      rw [value]
      linarith
    exact_mod_cast bound

theorem kDownscaleStep_bounds : 87999 / 100000 ≤ kDownscaleStep ∧ kDownscaleStep ≤ 88001 / 100000 := by
  obtain ⟨low, high⟩ := @rounded_bounds (88 / 100) (by norm_num)
  rw [kDownscaleStep]
  constructor
  · refine le_trans ?_ low
    norm_num
  · refine high.trans ?_
    norm_num

theorem kUpscaleStep_bounds : 11363 / 10000 ≤ kUpscaleStep ∧ kUpscaleStep ≤ 11364 / 10000 := by
  obtain ⟨low, high⟩ := kDownscaleStep_bounds
  have positive : 0 < kDownscaleStep := lt_of_lt_of_le (by norm_num) low
  have inverse : 0 < 1 / kDownscaleStep := by positivity
  have least : (100000 / 88001 : ℚ) ≤ 1 / kDownscaleStep := by
    rw [div_le_div_iff₀ (by norm_num) positive]
    linarith
  have most : 1 / kDownscaleStep ≤ (100000 / 87999 : ℚ) := by
    rw [div_le_div_iff₀ positive (by norm_num)]
    linarith
  obtain ⟨below, above⟩ := rounded_bounds inverse
  rw [kUpscaleStep, div]
  constructor
  · refine le_trans ?_ below
    have scaled : (100000 / 88001 : ℚ) * (1 - 1 / 2 ^ 24) ≤ 1 / kDownscaleStep * (1 - 1 / 2 ^ 24) := by gcongr
    refine le_trans ?_ scaled
    norm_num
  · refine above.trans ?_
    have scaled : 1 / kDownscaleStep * (1 + 1 / 2 ^ 24) ≤ (100000 / 87999 : ℚ) * (1 + 1 / 2 ^ 24) := by gcongr
    refine scaled.trans ?_
    norm_num

theorem downTarget_bounds {area : Nat} (positive : 0 < area) :
    7743 * area ≤ 10000 * scaledArea area kDownscaleStep + 5000 ∧
      10000 * scaledArea area kDownscaleStep ≤ 7745 * area + 5000 := by
  obtain ⟨low, high⟩ := kDownscaleStep_bounds
  have factor : 0 < kDownscaleStep := lt_of_lt_of_le (by norm_num) low
  refine scaledArea_bounds positive factor ?_ ?_
  · have square : (87999 / 100000 : ℚ) ^ 2 * (1 - 1 / 2 ^ 24) ^ 3 ≤ kDownscaleStep ^ 2 * (1 - 1 / 2 ^ 24) ^ 3 := by gcongr
    refine le_trans ?_ square
    norm_num
  · have square : kDownscaleStep ^ 2 * (1 + 1 / 2 ^ 24) ^ 3 ≤ (88001 / 100000 : ℚ) ^ 2 * (1 + 1 / 2 ^ 24) ^ 3 := by gcongr
    refine square.trans ?_
    norm_num

theorem upTarget_bounds {area : Nat} (positive : 0 < area) :
    12911 * area ≤ 10000 * scaledArea area kUpscaleStep + 5000 ∧
      10000 * scaledArea area kUpscaleStep ≤ 12915 * area + 5000 := by
  obtain ⟨low, high⟩ := kUpscaleStep_bounds
  have factor : 0 < kUpscaleStep := lt_of_lt_of_le (by norm_num) low
  refine scaledArea_bounds positive factor ?_ ?_
  · have square : (11363 / 10000 : ℚ) ^ 2 * (1 - 1 / 2 ^ 24) ^ 3 ≤ kUpscaleStep ^ 2 * (1 - 1 / 2 ^ 24) ^ 3 := by gcongr
    refine le_trans ?_ square
    norm_num
  · have square : kUpscaleStep ^ 2 * (1 + 1 / 2 ^ 24) ^ 3 ≤ (11364 / 10000 : ℚ) ^ 2 * (1 + 1 / 2 ^ 24) ^ 3 := by gcongr
    refine square.trans ?_
    norm_num

/-! ### What a step is to find -/

def minimumArea (sourceW sourceH : Nat) : Nat := min (320 * 180) (sourceW * sourceH)

def maximumArea (videoQuality : VideoQuality) (sourceW sourceH : Nat) : Nat :=
  min (getMaxPixelsForQuality videoQuality) (sourceW * sourceH)

/-- A size of the source's ratio below the current one. -/
structure Smaller (sourceW sourceH : Nat) (current size : Nat × Nat) : Prop where
  strict : Strict sourceW sourceH (minimumArea sourceW sourceH) (sourceW * sourceH) size
  width : size.1 < current.1
  height : size.2 < current.2

/-- A size of the source's ratio above the current one. -/
structure Larger (videoQuality : VideoQuality) (sourceW sourceH : Nat) (current size : Nat × Nat) : Prop where
  strict : Strict sourceW sourceH 0 (maximumArea videoQuality sourceW sourceH) size
  width : current.1 < size.1
  height : current.2 < size.2

/-- A wanted size is found if there is one. -/
def Finds (wanted : Nat × Nat → Prop) : Option (Nat × Nat) → Prop
  | none => ∀ size, ¬wanted size
  | some size => wanted size

/-- The steps down that stay where they are: four or six times the unit, with a smaller size in reach. -/
def StrandsLower (sourceW sourceH unitArea k : Nat) : Prop :=
  (k = 4 ∨ k = 6) ∧ minimumArea sourceW sourceH ≤ areaFromK unitArea (k - 2)

def StrandsHigher (videoQuality : VideoQuality) (sourceW sourceH unitArea k : Nat) : Prop :=
  (k = 2 ∨ k = 4 ∨ k = 6) ∧ areaFromK unitArea (k + 2) ≤ maximumArea videoQuality sourceW sourceH

theorem areaFromK_lt {u i j : Nat} (positive : 0 < u) : areaFromK u i < areaFromK u j ↔ i < j := by
  constructor
  · intro less
    by_contra more
    exact absurd (@areaFromK_mono u j i (by omega)) (by omega)
  · intro less
    have square : i * i < j * j := Nat.mul_self_lt_mul_self less
    unfold areaFromK
    rw [Nat.mul_assoc, Nat.mul_assoc]
    exact Nat.mul_lt_mul_of_pos_left square positive

section Factors

variable {srcW srcH unitW unitH g : Nat} (reduced : Reduced srcW srcH unitW unitH g)
include reduced

theorem Reduced.source_area : srcW * srcH = areaFromK (unitW * unitH) g := by
  rw [← area_eq, reduced.width, reduced.height]

theorem Reduced.source_pos : 0 < srcW ∧ 0 < srcH := by
  rw [reduced.width, reduced.height]
  exact ⟨Nat.mul_pos reduced.positiveW reduced.positive, Nat.mul_pos reduced.positiveH reduced.positive⟩

theorem Reduced.smaller_iff {k : Nat} (within : k ≤ g) {size : Nat × Nat} :
    Smaller srcW srcH (unitW * k, unitH * k) size ↔ ∃ j, j % 2 = 0 ∧ size = (unitW * j, unitH * j) ∧ j < k ∧
      minimumArea srcW srcH ≤ areaFromK (unitW * unitH) j := by
  constructor
  · rintro ⟨strict, width, -⟩
    obtain ⟨j, even, rfl, least, -⟩ := reduced.strict_iff.mp strict
    exact ⟨j, even, rfl, Nat.lt_of_mul_lt_mul_left width, least⟩
  · rintro ⟨j, even, rfl, less, least⟩
    refine ⟨reduced.strict_iff.mpr ⟨j, even, rfl, least, ?_⟩, ?_, ?_⟩
    · rw [reduced.source_area]
      exact areaFromK_mono (by omega)
    · exact Nat.mul_lt_mul_of_pos_left less reduced.positiveW
    · exact Nat.mul_lt_mul_of_pos_left less reduced.positiveH

theorem Reduced.larger_iff {videoQuality : VideoQuality} {k : Nat} {size : Nat × Nat} :
    Larger videoQuality srcW srcH (unitW * k, unitH * k) size ↔ ∃ j, j % 2 = 0 ∧ size = (unitW * j, unitH * j) ∧ k < j ∧
      areaFromK (unitW * unitH) j ≤ maximumArea videoQuality srcW srcH := by
  constructor
  · rintro ⟨strict, width, -⟩
    obtain ⟨j, even, rfl, -, most⟩ := reduced.strict_iff.mp strict
    exact ⟨j, even, rfl, Nat.lt_of_mul_lt_mul_left width, most⟩
  · rintro ⟨j, even, rfl, less, most⟩
    refine ⟨reduced.strict_iff.mpr ⟨j, even, rfl, Nat.zero_le _, most⟩, ?_, ?_⟩
    · exact Nat.mul_lt_mul_of_pos_left less reduced.positiveW
    · exact Nat.mul_lt_mul_of_pos_left less reduced.positiveH

theorem Reduced.minimumArea_pos : 0 < minimumArea srcW srcH := by
  obtain ⟨width, height⟩ := reduced.source_pos
  have area := Nat.mul_pos width height
  unfold minimumArea
  omega

/-- The choice, in terms of the factors. -/
theorem Reduced.build_cases {minArea maxArea : Nat} (some' : 0 < minArea) (order : minArea ≤ maxArea) (targetArea : Nat) :
    (buildStrictAspectResolution srcW srcH targetArea minArea maxArea = none ∧
      ∀ j, j % 2 = 0 → minArea ≤ areaFromK (unitW * unitH) j → ¬areaFromK (unitW * unitH) j ≤ maxArea) ∨
    ∃ k, buildStrictAspectResolution srcW srcH targetArea minArea maxArea = some (unitW * k, unitH * k) ∧ k % 2 = 0 ∧
      (minArea ≤ areaFromK (unitW * unitH) k ∧ areaFromK (unitW * unitH) k ≤ maxArea) ∧
      ∀ j, j % 2 = 0 → minArea ≤ areaFromK (unitW * unitH) j → areaFromK (unitW * unitH) j ≤ maxArea →
        Nat.dist (areaFromK (unitW * unitH) k) (clamp targetArea minArea maxArea) ≤
          Nat.dist (areaFromK (unitW * unitH) j) (clamp targetArea minArea maxArea) := by
  obtain ⟨positiveW, positiveH⟩ := reduced.source_pos
  have chosen := @build_chosen srcW srcH targetArea minArea maxArea positiveW positiveH some' order
  cases built : buildStrictAspectResolution srcW srcH targetArea minArea maxArea with
  | none =>
    rw [built] at chosen
    exact Or.inl ⟨rfl, fun j even least most => chosen _ (reduced.strict_iff.mpr ⟨j, even, rfl, least, most⟩)⟩
  | some size =>
    rw [built] at chosen
    obtain ⟨strict, nearest⟩ := chosen
    obtain ⟨k, even, rfl, least, most⟩ := reduced.strict_iff.mp strict
    refine Or.inr ⟨k, rfl, even, ⟨least, most⟩, fun j evenJ leastJ mostJ => ?_⟩
    have near := nearest _ (reduced.strict_iff.mpr ⟨j, evenJ, rfl, leastJ, mostJ⟩)
    simp only [area_eq] at near
    exact near

end Factors

/-! ### One step down -/

section Targets

variable {u k t : Nat}

/-- Above six times the unit the target of a step down is nearer to the next size. -/
theorem leaves_down (large : 8 ≤ k) (area : 320 * 180 < areaFromK u k)
    (target : 10000 * t ≤ 7745 * areaFromK u k + 5000) : 2 * t < areaFromK u k + areaFromK u (k - 2) := by
  obtain ⟨q, rfl⟩ : ∃ q, k = q + 8 := ⟨k - 8, by omega⟩
  have next : q + 8 - 2 = q + 6 := rfl
  rw [next]
  unfold areaFromK at *
  rcases Nat.lt_or_ge u 2 with one | more
  · have unit : u = 1 := by
      by_contra other
      have zero : u = 0 := by omega
      rw [zero] at area
      omega
    subst unit
    have far : 200 ≤ q := by
      by_contra near
      have square : (q + 8) * (q + 8) ≤ 207 * 207 := Nat.mul_le_mul (by omega) (by omega)
      rw [Nat.one_mul] at area
      omega
    nlinarith
  · nlinarith

/-- At four and six times the unit it is nearer to the current size. -/
theorem stays_down (small : k = 4 ∨ k = 6) (positive : 0 < u)
    (target : 7743 * areaFromK u k ≤ 10000 * t + 5000) : areaFromK u k + areaFromK u (k - 2) < 2 * t := by
  unfold areaFromK at *
  rcases small with rfl | rfl
  · omega
  · omega

theorem leaves_up (large : 8 ≤ k) (positive : 0 < u) (target : 12911 * areaFromK u k ≤ 10000 * t + 5000) :
    areaFromK u k + areaFromK u (k + 2) < 2 * t := by
  obtain ⟨q, rfl⟩ : ∃ q, k = q + 8 := ⟨k - 8, by omega⟩
  have here : areaFromK u (q + 8) = u * q * q + 16 * (u * q) + 64 * u := by
    unfold areaFromK
    ring
  have next : areaFromK u (q + 8 + 2) = u * q * q + 20 * (u * q) + 100 * u := by
    unfold areaFromK
    ring
  omega

theorem stays_up (small : k = 2 ∨ k = 4 ∨ k = 6) (positive : 0 < u)
    (target : 10000 * t ≤ 12915 * areaFromK u k + 5000) : 2 * t < areaFromK u k + areaFromK u (k + 2) := by
  unfold areaFromK at *
  rcases small with rfl | rfl | rfl
  · omega
  · omega
  · omega

end Targets

theorem dist_lt_below {a b t : Nat} (order : b < a) (middle : 2 * t < a + b) : Nat.dist b t < Nat.dist a t := by
  unfold Nat.dist
  omega

theorem dist_lt_above {a b c t : Nat} (order : b < a) (below : c ≤ b) (middle : a + b < 2 * t) :
    Nat.dist a t < Nat.dist c t := by
  unfold Nat.dist
  omega

theorem dist_lt_beyond {a b c t : Nat} (order : a < b) (beyond : b ≤ c) (middle : 2 * t < a + b) :
    Nat.dist a t < Nat.dist c t := by
  unfold Nat.dist
  omega

theorem dist_lt_near {a b t : Nat} (order : a < b) (middle : a + b < 2 * t) : Nat.dist b t < Nat.dist a t := by
  unfold Nat.dist
  omega

section Lower

variable {srcW srcH unitW unitH g k : Nat} (reduced : Reduced srcW srcH unitW unitH g) (positive : 0 < k)
  (within : k ≤ g) (videoQuality : VideoQuality)
include reduced positive within

/-- The step down, on a size of the ratio. -/
theorem lower_eq : getNextLowerResolution videoQuality (unitW * k) (unitH * k) srcW srcH =
    if areaFromK (unitW * unitH) k ≤ minimumArea srcW srcH then none
    else
      (buildStrictAspectResolution srcW srcH (scaledArea (areaFromK (unitW * unitH) k) kDownscaleStep)
        (minimumArea srcW srcH) (areaFromK (unitW * unitH) k)).bind fun next =>
          if unitW * k ≤ next.1 ∨ unitH * k ≤ next.2 then none else some next := by
  obtain ⟨width, height⟩ := reduced.source_pos
  have currentW := Nat.mul_pos reduced.positiveW positive
  have currentH := Nat.mul_pos reduced.positiveH positive
  have most : areaFromK (unitW * unitH) k ≤ srcW * srcH := by
    rw [reduced.source_area]
    exact areaFromK_mono within
  rw [getNextLowerResolution, bitrateLimitSizes_head]
  simp only [area_eq]
  rw [if_neg (by omega), if_neg (by omega), Nat.min_eq_left most, minimumArea]
  split
  · rfl
  · cases buildStrictAspectResolution srcW srcH (scaledArea (areaFromK (unitW * unitH) k) kDownscaleStep)
      (min (320 * 180) (srcW * srcH)) (areaFromK (unitW * unitH) k) with
    | none => rfl
    | some next => rfl

theorem lower_finds_iff : Finds (Smaller srcW srcH (unitW * k, unitH * k))
    (getNextLowerResolution videoQuality (unitW * k) (unitH * k) srcW srcH) ↔
      ¬StrandsLower srcW srcH (unitW * unitH) k := by
  have unit := reduced.unit_pos
  have least := reduced.minimumArea_pos
  have smaller := fun size => @Reduced.smaller_iff _ _ _ _ _ reduced k within size
  have order : ∀ i j, areaFromK (unitW * unitH) i < areaFromK (unitW * unitH) j ↔ i < j := fun i j => areaFromK_lt unit
  have source := reduced.source_area
  have whole := @areaFromK_mono (unitW * unitH) k g within
  rw [lower_eq reduced positive within]
  split
  · rename_i small
    refine iff_of_true (fun size wanted => ?_) fun strands => ?_
    · obtain ⟨j, -, -, less, reach⟩ := (smaller size).mp wanted
      have below := (order j k).mpr less
      omega
    · obtain ⟨-, reach⟩ := strands
      have below := (order (k - 2) k).mpr (by omega)
      omega
  rename_i area
  rcases reduced.build_cases least (by omega : minimumArea srcW srcH ≤ areaFromK (unitW * unitH) k)
    (scaledArea (areaFromK (unitW * unitH) k) kDownscaleStep) with ⟨built, empty⟩ | ⟨i, built, even, inside, nearest⟩
  · rw [built]
    refine iff_of_true (fun size wanted => ?_) fun strands => ?_
    · obtain ⟨j, even, -, less, reach⟩ := (smaller size).mp wanted
      exact empty j even reach ((order j k).mpr less).le
    · obtain ⟨small, reach⟩ := strands
      exact empty (k - 2) (by omega) reach ((order (k - 2) k).mpr (by omega)).le
  rw [built, Option.bind_some]
  have most : i ≤ k := by
    by_contra above
    have strict := (order k i).mpr (by omega)
    omega
  obtain ⟨low, high⟩ := @downTarget_bounds (areaFromK (unitW * unitH) k) (by omega)
  generalize scaledArea (areaFromK (unitW * unitH) k) kDownscaleStep = target at *
  have fixed : minimumArea srcW srcH = 320 * 180 := by
    unfold minimumArea at *
    omega
  rcases Nat.lt_or_ge i k with less | same
  · -- A smaller size was taken.
    have found : (if unitW * k ≤ unitW * i ∨ unitH * k ≤ unitH * i then none
        else some (unitW * i, unitH * i)) = some (unitW * i, unitH * i) := by
      have width := Nat.mul_lt_mul_of_pos_left less reduced.positiveW
      have height := Nat.mul_lt_mul_of_pos_left less reduced.positiveH
      exact if_neg (by omega)
    simp only [found]
    refine iff_of_true ((smaller _).mpr ⟨i, even, rfl, less, inside.1⟩) fun strands => ?_
    obtain ⟨small, reach⟩ := strands
    have stays := stays_down small unit low
    have below := (order (k - 2) k).mpr (by omega)
    have past := @areaFromK_mono (unitW * unitH) i (k - 2) (by omega)
    have near := nearest k (by omega) (by omega) le_rfl
    unfold clamp at near
    have strict : ∀ t, target ≤ t ∨ t = areaFromK (unitW * unitH) k →
        Nat.dist (areaFromK (unitW * unitH) k) t < Nat.dist (areaFromK (unitW * unitH) i) t := by
      rintro t (more | equal)
      · exact dist_lt_above below past (by omega)
      · exact dist_lt_above below past (by omega)
    split at near
    · exact absurd near (not_le.mpr (strict _ (Or.inl (by omega))))
    split at near
    · exact absurd near (not_le.mpr (strict _ (Or.inr rfl)))
    · exact absurd near (not_le.mpr (strict _ (Or.inl le_rfl)))
  · -- The current size was taken again.
    have equal : i = k := by omega
    subst equal
    simp only [le_refl, true_or, if_true]
    refine ⟨fun nothing strands => ?_, fun free size wanted => ?_⟩
    · obtain ⟨small, reach⟩ := strands
      exact nothing _ ((smaller _).mpr ⟨i - 2, by omega, rfl, by omega, reach⟩)
    · obtain ⟨j, evenJ, -, less, reach⟩ := (smaller size).mp wanted
      have past := @areaFromK_mono (unitW * unitH) j (i - 2) (by omega)
      have below := (order (i - 2) i).mpr (by omega)
      have large : 8 ≤ i := by
        by_contra small
        have two : i ≠ 2 := by
          rintro rfl
          have zero : j = 0 := by omega
          rw [zero, areaFromK] at reach
          omega
        exact free ⟨by omega, by omega⟩
      have leaves := leaves_down large (by omega) high
      have near := nearest (i - 2) (by omega) (by omega) below.le
      have strict : ∀ t, t ≤ target ∨ t ≤ areaFromK (unitW * unitH) (i - 2) →
          Nat.dist (areaFromK (unitW * unitH) (i - 2)) t < Nat.dist (areaFromK (unitW * unitH) i) t := by
        rintro t (lower | lower)
        · exact dist_lt_below below (by omega)
        · exact dist_lt_below below (by omega)
      unfold clamp at near
      split at near
      · exact absurd near (not_le.mpr (strict _ (Or.inr (by omega))))
      split at near
      · exact absurd near (not_le.mpr (strict _ (Or.inl (by omega))))
      · exact absurd near (not_le.mpr (strict _ (Or.inl le_rfl)))

end Lower

/-! ### One step up -/

section Higher

variable {srcW srcH unitW unitH g k : Nat} (reduced : Reduced srcW srcH unitW unitH g) (positive : 0 < k)
  (videoQuality : VideoQuality)
include reduced positive

theorem higher_eq : getNextHigherResolution videoQuality (unitW * k) (unitH * k) srcW srcH =
    if maximumArea videoQuality srcW srcH ≤ areaFromK (unitW * unitH) k then none
    else
      (buildStrictAspectResolution srcW srcH (scaledArea (areaFromK (unitW * unitH) k) kUpscaleStep)
        (areaFromK (unitW * unitH) k) (maximumArea videoQuality srcW srcH)).bind fun next =>
          if next.1 ≤ unitW * k ∨ next.2 ≤ unitH * k then none else some next := by
  obtain ⟨width, height⟩ := reduced.source_pos
  obtain ⟨back, last, pixels⟩ := bitrateLimitSizes_last videoQuality
  have currentW := Nat.mul_pos reduced.positiveW positive
  have currentH := Nat.mul_pos reduced.positiveH positive
  rw [getNextHigherResolution, last]
  simp only [area_eq, pixels]
  rw [if_neg (by omega), maximumArea]
  split
  · rfl
  · cases buildStrictAspectResolution srcW srcH (scaledArea (areaFromK (unitW * unitH) k) kUpscaleStep)
      (areaFromK (unitW * unitH) k) (min (getMaxPixelsForQuality videoQuality) (srcW * srcH)) with
    | none => rfl
    | some next => rfl

theorem higher_finds_iff : Finds (Larger videoQuality srcW srcH (unitW * k, unitH * k))
    (getNextHigherResolution videoQuality (unitW * k) (unitH * k) srcW srcH) ↔
      ¬StrandsHigher videoQuality srcW srcH (unitW * unitH) k := by
  have unit := reduced.unit_pos
  have larger := fun size => @Reduced.larger_iff _ _ _ _ _ reduced videoQuality k size
  have order : ∀ i j, areaFromK (unitW * unitH) i < areaFromK (unitW * unitH) j ↔ i < j := fun i j => areaFromK_lt unit
  have some' : 0 < areaFromK (unitW * unitH) k := Nat.mul_pos (Nat.mul_pos unit positive) positive
  have next := (order k (k + 2)).mpr (by omega)
  rw [higher_eq reduced positive]
  split
  · rename_i large
    refine iff_of_true (fun size wanted => ?_) fun strands => ?_
    · obtain ⟨j, -, -, more, reach⟩ := (larger size).mp wanted
      have above := (order k j).mpr more
      omega
    · obtain ⟨-, reach⟩ := strands
      omega
  rename_i area
  rcases reduced.build_cases some' (by omega : areaFromK (unitW * unitH) k ≤ maximumArea videoQuality srcW srcH)
    (scaledArea (areaFromK (unitW * unitH) k) kUpscaleStep) with ⟨built, empty⟩ | ⟨i, built, even, inside, nearest⟩
  · rw [built]
    refine iff_of_true (fun size wanted => ?_) fun strands => ?_
    · obtain ⟨j, even, -, more, reach⟩ := (larger size).mp wanted
      exact empty j even ((order k j).mpr more).le reach
    · obtain ⟨small, reach⟩ := strands
      exact empty (k + 2) (by omega) next.le reach
  rw [built, Option.bind_some]
  have least : k ≤ i := by
    by_contra below
    have strict := (order i k).mpr (by omega)
    omega
  obtain ⟨low, high⟩ := @upTarget_bounds (areaFromK (unitW * unitH) k) some'
  generalize scaledArea (areaFromK (unitW * unitH) k) kUpscaleStep = target at *
  rcases Nat.lt_or_ge k i with more | same
  · -- A larger size was taken.
    have found : (if unitW * i ≤ unitW * k ∨ unitH * i ≤ unitH * k then none
        else some (unitW * i, unitH * i)) = some (unitW * i, unitH * i) := by
      have width := Nat.mul_lt_mul_of_pos_left more reduced.positiveW
      have height := Nat.mul_lt_mul_of_pos_left more reduced.positiveH
      exact if_neg (by omega)
    simp only [found]
    refine iff_of_true ((larger _).mpr ⟨i, even, rfl, more, inside.2⟩) fun strands => ?_
    obtain ⟨small, reach⟩ := strands
    have stays := stays_up small unit high
    have past := @areaFromK_mono (unitW * unitH) (k + 2) i (by omega)
    have near := nearest k (by omega) le_rfl (by omega)
    have strict : ∀ t, t ≤ target ∨ t = areaFromK (unitW * unitH) k →
        Nat.dist (areaFromK (unitW * unitH) k) t < Nat.dist (areaFromK (unitW * unitH) i) t := by
      rintro t (lower | equal)
      · exact dist_lt_beyond next past (by omega)
      · exact dist_lt_beyond next past (by omega)
    unfold clamp at near
    split at near
    · exact absurd near (not_le.mpr (strict _ (Or.inr rfl)))
    split at near
    · exact absurd near (not_le.mpr (strict _ (Or.inl (by omega))))
    · exact absurd near (not_le.mpr (strict _ (Or.inl le_rfl)))
  · -- The current size was taken again.
    have equal : i = k := by omega
    subst equal
    simp only [le_refl, true_or, if_true]
    refine ⟨fun nothing strands => ?_, fun free size wanted => ?_⟩
    · obtain ⟨small, reach⟩ := strands
      exact nothing _ ((larger _).mpr ⟨i + 2, by omega, rfl, by omega, reach⟩)
    · obtain ⟨j, evenJ, -, more, reach⟩ := (larger size).mp wanted
      have past := @areaFromK_mono (unitW * unitH) (i + 2) j (by omega)
      have large : 8 ≤ i := by
        by_contra small
        exact free ⟨by omega, by omega⟩
      have leaves := leaves_up large unit low
      have near := nearest (i + 2) (by omega) next.le (by omega)
      have strict : ∀ t, target ≤ t ∨ areaFromK (unitW * unitH) (i + 2) ≤ t →
          Nat.dist (areaFromK (unitW * unitH) (i + 2)) t < Nat.dist (areaFromK (unitW * unitH) i) t := by
        rintro t (above | above)
        · exact dist_lt_near next (by omega)
        · exact dist_lt_near next (by omega)
      unfold clamp at near
      split at near
      · exact absurd near (not_le.mpr (strict _ (Or.inl (by omega))))
      split at near
      · exact absurd near (not_le.mpr (strict _ (Or.inr (by omega))))
      · exact absurd near (not_le.mpr (strict _ (Or.inl le_rfl)))

end Higher

/-! ### The whole ladder -/

/-- So many steps, as long as there is a next one. -/
def again (step : Nat × Nat → Option (Nat × Nat)) : Nat → Nat × Nat → Option (Nat × Nat)
  | 0, current => some current
  | n + 1, current => (step current).bind (again step n)

/-- Steps that make a number smaller come to an end. -/
theorem again_ends {step : Nat × Nat → Option (Nat × Nat)} {holds : Nat × Nat → Prop} (measure : Nat × Nat → Nat)
    (decreases : ∀ current next, holds current → step current = some next → holds next ∧ measure next < measure current)
    {current : Nat × Nat} (start : holds current) : ∃ n, again step n current = none := by
  induction size : measure current using Nat.strong_induction_on generalizing current with
  | _ m ih =>
    cases stepped : step current with
    | none => exact ⟨1, by rw [again, stepped]; rfl⟩
    | some next =>
      obtain ⟨kept, less⟩ := decreases current next start stepped
      obtain ⟨n, ends⟩ := ih (measure next) (size ▸ less) kept rfl
      exact ⟨n + 1, by rw [again, stepped]; exact ends⟩

theorem lower_decreases {videoQuality : VideoQuality} {sourceW sourceH : Nat} {current next : Nat × Nat}
    (within : current.1 * current.2 ≤ sourceW * sourceH)
    (stepped : getNextLowerResolution videoQuality current.1 current.2 sourceW sourceH = some next) :
    next.1 * next.2 ≤ sourceW * sourceH ∧ next.1 < current.1 := by
  rw [getNextLowerResolution, bitrateLimitSizes_head] at stepped
  simp only at stepped
  rw [if_neg (show ¬sourceW * sourceH < current.1 * current.2 by omega)] at stepped
  split at stepped
  · cases stepped
  split at stepped
  · cases stepped
  split at stepped
  · cases stepped
  rename_i nextW nextH built
  split at stepped
  · cases stepped
  · rename_i smaller
    cases stepped
    have area := Nat.mul_le_mul (show nextW ≤ current.1 by omega) (show nextH ≤ current.2 by omega)
    exact ⟨area.trans within, show nextW < current.1 by omega⟩

theorem higher_decreases {videoQuality : VideoQuality} {sourceW sourceH : Nat} {current next : Nat × Nat}
    (stepped : getNextHigherResolution videoQuality current.1 current.2 sourceW sourceH = some next) :
    maximumArea videoQuality sourceW sourceH - next.1 < maximumArea videoQuality sourceW sourceH - current.1 := by
  obtain ⟨back, last, pixels⟩ := bitrateLimitSizes_last videoQuality
  rw [getNextHigherResolution, last] at stepped
  simp only [pixels] at stepped
  split at stepped
  · cases stepped
  rename_i positive
  split at stepped
  · cases stepped
  rename_i room
  have area : 0 < current.1 * current.2 := Nat.mul_pos (by omega) (by omega)
  have chosen := @build_chosen sourceW sourceH (scaledArea (current.1 * current.2) kUpscaleStep) (current.1 * current.2)
    (maximumArea videoQuality sourceW sourceH) (by omega) (by omega) area (by unfold maximumArea; omega)
  rw [maximumArea] at chosen
  split at stepped
  · cases stepped
  rename_i nextW nextH built
  rw [built] at chosen
  split at stepped
  · cases stepped
  · rename_i larger
    cases stepped
    have most := chosen.1.most
    have width := Nat.le_mul_of_pos_right nextW (show 0 < nextH by omega)
    unfold maximumArea
    simp only at most ⊢
    omega

def unitArea (sourceW sourceH : Nat) : Nat :=
  sourceW / Nat.gcd sourceW sourceH * (sourceH / Nat.gcd sourceW sourceH)

/-- How often a size of the source's ratio holds the reduced ratio. -/
def factor (sourceW sourceH currentW : Nat) : Nat := currentW / (sourceW / Nat.gcd sourceW sourceH)

/-- The steps from a size find the next ones, and there are finitely many of them. -/
structure Stepping (videoQuality : VideoQuality) (sourceW sourceH : Nat) (current : Nat × Nat) : Prop where
  lower : Finds (Smaller sourceW sourceH current)
    (getNextLowerResolution videoQuality current.1 current.2 sourceW sourceH)
  higher : Finds (Larger videoQuality sourceW sourceH current)
    (getNextHigherResolution videoQuality current.1 current.2 sourceW sourceH)
  lowerEnds : ∃ n, again (fun c => getNextLowerResolution videoQuality c.1 c.2 sourceW sourceH) n current = none
  higherEnds : ∃ n, again (fun c => getNextHigherResolution videoQuality c.1 c.2 sourceW sourceH) n current = none

/-- The nearest size is chosen, and the steps from a size of the ratio are right unless they strand. -/
structure Ladder (videoQuality : VideoQuality) (sourceW sourceH : Nat) : Prop where
  nearest : ∀ targetArea minArea maxArea, 1 ≤ minArea → minArea ≤ maxArea → Chosen sourceW sourceH targetArea minArea maxArea
    (buildStrictAspectResolution sourceW sourceH targetArea minArea maxArea)
  steps : ∀ current : Nat × Nat, 0 < current.1 → current.1 * sourceH = current.2 * sourceW → current.1 ≤ sourceW →
    (Stepping videoQuality sourceW sourceH current ↔
      ¬StrandsLower sourceW sourceH (unitArea sourceW sourceH) (factor sourceW sourceH current.1) ∧
        ¬StrandsHigher videoQuality sourceW sourceH (unitArea sourceW sourceH) (factor sourceW sourceH current.1))

theorem resolution_ladder (videoQuality : VideoQuality) {sourceW sourceH : Nat} (positiveW : 0 < sourceW)
    (positiveH : 0 < sourceH) : Ladder videoQuality sourceW sourceH := by
  constructor
  · intro targetArea minArea maxArea least order
    exact build_chosen positiveW positiveH least order
  intro current positive ratio within
  have reduced := reduced_gcd positiveW positiveH
  have lowerEnds := @again_ends (fun c => getNextLowerResolution videoQuality c.1 c.2 sourceW sourceH)
    (fun c => c.1 * c.2 ≤ sourceW * sourceH) Prod.fst (fun c next kept stepped => lower_decreases kept stepped) current
  have higherEnds := @again_ends (fun c => getNextHigherResolution videoQuality c.1 c.2 sourceW sourceH)
    (fun _ => True) (fun c => maximumArea videoQuality sourceW sourceH - c.1)
    (fun c next _ stepped => ⟨trivial, higher_decreases stepped⟩) current trivial
  obtain ⟨k, rfl⟩ := reduced.multiple ratio
  have times : factor sourceW sourceH (sourceW / Nat.gcd sourceW sourceH * k) = k :=
    Nat.mul_div_cancel_left k reduced.positiveW
  have some' : 0 < k := Nat.pos_of_mul_pos_left positive
  have most : k ≤ Nat.gcd sourceW sourceH := by
    have source := reduced.width
    simp only at within
    refine Nat.le_of_mul_le_mul_left ?_ reduced.positiveW
    omega
  have inside := @areaFromK_mono (unitArea sourceW sourceH) _ _ most
  rw [times, unitArea, ← lower_finds_iff reduced some' most videoQuality, ← higher_finds_iff reduced some' videoQuality]
  constructor
  · intro stepping
    exact ⟨stepping.lower, stepping.higher⟩
  · rintro ⟨lower, higher⟩
    refine ⟨lower, higher, lowerEnds ?_, higherEnds⟩
    rw [reduced.source_area]
    simp only [area_eq]
    exact inside

theorem resolution_ladder_hd : Ladder .high 1920 1080 := resolution_ladder .high (by decide) (by decide)

/-- From 2732x1536 there is no step down to 1366x768. -/
theorem lower_strands :
    ¬Finds (Smaller 2732 1536 (2732, 1536)) (getNextLowerResolution .high 2732 1536 2732 1536) := by
  have reduced : Reduced 2732 1536 683 384 4 := by
    constructor <;> decide
  exact (lower_finds_iff reduced (by decide) le_rfl .high).not.mpr (not_not.mpr ⟨Or.inl rfl, by decide⟩)

end MiniRtc.ResolutionAdapter
