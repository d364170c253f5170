import Mathlib

/-! How much protection a video stream gets (fec_adaptation_controller.cpp): the controller turns the
feedback into a ratio of repairs to sources, and the allocation divides a rate between media and
repairs. Ratios are exact numbers; a time or a candidate of minus one stands for none. -/
namespace MiniRtc.Fec

inductive FecMode where
  | off | fixed | adaptive
deriving DecidableEq, Repr

inductive FecPacketKind where
  | media | repair | rtx | other
deriving DecidableEq, Repr

inductive FecDecision where
  | off | fixed | startup | healthy | loss | congested | stale | insufficientSamples
deriving DecidableEq, Repr

structure FecFeedbackSnapshot where
  samples : Nat := 0
  lost : Nat := 0
  maxLossRun : Nat := 0
  lastFeedbackMs : Int := -1
  feedbackGeneration : Nat := 0
  sentBps : FecPacketKind → Int := fun _ => 0
  payloadFraction : ℚ := 47 / 50

def FecFeedbackSnapshot.lossRate (f : FecFeedbackSnapshot) : ℚ := if f.samples = 0 then 0 else f.lost / f.samples

structure FecNetworkSnapshot where
  feedback : FecFeedbackSnapshot := {}
  nowMs : Int := 0
  rttMs : Int := 0
  queueMs : Int := 0
  transportBps : Int := 0
  congested : Bool := false

/-- A ratio that is not a finite number is none. -/
structure FecProtectionConfig where
  version : Nat := 0
  sourceRatio : Option ℚ := some (1 / 4)
  fecBitrateBps : Int := -1
  mediaBitrateBps : Int := 0
  recoveryWindowMs : Int := 150
  keyframePriority : Bool := false
  reason : FecDecision := .fixed
deriving DecidableEq, Repr

/-! ### The controller -/

structure FecAdaptationController where
  ratio : ℚ := 1 / 10
  candidate : ℚ := -1
  candidateSinceMs : Int := -1
  lastUpdateMs : Int := -1
  previousBitrate : Int := 0
  previousQueueMs : Int := 0
  congestionUntilMs : Int := -1
  lastFeedbackGeneration : Nat := 0
  version : Nat := 0
  confirmationCount : Nat := 0
  mode : FecMode := .adaptive
  current : FecProtectionConfig := {}
deriving DecidableEq, Repr

namespace FecNetworkSnapshot

def urgent (n : FecNetworkSnapshot) : Bool := n.congested || 100 ≤ n.queueMs || n.transportBps ≤ 0

def staleMs (n : FecNetworkSnapshot) : Int := max 2000 (3 * max 0 (min n.rttMs 2000))

def fresh (n : FecNetworkSnapshot) : Bool :=
  0 ≤ n.feedback.lastFeedbackMs && n.feedback.lastFeedbackMs ≤ n.nowMs &&
    n.nowMs - n.feedback.lastFeedbackMs ≤ n.staleMs

end FecNetworkSnapshot

namespace FecAdaptationController

def falling (s : FecAdaptationController) (n : FecNetworkSnapshot) : Bool :=
  0 < s.previousBitrate && n.transportBps < (s.previousBitrate * 8).tdiv 10

def growingQueue (s : FecAdaptationController) (n : FecNetworkSnapshot) : Bool :=
  40 ≤ n.queueMs && s.previousQueueMs + 10 < n.queueMs

/-- Another mode or a clock that runs back starts anew. -/
def entered (s : FecAdaptationController) (mode : FecMode) (n : FecNetworkSnapshot) : FecAdaptationController :=
  if mode ≠ s.mode ∨ 0 ≤ s.lastUpdateMs ∧ n.nowMs < s.lastUpdateMs then { version := s.version, mode } else s

def observe (s : FecAdaptationController) (n : FecNetworkSnapshot) : FecAdaptationController :=
  { s with
    congestionUntilMs :=
      if n.urgent || s.falling n || s.growingQueue n then n.nowMs + 1000 else s.congestionUntilMs
    previousBitrate := n.transportBps
    previousQueueMs := n.queueMs
    lastUpdateMs := n.nowMs }

/-- The ratio for a rate of losses. -/
def band (p : ℚ) : ℚ :=
  if p < 1 / 200 then 0 else if p < 3 / 200 then 1 / 20 else if p < 3 / 100 then 1 / 10
  else if p < 1 / 20 then 3 / 20 else if p < 2 / 25 then 1 / 5 else 1 / 4

def lossRatio (n : FecNetworkSnapshot) : ℚ :=
  if 1 / 200 ≤ n.feedback.lossRate ∧ (100 ≤ n.rttMs ∨ 3 ≤ n.feedback.maxLossRun) then
    min (1 / 4) (band n.feedback.lossRate + 1 / 20)
  else band n.feedback.lossRate

/-- The ratio that an update asks for, and why. -/
def desire (s : FecAdaptationController) (mode : FecMode) (n : FecNetworkSnapshot) : ℚ × FecDecision :=
  if mode = .off then (0, .off)
  else if n.urgent ∨ n.nowMs < s.congestionUntilMs then
    (if n.urgent then 0 else min s.ratio (1 / 20), .congested)
  else if mode = .fixed then (1 / 4, .fixed)
  else if ¬ n.fresh ∨ n.feedback.samples < 40 then
    (min s.ratio (1 / 10), if n.fresh then .insufficientSamples else .stale)
  else (lossRatio n, if lossRatio n = 0 then .healthy else .loss)

/-- A new candidate, or one more confirmation of the one that there is. -/
def consider (s : FecAdaptationController) (n : FecNetworkSnapshot) (desired : ℚ) : FecAdaptationController :=
  let s := if s.candidate ≠ desired then
      { s with candidate := desired, candidateSinceMs := n.nowMs, confirmationCount := 0 }
    else s
  if n.feedback.feedbackGeneration ≠ s.lastFeedbackGeneration then
    { s with confirmationCount := s.confirmationCount + 1 }
  else s

def adjust (s : FecAdaptationController) (mode : FecMode) (n : FecNetworkSnapshot) (desired : ℚ)
    (reason : FecDecision) : FecAdaptationController :=
  if mode ≠ .adaptive ∨ ¬ n.fresh ∨ n.feedback.samples < 40 ∨ reason = .congested then
    { s with ratio := desired, candidate := -1, confirmationCount := 0 }
  else if desired ≠ s.ratio then
    let s := s.consider n desired
    if s.ratio < desired ∧ 2 ≤ s.confirmationCount ∨
        desired < s.ratio ∧ 3000 ≤ n.nowMs - s.candidateSinceMs ∧ 2 ≤ s.confirmationCount then
      { s with ratio := desired, candidate := -1 }
    else s
  else { s with candidate := -1, confirmationCount := 0 }

def publish (s : FecAdaptationController) (mode : FecMode) (n : FecNetworkSnapshot) (reason : FecDecision) :
    FecAdaptationController :=
  { s with
    lastFeedbackGeneration := n.feedback.feedbackGeneration
    version := s.version + 1
    current := { s.current with
      version := s.version + 1
      sourceRatio := some s.ratio
      keyframePriority := mode = .adaptive
      reason } }

def recompute (s : FecAdaptationController) (mode : FecMode) (n : FecNetworkSnapshot) : FecAdaptationController :=
  let s := s.observe n
  let (desired, reason) := s.desire mode n
  (s.adjust mode n desired reason).publish mode n reason

/-- The cadence holds an update back that is not urgent. -/
def early (s : FecAdaptationController) (n : FecNetworkSnapshot) : Bool :=
  !n.urgent && 0 ≤ s.lastUpdateMs && n.nowMs - s.lastUpdateMs < 200

def update (s : FecAdaptationController) (mode : FecMode) (n : FecNetworkSnapshot) :
    FecProtectionConfig × FecAdaptationController :=
  let s := s.entered mode n
  if s.early n then (s.current, s) else ((s.recompute mode n).current, s.recompute mode n)

end FecAdaptationController

/-! ### The allocation -/

/-- The conversion to an integer takes the fraction off. -/
def truncate (q : ℚ) : Int := if q < 0 then ⌈q⌉ else ⌊q⌋

/-- A number within bounds. -/
def clamp {α : Type*} [LinearOrder α] (q low high : α) : α := max low (min q high)

/-- The ratio that an allocation uses. -/
def FecProtectionConfig.allocated (c : FecProtectionConfig) : ℚ := (c.sourceRatio.map (clamp · 0 (1 / 4))).getD 0

def payload (fraction : Option ℚ) : ℚ := (fraction.map (clamp · (1 / 20) 1)).getD (47 / 50)

def allocateFecBudget (c : FecProtectionConfig) (bps : Int) (fraction : Option ℚ) : FecProtectionConfig :=
  let bps := clamp bps 0 1000000000
  let media := truncate (bps / (1 + c.allocated))
  { c with
    sourceRatio := some c.allocated
    fecBitrateBps := bps - media
    mediaBitrateBps := truncate (media * payload fraction) }

theorem truncate_eq_floor {q : ℚ} (positive : 0 ≤ q) : truncate q = ⌊q⌋ := if_neg (not_lt.mpr positive)

theorem truncate_mem {q : ℚ} {n : Int} (positive : 0 ≤ q) (most : q ≤ n) : 0 ≤ truncate q ∧ truncate q ≤ n := by
  rw [truncate_eq_floor positive]
  exact ⟨Int.floor_nonneg.mpr positive, Int.floor_le_iff.mpr (lt_of_le_of_lt most (lt_add_one _))⟩

theorem clamp_mem {α : Type*} [LinearOrder α] (q : α) {low high : α} (order : low ≤ high) :
    low ≤ clamp q low high ∧ clamp q low high ≤ high :=
  ⟨le_max_left _ _, max_le order (min_le_right _ _)⟩

theorem FecProtectionConfig.allocated_mem (c : FecProtectionConfig) : 0 ≤ c.allocated ∧ c.allocated ≤ 1 / 4 := by
  unfold allocated
  cases c.sourceRatio with
  | none => norm_num
  | some q => exact clamp_mem q (by norm_num)

theorem payload_mem (fraction : Option ℚ) : 0 ≤ payload fraction ∧ payload fraction ≤ 1 := by
  unfold payload
  cases fraction with
  | none => norm_num
  | some q =>
    have bounds := clamp_mem q (show (1 / 20 : ℚ) ≤ 1 by norm_num)
    exact ⟨le_trans (by norm_num) bounds.1, bounds.2⟩

/-- The rates of an allocation. -/
structure Allocated (ratio : ℚ) (bps : Int) (c : FecProtectionConfig) : Prop where
  positive : 0 ≤ c.mediaBitrateBps ∧ 0 ≤ c.fecBitrateBps
  most : c.mediaBitrateBps + c.fecBitrateBps ≤ max 0 bps
  repairs : 0 ≤ bps → (c.fecBitrateBps : ℚ) ≤ ratio * (bps - c.fecBitrateBps) + 1 + ratio

theorem allocateFecBudget_allocated (c : FecProtectionConfig) (bps : Int) (fraction : Option ℚ) :
    Allocated c.allocated bps (allocateFecBudget c bps fraction) := by
  obtain ⟨low, high⟩ := c.allocated_mem
  have range := clamp_mem bps (show (0 : Int) ≤ 1000000000 by decide)
  have below : clamp bps 0 1000000000 ≤ max 0 bps := max_le_max_left 0 (min_le_left _ _)
  have part := payload_mem fraction
  have result : allocateFecBudget c bps fraction = { c with
      sourceRatio := some c.allocated
      fecBitrateBps := clamp bps 0 1000000000 - truncate (clamp bps 0 1000000000 / (1 + c.allocated))
      mediaBitrateBps :=
        truncate (truncate (clamp bps 0 1000000000 / (1 + c.allocated)) * payload fraction) } := rfl
  rw [result]
  generalize c.allocated = ratio at *
  generalize clamp bps 0 1000000000 = rate at *
  generalize payload fraction = share at *
  have whole : (0 : ℚ) ≤ rate := by exact_mod_cast range.1
  have quotient : (0 : ℚ) ≤ rate / (1 + ratio) := div_nonneg whole (by linarith)
  have media := truncate_mem quotient (div_le_self whole (by linarith))
  have floor := Int.lt_floor_add_one (rate / (1 + ratio) : ℚ)
  rw [← truncate_eq_floor quotient, div_lt_iff₀ (by linarith)] at floor
  generalize truncate (rate / (1 + ratio)) = sources at *
  have positive : (0 : ℚ) ≤ sources := by exact_mod_cast media.1
  have encoder := truncate_mem (mul_nonneg positive part.1) (mul_le_of_le_one_right positive part.2)
  refine ⟨⟨encoder.1, Int.sub_nonneg.mpr media.2⟩, ?_, fun positive => ?_⟩
  · change truncate (sources * share) + (rate - sources) ≤ max 0 bps
    linarith [encoder.2]
  · have order : (rate : ℚ) ≤ bps := by
      rw [max_eq_right positive] at below
      exact_mod_cast below
    have scaled : ratio * rate ≤ ratio * bps := mul_le_mul_of_nonneg_left order low
    change ((rate - sources : Int) : ℚ) ≤ ratio * (bps - (rate - sources : Int)) + 1 + ratio
    push_cast
    linarith

end MiniRtc.Fec
