import MiniRtc.Fec.Adaptation

/-! The ratio over a whole run of updates in adaptive mode (fec_adaptation_controller.cpp). It rises
when two generations of feedback have asked for the same ratio, it falls when the lower ratio has
been asked for long enough, and congestion holds it down. -/
namespace MiniRtc.Fec.FecAdaptationController

/-! ### Runs -/

/-- An update, and the controller before it. -/
structure Update where
  before : FecAdaptationController
  network : FecNetworkSnapshot

namespace Update

def nowMs (u : Update) : Int := u.network.nowMs

def generation (u : Update) : Nat := u.network.feedback.feedbackGeneration

def recomputes (u : Update) : Bool := !u.before.early u.network

def detects (u : Update) : Bool :=
  u.recomputes && (u.network.urgent || u.before.falling u.network || u.before.growingQueue u.network)

/-- What the update asks for, if it recomputes. -/
def asked (u : Update) : ℚ := ((u.before.observe u.network).desire .adaptive u.network).1

def reason (u : Update) : FecDecision := ((u.before.observe u.network).desire .adaptive u.network).2

def config (u : Update) : FecProtectionConfig := (u.before.update .adaptive u.network).1

def after (u : Update) : FecAdaptationController := (u.before.update .adaptive u.network).2

end Update

/-- The updates of a run of a new controller, in adaptive mode and with times that do not fall. -/
inductive Reaches (version : Nat) : List Update → FecAdaptationController → Prop
  | start : Reaches version [] { version }
  | update {log : List Update} {s : FecAdaptationController} (reaches : Reaches version log s)
      (n : FecNetworkSnapshot) (later : ∀ u ∈ log, u.nowMs ≤ n.nowMs) :
      Reaches version (log ++ [⟨s, n⟩]) (s.update .adaptive n).2

/-- All recomputations of these updates ask for this value. -/
def Asked (log : List Update) (value : ℚ) : Prop := ∀ u ∈ log, u.recomputes = true → u.asked = value

/-- A value that is asked for without a break since some recomputation. -/
def Since (log : List Update) (value : ℚ) (first : Update) : Prop :=
  ∃ earlier later, log = earlier ++ first :: later ∧ first.recomputes = true ∧ Asked (first :: later) value

/-- A value that is asked for without a break since before another recomputation. -/
def Twice (log : List Update) (value : ℚ) (first second : Update) : Prop :=
  ∃ earlier between later, log = earlier ++ first :: (between ++ second :: later) ∧
    first.recomputes = true ∧ second.recomputes = true ∧ Asked (first :: (between ++ second :: later)) value

theorem Asked.concat {log : List Update} {value : ℚ} (asked : Asked log value) {u : Update}
    (same : u.recomputes = true → u.asked = value) : Asked (log ++ [u]) value := by
  intro v member
  rcases List.mem_append.mp member with old | new
  · exact asked v old
  · rw [List.mem_singleton.mp new]
    exact same

theorem Since.concat {log : List Update} {value : ℚ} {first : Update} (since : Since log value first) {u : Update}
    (same : u.recomputes = true → u.asked = value) : Since (log ++ [u]) value first := by
  obtain ⟨earlier, later, rfl, recomputes, asked⟩ := since
  exact ⟨earlier, later ++ [u], by simp, recomputes, asked.concat same⟩

theorem since_new (log : List Update) {u : Update} (recomputes : u.recomputes = true) :
    Since (log ++ [u]) u.asked u := by
  refine ⟨log, [], rfl, recomputes, fun v member _ => ?_⟩
  rw [List.mem_singleton.mp member]

theorem Twice.concat {log : List Update} {value : ℚ} {first second : Update} (twice : Twice log value first second)
    {u : Update} (same : u.recomputes = true → u.asked = value) : Twice (log ++ [u]) value first second := by
  obtain ⟨earlier, between, later, rfl, recomputes, recomputes', asked⟩ := twice
  refine ⟨earlier, between, later ++ [u], by simp, recomputes, recomputes', ?_⟩
  have more := asked.concat same
  simpa using more

theorem Since.twice {log : List Update} {value : ℚ} {first : Update} (since : Since log value first) {u : Update}
    (recomputes' : u.recomputes = true) (same : u.asked = value) : Twice (log ++ [u]) value first u := by
  obtain ⟨earlier, later, rfl, recomputes, asked⟩ := since
  exact ⟨earlier, later, [], by simp, recomputes, recomputes', asked.concat fun _ => same⟩

/-! ### One recomputation -/

theorem lossRatio_bounds (n : FecNetworkSnapshot) : 0 ≤ lossRatio n ∧ lossRatio n ≤ 1 / 4 := by
  have bounds : 0 ≤ band n.feedback.lossRate ∧ band n.feedback.lossRate ≤ 1 / 4 := by
    unfold band
    split_ifs
    all_goals norm_num
  unfold lossRatio
  split
  · refine ⟨le_min (by norm_num) ?_, min_le_left _ _⟩
    linarith [bounds.1]
  · exact bounds

/-- An update that adaptive mode applies at once. -/
def Immediate (s : FecAdaptationController) (n : FecNetworkSnapshot) : Prop :=
  ¬ n.fresh = true ∨ n.feedback.samples < 40 ∨ n.urgent = true ∨ n.nowMs < (s.observe n).congestionUntilMs

theorem desire_congested {s : FecAdaptationController} {n : FecNetworkSnapshot}
    (congested : n.urgent = true ∨ n.nowMs < s.congestionUntilMs) :
    s.desire .adaptive n = (if n.urgent then 0 else min s.ratio (1 / 20), .congested) := by
  simp only [desire, reduceCtorEq, if_false, if_pos congested]

theorem desire_quiet {s : FecAdaptationController} {n : FecNetworkSnapshot}
    (quiet : ¬ (n.urgent = true ∨ n.nowMs < s.congestionUntilMs)) :
    s.desire .adaptive n =
      if ¬ n.fresh = true ∨ n.feedback.samples < 40 then
        (min s.ratio (1 / 10), if n.fresh then .insufficientSamples else .stale)
      else (lossRatio n, if lossRatio n = 0 then .healthy else .loss) := by
  simp only [desire, reduceCtorEq, if_false, if_neg quiet]

theorem desire_reason (s : FecAdaptationController) (n : FecNetworkSnapshot) :
    (s.desire .adaptive n).2 = .congested ↔ n.urgent = true ∨ n.nowMs < s.congestionUntilMs := by
  by_cases congested : n.urgent = true ∨ n.nowMs < s.congestionUntilMs
  · rw [desire_congested congested]
    exact iff_of_true rfl congested
  · rw [desire_quiet congested]
    refine iff_of_false (fun equal => ?_) congested
    split_ifs at equal

/-- What is applied at once is not above the ratio. -/
theorem desire_immediate {s : FecAdaptationController} {n : FecNetworkSnapshot} (positive : 0 ≤ s.ratio)
    (immediate : Immediate s n) :
    0 ≤ ((s.observe n).desire .adaptive n).1 ∧ ((s.observe n).desire .adaptive n).1 ≤ s.ratio := by
  by_cases congested : n.urgent = true ∨ n.nowMs < (s.observe n).congestionUntilMs
  · rw [desire_congested congested]
    change 0 ≤ (if n.urgent = true then 0 else min s.ratio (1 / 20)) ∧
      (if n.urgent = true then 0 else min s.ratio (1 / 20)) ≤ s.ratio
    split
    · exact ⟨le_rfl, positive⟩
    · exact ⟨le_min positive (by norm_num), min_le_left _ _⟩
  · have poor : ¬ n.fresh = true ∨ n.feedback.samples < 40 := by
      rcases immediate with stale | few | now
      · exact Or.inl stale
      · exact Or.inr few
      · exact absurd now congested
    rw [desire_quiet congested, if_pos poor]
    exact ⟨le_min positive (by norm_num), min_le_left _ _⟩

theorem desire_held {s : FecAdaptationController} {n : FecNetworkSnapshot} (held : ¬ Immediate s n) :
    ((s.observe n).desire .adaptive n).1 = lossRatio n := by
  simp only [Immediate, not_or] at held
  rw [desire_quiet (not_or.mpr held.2.2), if_neg (not_or.mpr ⟨held.1, held.2.1⟩)]

/-- What becomes of the ratio and of the candidate. -/
inductive Adjusted (s : FecAdaptationController) (n : FecNetworkSnapshot) (desired : ℚ)
    (s' : FecAdaptationController) : Prop
  | immediate (now : Immediate s n) (ratio : s'.ratio = desired) (candidate : s'.candidate = -1)
  | same (held : ¬ Immediate s n) (equal : desired = s.ratio) (ratio : s'.ratio = s.ratio) (candidate : s'.candidate = -1)
  | waits (held : ¬ Immediate s n) (ratio : s'.ratio = s.ratio)
      (candidate : s'.candidate = (s.consider n desired).candidate)
      (since : s'.candidateSinceMs = (s.consider n desired).candidateSinceMs)
      (count : s'.confirmationCount = (s.consider n desired).confirmationCount)
  | rises (held : ¬ Immediate s n) (higher : s.ratio < desired) (ratio : s'.ratio = desired) (candidate : s'.candidate = -1)
      (confirmed : 2 ≤ (s.consider n desired).confirmationCount)
  | falls (held : ¬ Immediate s n) (lower : desired < s.ratio) (ratio : s'.ratio = desired) (candidate : s'.candidate = -1)
      (since : 3000 ≤ n.nowMs - (s.consider n desired).candidateSinceMs)

/-- What a recomputation sets besides. -/
structure Published (s : FecAdaptationController) (n : FecNetworkSnapshot) (s' : FecAdaptationController) : Prop where
  mode : s'.mode = s.mode
  last : s'.lastUpdateMs = n.nowMs
  congested : s'.congestionUntilMs = (s.observe n).congestionUntilMs
  generation : s'.lastFeedbackGeneration = n.feedback.feedbackGeneration
  version : s'.version = s.version + 1
  current : s'.current.sourceRatio = some s'.ratio ∧ s'.current.version = s'.version

theorem consider_eq (s : FecAdaptationController) (n : FecNetworkSnapshot) (desired : ℚ) :
    s.consider n desired = { s with
      candidate := desired
      candidateSinceMs := if s.candidate = desired then s.candidateSinceMs else n.nowMs
      confirmationCount := (if s.candidate = desired then s.confirmationCount else 0) +
        if n.feedback.feedbackGeneration = s.lastFeedbackGeneration then 0 else 1 } := by
  unfold consider
  by_cases again : s.candidate = desired
  · subst again
    by_cases old : n.feedback.feedbackGeneration = s.lastFeedbackGeneration
    · simp [old]
    · simp [old]
  · by_cases old : n.feedback.feedbackGeneration = s.lastFeedbackGeneration
    · simp [old, again]
    · simp [old, again]

theorem adjust_keeps (s : FecAdaptationController) (mode : FecMode) (n : FecNetworkSnapshot) (desired : ℚ)
    (reason : FecDecision) :
    (s.adjust mode n desired reason).mode = s.mode ∧
      (s.adjust mode n desired reason).lastUpdateMs = s.lastUpdateMs ∧
      (s.adjust mode n desired reason).congestionUntilMs = s.congestionUntilMs ∧
      (s.adjust mode n desired reason).version = s.version := by
  have kept : (s.consider n desired).mode = s.mode ∧ (s.consider n desired).lastUpdateMs = s.lastUpdateMs ∧
      (s.consider n desired).congestionUntilMs = s.congestionUntilMs ∧ (s.consider n desired).version = s.version := by
    rw [consider_eq]
    exact ⟨rfl, rfl, rfl, rfl⟩
  unfold adjust
  split
  · exact ⟨rfl, rfl, rfl, rfl⟩
  split
  · simp only
    split
    · exact kept
    · exact kept
  · exact ⟨rfl, rfl, rfl, rfl⟩

theorem recompute_published (s : FecAdaptationController) (n : FecNetworkSnapshot) :
    Published s n (s.recompute .adaptive n) := by
  have kept := adjust_keeps (s.observe n) .adaptive n ((s.observe n).desire .adaptive n).1
    ((s.observe n).desire .adaptive n).2
  exact ⟨kept.1, kept.2.1, kept.2.2.1, rfl, congrArg (· + 1) kept.2.2.2, rfl, rfl⟩

theorem consider_observe (s : FecAdaptationController) (n : FecNetworkSnapshot) (desired : ℚ) :
    ((s.observe n).consider n desired).candidate = (s.consider n desired).candidate ∧
      ((s.observe n).consider n desired).candidateSinceMs = (s.consider n desired).candidateSinceMs ∧
      ((s.observe n).consider n desired).confirmationCount = (s.consider n desired).confirmationCount := by
  rw [consider_eq, consider_eq]
  exact ⟨rfl, rfl, rfl⟩

theorem recompute_adjusted (s : FecAdaptationController) (n : FecNetworkSnapshot) :
    Adjusted s n ((s.observe n).desire .adaptive n).1 (s.recompute .adaptive n) := by
  have reason := desire_reason (s.observe n) n
  have considered := consider_observe s n ((s.observe n).desire .adaptive n).1
  have kept : ((s.observe n).consider n ((s.observe n).desire .adaptive n).1).ratio = s.ratio := by
    rw [consider_eq]
    rfl
  change Adjusted s n _ (((s.observe n).adjust .adaptive n ((s.observe n).desire .adaptive n).1
    ((s.observe n).desire .adaptive n).2).publish .adaptive n ((s.observe n).desire .adaptive n).2)
  generalize ((s.observe n).desire .adaptive n).1 = desired at *
  generalize ((s.observe n).desire .adaptive n).2 = why at *
  have now : (FecMode.adaptive ≠ .adaptive ∨ ¬ n.fresh = true ∨ n.feedback.samples < 40 ∨ why = .congested) ↔
      Immediate s n := by
    rw [reason, Immediate]
    simp
  unfold adjust
  split
  · rename_i immediate
    exact .immediate (now.mp immediate) rfl rfl
  rename_i held
  rw [now] at held
  split
  · simp only
    split
    · rename_i confirmed
      rw [kept, considered.2.1, considered.2.2] at confirmed
      rcases confirmed with ⟨higher, count⟩ | ⟨lower, since, -⟩
      · exact .rises held higher rfl rfl count
      · exact .falls held lower rfl rfl since
    · exact .waits held kept considered.1 considered.2.1 considered.2.2
  · rename_i equal
    exact .same held (not_not.mp equal) rfl rfl

theorem recompute_reason (s : FecAdaptationController) (n : FecNetworkSnapshot) :
    (s.recompute .adaptive n).current.reason = ((s.observe n).desire .adaptive n).2 := rfl

theorem desire_bounds {s : FecAdaptationController} {n : FecNetworkSnapshot} (positive : 0 ≤ s.ratio)
    (small : s.ratio ≤ 1 / 4) :
    0 ≤ ((s.observe n).desire .adaptive n).1 ∧ ((s.observe n).desire .adaptive n).1 ≤ 1 / 4 := by
  by_cases immediate : Immediate s n
  · have bounds := desire_immediate positive immediate
    exact ⟨bounds.1, bounds.2.trans small⟩
  · rw [desire_held immediate]
    exact lossRatio_bounds n

/-! ### The invariant -/

/-- A candidate that recomputations have asked for without a break, and how many generations did. -/
structure Pursued (log : List Update) (value : ℚ) (since : Int) (generation count : Nat) : Prop where
  since : ∃ first, Since log value first ∧ first.nowMs = since
  once : 1 ≤ count → ∃ first, Since log value first ∧ first.generation = generation
  twice : 2 ≤ count → ∃ first second, Twice log value first second ∧ first.generation ≠ second.generation

/-- What a run leaves behind in the controller. -/
structure Held (log : List Update) (s : FecAdaptationController) : Prop where
  mode : s.mode = .adaptive
  ratio : 0 ≤ s.ratio ∧ s.ratio ≤ 1 / 4
  current : 0 ≤ s.lastUpdateMs → s.current.sourceRatio = some s.ratio ∧ s.current.version = s.version
  last : 0 ≤ s.lastUpdateMs → ∃ u ∈ log, u.nowMs = s.lastUpdateMs
  congested : ∀ u ∈ log, u.detects = true → u.nowMs + 1000 ≤ s.congestionUntilMs
  quiet : s.lastUpdateMs < s.congestionUntilMs → s.ratio ≤ 1 / 20
  pursued : s.candidate ≠ -1 →
    Pursued log s.candidate s.candidateSinceMs s.lastFeedbackGeneration s.confirmationCount

theorem held_start (version : Nat) : Held [] { version } := by
  refine ⟨rfl, ⟨by norm_num, by norm_num⟩, ?_, ?_, ?_, ?_, ?_⟩
  · intro positive
    simp at positive
  · intro positive
    simp at positive
  · intro u member
    cases member
  · intro later
    simp at later
  · intro candidate
    simp at candidate

theorem Pursued.skip {log : List Update} {value : ℚ} {since : Int} {generation count : Nat}
    (pursued : Pursued log value since generation count) {u : Update} (early : u.recomputes = false) :
    Pursued (log ++ [u]) value since generation count := by
  have same : u.recomputes = true → u.asked = value := fun recomputes => by simp [early] at recomputes
  refine ⟨?_, fun once => ?_, fun twice => ?_⟩
  · obtain ⟨first, whole, time⟩ := pursued.since
    exact ⟨first, whole.concat same, time⟩
  · obtain ⟨first, whole, news⟩ := pursued.once once
    exact ⟨first, whole.concat same, news⟩
  · obtain ⟨first, second, whole, news⟩ := pursued.twice twice
    exact ⟨first, second, whole.concat same, news⟩

section Step

variable {log : List Update} {s : FecAdaptationController} {n : FecNetworkSnapshot}

/-- What a recomputation considers has been asked for up to it. -/
theorem considered_pursued (held : Held log s) (recomputes : (⟨s, n⟩ : Update).recomputes = true) :
    Pursued (log ++ [⟨s, n⟩]) (Update.asked ⟨s, n⟩) (s.consider n (Update.asked ⟨s, n⟩)).candidateSinceMs
      n.feedback.feedbackGeneration (s.consider n (Update.asked ⟨s, n⟩)).confirmationCount := by
  have positive : 0 ≤ Update.asked ⟨s, n⟩ := (desire_bounds held.ratio.1 held.ratio.2).1
  have fresh := since_new log recomputes
  rw [consider_eq]
  by_cases again : s.candidate = Update.asked ⟨s, n⟩
  · have pursued := held.pursued (by linarith)
    rw [again] at pursued
    simp only [if_pos again]
    have same : (⟨s, n⟩ : Update).recomputes = true → Update.asked ⟨s, n⟩ = Update.asked ⟨s, n⟩ := fun _ => rfl
    obtain ⟨oldest, whole, time⟩ := pursued.since
    refine ⟨⟨oldest, whole.concat same, time⟩, fun once => ?_, fun twice => ?_⟩
    · by_cases old : n.feedback.feedbackGeneration = s.lastFeedbackGeneration
      · rw [if_pos old, Nat.add_zero] at once
        obtain ⟨first, whole, generation⟩ := pursued.once once
        exact ⟨first, whole.concat same, generation.trans old.symm⟩
      · exact ⟨⟨s, n⟩, fresh, rfl⟩
    · by_cases old : n.feedback.feedbackGeneration = s.lastFeedbackGeneration
      · rw [if_pos old, Nat.add_zero] at twice
        obtain ⟨first, second, whole, differ⟩ := pursued.twice twice
        exact ⟨first, second, whole.concat same, differ⟩
      · rw [if_neg old] at twice
        obtain ⟨first, whole, generation⟩ := pursued.once (by omega)
        refine ⟨first, ⟨s, n⟩, whole.twice recomputes rfl, ?_⟩
        rw [generation]
        exact Ne.symm old
  · simp only [if_neg again]
    refine ⟨⟨⟨s, n⟩, fresh, rfl⟩, fun _ => ⟨⟨s, n⟩, fresh, rfl⟩, fun twice => ?_⟩
    split at twice
    · omega
    · omega

theorem entered_eq (held : Held log s) (later : ∀ u ∈ log, u.nowMs ≤ n.nowMs) : s.entered .adaptive n = s := by
  rw [entered, if_neg]
  rintro (other | ⟨positive, back⟩)
  · exact other held.mode.symm
  · obtain ⟨u, member, last⟩ := held.last positive
    have order := later u member
    omega

theorem update_early (held : Held log s) (later : ∀ u ∈ log, u.nowMs ≤ n.nowMs) (early : s.early n = true) :
    s.update .adaptive n = (s.current, s) := by
  simp only [update, entered_eq held later, early, if_true]

theorem update_recompute (held : Held log s) (later : ∀ u ∈ log, u.nowMs ≤ n.nowMs) (due : s.early n = false) :
    s.update .adaptive n = ((s.recompute .adaptive n).current, s.recompute .adaptive n) := by
  simp only [update, entered_eq held later, due, Bool.false_eq_true, if_false]

theorem early_last (early : s.early n = true) : n.urgent = false ∧ 0 ≤ s.lastUpdateMs := by
  simp only [FecAdaptationController.early, Bool.and_eq_true, Bool.not_eq_true', decide_eq_true_eq] at early
  exact early.1

/-- A recomputation while congestion lasts leaves a small ratio. -/
theorem recompute_congested (until' : n.nowMs < (s.recompute .adaptive n).congestionUntilMs) :
    (s.recompute .adaptive n).ratio ≤ 1 / 20 ∧ (n.urgent = true → (s.recompute .adaptive n).ratio = 0) := by
  rw [(recompute_published s n).congested] at until'
  have asked := desire_congested (s := s.observe n) (Or.inr until')
  have immediate : Immediate s n := Or.inr (Or.inr (Or.inr until'))
  have applied : (s.recompute .adaptive n).ratio = if n.urgent = true then 0 else min s.ratio (1 / 20) := by
    cases recompute_adjusted s n with
    | immediate now ratio candidate =>
      rw [ratio, asked]
      rfl
    | same held => exact absurd immediate held
    | waits held => exact absurd immediate held
    | rises held => exact absurd immediate held
    | falls held => exact absurd immediate held
  rw [applied]
  refine ⟨?_, fun urgent => if_pos urgent⟩
  split
  · norm_num
  · exact min_le_right _ _

/-- An update that detects congestion lets it last. -/
theorem detected_until (detects : (⟨s, n⟩ : Update).detects = true) :
    (s.observe n).congestionUntilMs = n.nowMs + 1000 := by
  simp only [Update.detects, Bool.and_eq_true] at detects
  exact if_pos detects.2

theorem held_recompute (held : Held log s) (later : ∀ u ∈ log, u.nowMs ≤ n.nowMs) (due : s.early n = false) :
    Held (log ++ [⟨s, n⟩]) (s.recompute .adaptive n) := by
  have published := recompute_published s n
  have recomputes : (⟨s, n⟩ : Update).recomputes = true := by simp [Update.recomputes, due]
  have bounds := desire_bounds (n := n) held.ratio.1 held.ratio.2
  have pursued := considered_pursued held recomputes
  refine ⟨published.mode.trans held.mode, ?_, fun _ => published.current, fun _ => ?_, ?_, fun quiet => ?_, fun candidate => ?_⟩
  · cases recompute_adjusted s n with
    | immediate now ratio => exact ratio ▸ bounds
    | same same equal ratio => exact ratio ▸ held.ratio
    | waits waits ratio => exact ratio ▸ held.ratio
    | rises rises higher ratio => exact ratio ▸ bounds
    | falls falls lower ratio => exact ratio ▸ bounds
  · exact ⟨⟨s, n⟩, List.mem_concat_self, published.last.symm⟩
  · intro u member detects
    rw [published.congested]
    rcases List.mem_append.mp member with old | new
    · have order := later u old
      have before := held.congested u old detects
      simp only [observe]
      split
      · omega
      · exact before
    · rw [List.mem_singleton.mp new] at detects ⊢
      exact (detected_until detects).ge
  · rw [published.last] at quiet
    exact (recompute_congested quiet).1
  · rw [published.generation]
    cases recompute_adjusted s n with
    | immediate now ratio none' => exact absurd none' candidate
    | same same equal ratio none' => exact absurd none' candidate
    | waits waits ratio wanted since count =>
      rw [wanted, since, count]
      rw [consider_eq] at pursued ⊢
      exact pursued
    | rises rises higher ratio none' => exact absurd none' candidate
    | falls falls lower ratio none' => exact absurd none' candidate

theorem held_update (held : Held log s) (later : ∀ u ∈ log, u.nowMs ≤ n.nowMs) :
    Held (log ++ [⟨s, n⟩]) (s.update .adaptive n).2 := by
  cases early : s.early n with
  | false =>
    rw [update_recompute held later early]
    exact held_recompute held later early
  | true =>
    have skipped : (⟨s, n⟩ : Update).recomputes = false := by simp [Update.recomputes, early]
    rw [update_early held later early]
    refine ⟨held.mode, held.ratio, held.current, fun positive => ?_, ?_, held.quiet, fun candidate => ?_⟩
    · obtain ⟨u, member, last⟩ := held.last positive
      exact ⟨u, List.mem_append_left _ member, last⟩
    · intro u member detects
      rcases List.mem_append.mp member with old | new
      · exact held.congested u old detects
      · rw [List.mem_singleton.mp new] at detects
        simp [Update.detects, skipped] at detects
    · exact (held.pursued candidate).skip skipped

end Step

theorem held {version : Nat} {log : List Update} {s : FecAdaptationController} (reaches : Reaches version log s) :
    Held log s := by
  induction reaches with
  | start => exact held_start version
  | update _ n later ih => exact held_update ih later

/-! ### The hysteresis -/

/-- What an update may do to the ratio after the updates before it. -/
structure Hysteresis (log : List Update) (u : Update) : Prop where
  ratio : u.config.sourceRatio = some u.after.ratio ∧ 0 ≤ u.after.ratio ∧ u.after.ratio ≤ 1 / 4
  rises : u.before.ratio < u.after.ratio → u.network.urgent = false ∧
    (∀ v ∈ log ++ [u], v.detects = true → v.nowMs + 1000 ≤ u.nowMs) ∧
    u.network.fresh = true ∧ 40 ≤ u.network.feedback.samples ∧
    ∃ first second, Twice (log ++ [u]) u.after.ratio first second ∧ first.generation ≠ second.generation
  falls : u.after.ratio < u.before.ratio →
    u.config.reason ∉ [FecDecision.congested, .stale, .insufficientSamples] →
    ∃ first, Since (log ++ [u]) u.after.ratio first ∧ first.nowMs + 3000 ≤ u.nowMs
  congested : (∃ v ∈ log ++ [u], v.detects = true ∧ u.nowMs < v.nowMs + 1000) → u.after.ratio ≤ 1 / 20
  urgent : u.network.urgent = true → u.after.ratio = 0
  version : u.config.version = u.after.version ∧ (u.recomputes = true → u.after.version = u.before.version + 1) ∧
    (u.recomputes = false → u.after = u.before)

section Step

variable {log : List Update} {s : FecAdaptationController} {n : FecNetworkSnapshot}

theorem early_hysteresis (held : Held log s) (later : ∀ u ∈ log, u.nowMs ≤ n.nowMs) (early : s.early n = true) :
    Hysteresis log ⟨s, n⟩ := by
  obtain ⟨calm, positive⟩ := early_last early
  have skipped : (⟨s, n⟩ : Update).recomputes = false := by simp [Update.recomputes, early]
  have same := update_early held later early
  have after : Update.after ⟨s, n⟩ = s := congrArg Prod.snd same
  have config : Update.config ⟨s, n⟩ = s.current := congrArg Prod.fst same
  have current := held.current positive
  refine ⟨?_, ?_, ?_, ?_, ?_, ?_, ?_, ?_⟩
  · rw [after, config]
    exact ⟨current.1, held.ratio⟩
  · rw [after]
    exact fun rises => absurd rises (lt_irrefl _)
  · rw [after]
    exact fun falls => absurd falls (lt_irrefl _)
  · rintro ⟨v, member, detects, soon⟩
    rw [after]
    have old : v ∈ log := by
      refine (List.mem_append.mp member).resolve_right fun new => ?_
      rw [List.mem_singleton.mp new] at detects
      simp [Update.detects, skipped] at detects
    obtain ⟨u, there, last⟩ := held.last positive
    have order := later u there
    have lasts := held.congested v old detects
    change n.nowMs < v.nowMs + 1000 at soon
    exact held.quiet (by omega)
  · intro urgent
    rw [calm] at urgent
    cases urgent
  · rw [after, config]
    exact current.2
  · intro recomputes
    rw [skipped] at recomputes
    cases recomputes
  · exact fun _ => after

theorem recompute_hysteresis (held : Held log s) (later : ∀ u ∈ log, u.nowMs ≤ n.nowMs) (due : s.early n = false) :
    Hysteresis log ⟨s, n⟩ := by
  have recomputes : (⟨s, n⟩ : Update).recomputes = true := by simp [Update.recomputes, due]
  have whole := update_recompute held later due
  have after : Update.after ⟨s, n⟩ = s.recompute .adaptive n := congrArg Prod.snd whole
  have config : Update.config ⟨s, n⟩ = (s.recompute .adaptive n).current := congrArg Prod.fst whole
  have published := recompute_published s n
  have next := held_recompute held later due
  have pursued := considered_pursued held recomputes
  have lasts : (∃ v ∈ log ++ [⟨s, n⟩], v.detects = true ∧ n.nowMs < v.nowMs + 1000) →
      n.nowMs < (s.recompute .adaptive n).congestionUntilMs := by
    rintro ⟨v, member, detects, soon⟩
    have until' := next.congested v member detects
    omega
  refine ⟨?_, ?_, ?_, ?_, ?_, ?_, ?_, ?_⟩
  · rw [after, config]
    exact ⟨published.current.1, next.ratio⟩
  · rw [after]
    intro rises
    change s.ratio < _ at rises
    cases recompute_adjusted s n with
    | immediate now ratio =>
      rw [ratio] at rises
      exact absurd rises (not_lt.mpr (desire_immediate held.ratio.1 now).2)
    | same same equal ratio => exact absurd rises (ratio ▸ lt_irrefl _)
    | waits waits ratio => exact absurd rises (ratio ▸ lt_irrefl _)
    | falls falls lower ratio => exact absurd rises (ratio ▸ not_lt.mpr lower.le)
    | rises calm higher ratio none' confirmed =>
      simp only [Immediate, not_or] at calm
      obtain ⟨fresh, enough, lax, quiet⟩ := calm
      refine ⟨Bool.eq_false_of_not_eq_true lax, fun v member detects => ?_, not_not.mp fresh, not_lt.mp enough, ?_⟩
      · have until' := next.congested v member detects
        rw [published.congested] at until'
        change _ ≤ n.nowMs
        omega
      · rw [ratio]
        exact pursued.twice confirmed
  · rw [after, config, recompute_reason]
    intro falls calm
    change _ < s.ratio at falls
    cases recompute_adjusted s n with
    | immediate now ratio =>
      refine absurd ?_ calm
      by_cases congested : n.urgent = true ∨ n.nowMs < (s.observe n).congestionUntilMs
      · rw [desire_congested congested]
        exact List.mem_cons_self
      · have poor : ¬ n.fresh = true ∨ n.feedback.samples < 40 := by
          rcases now with stale | few | now
          · exact Or.inl stale
          · exact Or.inr few
          · exact absurd now congested
        rw [desire_quiet congested, if_pos poor]
        cases n.fresh
        · simp
        · simp
    | same same equal ratio => exact absurd falls (ratio ▸ lt_irrefl _)
    | waits waits ratio => exact absurd falls (ratio ▸ lt_irrefl _)
    | rises rises higher ratio => exact absurd falls (ratio ▸ not_lt.mpr higher.le)
    | falls held lower ratio none' since =>
      obtain ⟨first, asked, time⟩ := pursued.since
      rw [ratio]
      refine ⟨first, asked, ?_⟩
      change first.nowMs = (s.consider n ((s.observe n).desire .adaptive n).1).candidateSinceMs at time
      change _ ≤ n.nowMs
      omega
  · intro soon
    rw [after]
    exact (recompute_congested (lasts soon)).1
  · intro urgent
    rw [after]
    have detects : (⟨s, n⟩ : Update).detects = true := by
      simp only [Update.detects, recomputes, Bool.true_and, Bool.or_assoc]
      exact Bool.or_eq_true_iff.mpr (Or.inl urgent)
    refine (recompute_congested (lasts ⟨_, List.mem_concat_self, detects, ?_⟩)).2 urgent
    exact Int.lt_add_of_pos_right _ (by decide)
  · rw [after, config]
    exact published.current.2
  · intro _
    rw [after]
    exact published.version
  · intro skipped
    rw [recomputes] at skipped
    cases skipped

end Step

/-- Every update of a run keeps to the hysteresis. -/
theorem update_hysteresis {version : Nat} {log : List Update} {s : FecAdaptationController}
    (reaches : Reaches version log s) (n : FecNetworkSnapshot) (later : ∀ u ∈ log, u.nowMs ≤ n.nowMs) :
    Hysteresis log ⟨s, n⟩ := by
  cases early : s.early n with
  | false => exact recompute_hysteresis (held reaches) later early
  | true => exact early_hysteresis (held reaches) later early

/-- Feedback of one generation, in which every fifth packet is lost. -/
def lossy (nowMs : Int) (generation : Nat) : FecNetworkSnapshot where
  feedback := {
    samples := 50, lost := 10, maxLossRun := 1, lastFeedbackMs := nowMs, feedbackGeneration := generation }
  nowMs
  rttMs := 40
  transportBps := 1000000

/-- The second generation that asks for more protection gets it. -/
theorem update_hysteresis_lossy :
    Hysteresis [⟨{}, lossy 0 1⟩] ⟨((({} : FecAdaptationController).update .adaptive (lossy 0 1)).2), lossy 200 2⟩ ∧
      (((({} : FecAdaptationController).update .adaptive (lossy 0 1)).2.update .adaptive (lossy 200 2)).2).ratio =
        1 / 4 := by
  have first : Reaches 0 [⟨{}, lossy 0 1⟩] ((({} : FecAdaptationController).update .adaptive (lossy 0 1)).2) :=
    .update .start (lossy 0 1) fun _ member => absurd member List.not_mem_nil
  refine ⟨update_hysteresis first (lossy 200 2) fun u member => ?_, by decide +kernel⟩
  rw [List.mem_singleton.mp member]
  decide

end MiniRtc.Fec.FecAdaptationController
