import MiniRtc.Lib.Runs
import MiniRtc.Web.QosController

/-! The rate budget over every sequence of calls (web_qos_controller.cpp): the range of the rate, how fast it
rises, the recovery probes and the scale of the frames. -/
namespace MiniRtc.Web.WebQosController

variable {σ : Type} (e : Estimator σ)

/-- The calls of the controller. -/
inductive Event where
  | start
  | packetSent (bytes : BitVec 64)
  | keyFrameBlocked
  | receiverEstimate (bitrateBps : Int)
  | receiverReport (lost expected rttMs : Int)
  | telemetry (t : Telemetry)
  | update (queueMs : Int)

def handle (q : WebQosController σ) (nowMs : Int) : Event → WebQosController σ
  | .start => q.start nowMs
  | .packetSent bytes => q.onPacketSent bytes
  | .keyFrameBlocked => q.onKeyFrameBlocked e nowMs
  | .receiverEstimate bitrateBps => q.onReceiverEstimate e bitrateBps nowMs
  | .receiverReport lost expected rttMs => q.onReceiverReport e lost expected rttMs nowMs
  | .telemetry t => (q.onTelemetry e t nowMs).2
  | .update queueMs => q.update e nowMs queueMs

/-! ### What feedback leaves as it is -/

/-- The rate is not raised and stays above its minimum, a probe may end, and the scale and the times of the last
probe, pressure and update are kept. -/
structure Quiet (q r : WebQosController σ) : Prop where
  networkBps : r.budget.networkBps ≤ q.budget.networkBps
  minNetworkBps : kMinNetworkBps ≤ q.budget.networkBps → kMinNetworkBps ≤ r.budget.networkBps
  decodeScale : r.budget.decodeScale = q.budget.decodeScale
  lastPressureMs : r.lastPressureMs = q.lastPressureMs
  lastRecoveryProbeMs : r.lastRecoveryProbeMs = q.lastRecoveryProbeMs
  recoveryProbeUntilMs : r.recoveryProbeUntilMs = q.recoveryProbeUntilMs ∨ r.recoveryProbeUntilMs = -1
  lastUpdateMs : r.lastUpdateMs = q.lastUpdateMs

namespace Quiet

/-- The fields that are not written otherwise. -/
def kept (q : WebQosController σ) : Int × ℚ × Int × Int × Int × Int :=
  (q.budget.networkBps, q.budget.decodeScale, q.lastPressureMs, q.lastRecoveryProbeMs, q.recoveryProbeUntilMs,
    q.lastUpdateMs)

theorem other {q r : WebQosController σ} (same : kept r = kept q) : Quiet q r := by
  simp only [kept, Prod.mk.injEq] at same
  obtain ⟨networkBps, decodeScale, lastPressureMs, lastRecoveryProbeMs, recoveryProbeUntilMs, lastUpdateMs⟩ := same
  exact ⟨networkBps.le, fun low => networkBps ▸ low, decodeScale, lastPressureMs, lastRecoveryProbeMs,
    .inl recoveryProbeUntilMs, lastUpdateMs⟩

theorem refl (q : WebQosController σ) : Quiet q q := .other rfl

theorem trans {q r s : WebQosController σ} (first : Quiet q r) (second : Quiet r s) : Quiet q s where
  networkBps := second.networkBps.trans first.networkBps
  minNetworkBps := fun low => second.minNetworkBps (first.minNetworkBps low)
  decodeScale := second.decodeScale.trans first.decodeScale
  lastPressureMs := second.lastPressureMs.trans first.lastPressureMs
  lastRecoveryProbeMs := second.lastRecoveryProbeMs.trans first.lastRecoveryProbeMs
  recoveryProbeUntilMs := by
    rcases second.recoveryProbeUntilMs with same | ended
    · rw [same]
      exact first.recoveryProbeUntilMs
    · exact .inr ended
  lastUpdateMs := second.lastUpdateMs.trans first.lastUpdateMs

/-- One branch or none. -/
theorem ite {q r : WebQosController σ} {P : Prop} [Decidable P] (quiet : Quiet q r) :
    Quiet q (if P then r else q) := by
  split
  · exact quiet
  · exact refl q

end Quiet

theorem resetProbe_quiet (q : WebQosController σ) : Quiet q q.resetProbe :=
  ⟨le_rfl, id, rfl, rfl, rfl, .inr rfl, rfl⟩

theorem applyReceiverLimit_quiet (q : WebQosController σ) (nowMs : Int) : Quiet q (q.applyReceiverLimit e nowMs) := by
  unfold applyReceiverLimit
  split
  · exact .refl q
  · exact .other rfl

theorem receiverFloor_quiet (q : WebQosController σ) (bitrateBps nowMs : Int) :
    Quiet q (q.receiverFloor bitrateBps nowMs) := by
  unfold receiverFloor
  split
  · exact .other rfl
  · exact .ite (.other rfl)

theorem onReceiverEstimate_quiet (q : WebQosController σ) (bitrateBps nowMs : Int) :
    Quiet q (q.onReceiverEstimate e bitrateBps nowMs) := by
  unfold onReceiverEstimate
  split
  · exact .refl q
  · refine Quiet.trans ?_ (applyReceiverLimit_quiet e _ nowMs)
    exact (receiverFloor_quiet q bitrateBps nowMs).trans (.other rfl)

/-- The estimator's rate is not below the minimum. -/
theorem lowerRate_quiet (q : WebQosController σ) (factor : ℚ) (nowMs : Int) : Quiet q (q.lowerRate e factor nowMs) :=
  ⟨min_le_left _ _, fun low => le_min low (e.target_ge _), rfl, rfl, rfl, .inl rfl, rfl⟩

theorem backOff_quiet (q : WebQosController σ) (factor : ℚ) (nowMs : Int) : Quiet q (q.backOff e factor nowMs) := by
  refine (resetProbe_quiet q).trans ?_
  unfold backOff
  dsimp only
  split
  · exact .refl _
  · exact lowerRate_quiet e _ factor nowMs

theorem lossAt_quiet (q : WebQosController σ) (nowMs : Int) : Quiet q (q.lossAt nowMs) :=
  (resetProbe_quiet q).trans (.other rfl)

theorem updateLoss_quiet (q : WebQosController σ) (lost expected nowMs : Int) :
    Quiet q (q.updateLoss e lost expected nowMs) := by
  refine Quiet.ite ?_
  have measured : Quiet q (q.measureLoss (clamp lost 0 expected) expected nowMs) := .other rfl
  have stopped := lossAt_quiet (q.measureLoss (clamp lost 0 expected) expected nowMs) nowMs
  exact (measured.trans (.ite stopped)).trans (.other rfl)

theorem rttPressure_quiet (q : WebQosController σ) (rttMs nowMs : Int) : Quiet q (q.rttPressure e rttMs nowMs) := by
  unfold rttPressure
  split
  · have noted : Quiet q (q.noteRttPressure nowMs) := .ite (.other rfl)
    exact noted.trans (.ite (backOff_quiet e (q.noteRttPressure nowMs) (85 / 100) nowMs))
  · exact .other rfl

theorem updateRtt_quiet (q : WebQosController σ) (rttMs nowMs : Int) : Quiet q (q.updateRtt e rttMs nowMs) := by
  refine Quiet.ite ?_
  have measured : Quiet q (q.measureRtt rttMs) := .other rfl
  exact (measured.trans (rttPressure_quiet e _ rttMs nowMs)).trans (.other rfl)

theorem updateNetworkFeedback_quiet (q : WebQosController σ) (lost expected rttMs nowMs : Int) :
    Quiet q (q.updateNetworkFeedback e lost expected rttMs nowMs) := by
  have noted : Quiet q { q with lastFeedbackMs := nowMs } := .other rfl
  exact (noted.trans (updateLoss_quiet e _ lost expected nowMs)).trans (updateRtt_quiet e _ rttMs nowMs)

theorem onReceiverReport_quiet (q : WebQosController σ) (lost expected rttMs nowMs : Int) :
    Quiet q (q.onReceiverReport e lost expected rttMs nowMs) := by
  have noted : Quiet q { q with lastReportMs := nowMs } := .other rfl
  exact noted.trans (updateNetworkFeedback_quiet e _ lost expected rttMs nowMs)

theorem telemetryFeedback_quiet (q : WebQosController σ) (t : Telemetry) (nowMs : Int) :
    Quiet q (q.telemetryFeedback e t nowMs) :=
  .ite (updateNetworkFeedback_quiet e q t.lost t.expected t.rttMs nowMs)

theorem telemetryLoss_quiet (q : WebQosController σ) (t : Telemetry) (nowMs : Int) :
    Quiet q (q.telemetryLoss t nowMs) := by
  have noted : Quiet q { q with
      lastFeedbackMs := nowMs
      lastPacketFeedbackMs := if 0 < t.expected then nowMs else q.lastPacketFeedbackMs } := .other rfl
  exact noted.trans (.ite (lossAt_quiet _ nowMs))

theorem telemetryRate_quiet (q : WebQosController σ) (t : Telemetry) (nowMs : Int) :
    Quiet q (q.telemetryRate t nowMs) :=
  .ite (.ite (.other rfl))

theorem telemetryJitter_quiet (q : WebQosController σ) (excessBufferMs : ℚ) (nowMs : Int) :
    Quiet q (q.telemetryJitter excessBufferMs nowMs) := by
  unfold telemetryJitter
  extract_lets growingBuffer
  split
  · exact .other rfl
  · exact .ite (.other rfl)

theorem decodeProgress_quiet (q : WebQosController σ) (fps : ℚ) (nowMs : Int) :
    Quiet q (q.decodeProgress fps nowMs) :=
  .ite (.other rfl)

theorem telemetryFloor_quiet (q : WebQosController σ) (t : Telemetry) (healthy : Bool) (nowMs : Int) :
    Quiet q (q.telemetryFloor t healthy nowMs) :=
  .ite (.other rfl)

theorem telemetryHealth_quiet (q : WebQosController σ) (healthy : Bool) (nowMs : Int) :
    Quiet q (q.telemetryHealth healthy nowMs) := by
  unfold telemetryHealth
  split
  · exact .other rfl
  · exact .ite (.other rfl)

theorem noteTelemetry_quiet (q : WebQosController σ) (excessBufferMs : ℚ) (nowMs : Int) :
    Quiet q (q.noteTelemetry excessBufferMs nowMs) :=
  .other rfl

theorem queuePressure_quiet (q : WebQosController σ) (nowMs queueMs : Int) :
    Quiet q (q.queuePressure nowMs queueMs) := by
  unfold queuePressure
  split
  · exact .other rfl
  · exact .ite (.other rfl)

/-! ### What a call does -/

/-- As `Quiet`, but the scale may change: it is lowered only if there was no pressure in the last second. -/
structure Eased (q r : WebQosController σ) (nowMs : Int) : Prop where
  networkBps : r.budget.networkBps ≤ q.budget.networkBps
  minNetworkBps : kMinNetworkBps ≤ q.budget.networkBps → kMinNetworkBps ≤ r.budget.networkBps
  decodeScale : q.budget.decodeScale ∈ Set.Icc (1 / 4) 1 → r.budget.decodeScale ∈ Set.Icc (1 / 4) 1
  lastPressureMs : q.budget.decodeScale ≤ 1 →
    q.budget.decodeScale ≤ r.budget.decodeScale ∧ r.lastPressureMs = q.lastPressureMs ∨
      (q.lastPressureMs < 0 ∨ 1000 ≤ nowMs - q.lastPressureMs) ∧ r.lastPressureMs = nowMs
  lastRecoveryProbeMs : r.lastRecoveryProbeMs = q.lastRecoveryProbeMs
  recoveryProbeUntilMs : r.recoveryProbeUntilMs = q.recoveryProbeUntilMs ∨ r.recoveryProbeUntilMs = -1
  lastUpdateMs : r.lastUpdateMs = q.lastUpdateMs

theorem Quiet.eased {q r : WebQosController σ} (quiet : Quiet q r) (nowMs : Int) : Eased q r nowMs where
  networkBps := quiet.networkBps
  minNetworkBps := quiet.minNetworkBps
  decodeScale := fun inRange => quiet.decodeScale ▸ inRange
  lastPressureMs := fun _ => .inl ⟨quiet.decodeScale.ge, quiet.lastPressureMs⟩
  lastRecoveryProbeMs := quiet.lastRecoveryProbeMs
  recoveryProbeUntilMs := quiet.recoveryProbeUntilMs
  lastUpdateMs := quiet.lastUpdateMs

namespace Eased

theorem after {q r s : WebQosController σ} {nowMs : Int} (first : Quiet q r) (second : Eased r s nowMs) :
    Eased q s nowMs where
  networkBps := second.networkBps.trans first.networkBps
  minNetworkBps := fun low => second.minNetworkBps (first.minNetworkBps low)
  decodeScale := fun inRange => second.decodeScale (first.decodeScale ▸ inRange)
  lastPressureMs := by
    have pressure := second.lastPressureMs
    rwa [first.decodeScale, first.lastPressureMs] at pressure
  lastRecoveryProbeMs := second.lastRecoveryProbeMs.trans first.lastRecoveryProbeMs
  recoveryProbeUntilMs := by
    rcases second.recoveryProbeUntilMs with same | ended
    · rw [same]
      exact first.recoveryProbeUntilMs
    · exact .inr ended
  lastUpdateMs := second.lastUpdateMs.trans first.lastUpdateMs

theorem before {q r s : WebQosController σ} {nowMs : Int} (first : Eased q r nowMs) (second : Quiet r s) :
    Eased q s nowMs where
  networkBps := second.networkBps.trans first.networkBps
  minNetworkBps := fun low => second.minNetworkBps (first.minNetworkBps low)
  decodeScale := fun inRange => second.decodeScale ▸ first.decodeScale inRange
  lastPressureMs := by
    rw [second.decodeScale, second.lastPressureMs]
    exact first.lastPressureMs
  lastRecoveryProbeMs := second.lastRecoveryProbeMs.trans first.lastRecoveryProbeMs
  recoveryProbeUntilMs := by
    rcases second.recoveryProbeUntilMs with same | ended
    · rw [same]
      exact first.recoveryProbeUntilMs
    · exact .inr ended
  lastUpdateMs := second.lastUpdateMs.trans first.lastUpdateMs

end Eased

theorem lowerScale_eased (q : WebQosController σ) (nowMs : Int)
    (free : q.lastPressureMs < 0 ∨ 1000 ≤ nowMs - q.lastPressureMs) : Eased q (q.lowerScale nowMs) nowMs where
  networkBps := le_rfl
  minNetworkBps := id
  decodeScale := by
    rintro ⟨low, high⟩
    refine ⟨le_max_left _ _, max_le (by norm_num) ?_⟩
    linarith
  lastPressureMs := fun _ => .inr ⟨free, rfl⟩
  lastRecoveryProbeMs := rfl
  recoveryProbeUntilMs := .inl rfl
  lastUpdateMs := rfl

theorem telemetryScale_eased (q : WebQosController σ) (frozen slowDecode sustainedBufferGrowth : Bool) (nowMs : Int) :
    Eased q (q.telemetryScale frozen slowDecode sustainedBufferGrowth nowMs) nowMs := by
  unfold telemetryScale
  split
  · rename_i slow
    exact lowerScale_eased q nowMs slow.2
  · split
    · refine ⟨le_rfl, id, ?_, ?_, rfl, .inl rfl, rfl⟩
      · rintro ⟨low, -⟩
        refine ⟨le_min (by norm_num) ?_, min_le_left _ _⟩
        linarith
      · exact fun high => .inl ⟨le_min high (by linarith), rfl⟩
    · exact (Quiet.refl q).eased nowMs

theorem updateQueue_eased (q : WebQosController σ) (nowMs : Int) : Eased q (q.updateQueue nowMs) nowMs := by
  unfold updateQueue
  split
  · rename_i long
    exact lowerScale_eased q nowMs long.2.2
  · exact (Quiet.refl q).eased nowMs

theorem onTelemetry_rejected {q : WebQosController σ} {t : Telemetry} {nowMs : Int}
    (rejected : (q.onTelemetry e t nowMs).1 = false) : (q.onTelemetry e t nowMs).2 = q := by
  unfold onTelemetry at rejected ⊢
  split
  · rfl
  · rename_i accepted
    rw [accepted] at rejected
    cases rejected

theorem onTelemetry_eased (q : WebQosController σ) (t : Telemetry) (nowMs : Int) :
    Eased q (q.onTelemetry e t nowMs).2 nowMs := by
  unfold onTelemetry
  split
  · exact (Quiet.refl q).eased nowMs
  · rename_i jitterBufferMs decodeMs fps _
    have fed := (telemetryFeedback_quiet e q t nowMs).trans (telemetryLoss_quiet _ t nowMs)
    have rated := fed.trans (telemetryRate_quiet _ t nowMs)
    have jittered := rated.trans (telemetryJitter_quiet _ (max 0 (jitterBufferMs - 1000 / max 5 fps)) nowMs)
    have decoded := jittered.trans (decodeProgress_quiet _ fps nowMs)
    refine Eased.before (Eased.after ?_ (telemetryScale_eased _ t.frozen _ _ nowMs))
      (noteTelemetry_quiet _ (max 0 (jitterBufferMs - 1000 / max 5 fps)) nowMs)
    exact (decoded.trans (telemetryFloor_quiet _ t _ nowMs)).trans (telemetryHealth_quiet _ _ nowMs)

theorem updateLimits_eased (q : WebQosController σ) (nowMs queueMs : Int) :
    Eased q (q.updateLimits e nowMs queueMs) nowMs := by
  have windowed : Quiet q (q.updateWindow nowMs queueMs) := .ite (.other rfl)
  have aged : Quiet (q.updateWindow nowMs queueMs) ((q.updateWindow nowMs queueMs).updateAge nowMs) := .other rfl
  have dropped : Quiet _ (((q.updateWindow nowMs queueMs).updateAge nowMs).updateRemb e nowMs) := .ite (.other rfl)
  have queued := ((windowed.trans aged).trans dropped).trans (queuePressure_quiet _ nowMs queueMs)
  have scaled := Eased.after queued (updateQueue_eased _ nowMs)
  have floored := scaled.before (.ite (.other rfl) : Quiet _ (updateFloor _))
  have probed := floored.before (.ite (.other rfl) : Quiet _ (updateProbe _ nowMs))
  exact (probed.before (applyReceiverLimit_quiet e _ nowMs)).before (.other rfl)

/-! ### The rate of an update -/

theorem clamp_mem (value : Int) {low high : Int} (ordered : low ≤ high) : clamp value low high ∈ Set.Icc low high := by
  unfold clamp
  constructor <;> split_ifs <;> omega

theorem clamp_le {value low high bound : Int} (below : value ≤ bound) (low_le : low ≤ bound) :
    clamp value low high ≤ bound := by
  unfold clamp
  split_ifs <;> omega

theorem updateRate_mem (q : WebQosController σ) (nowMs : Int) :
    (q.updateRate e nowMs).budget.networkBps ∈ Set.Icc kMinNetworkBps kDefaultMaxNetworkBitrateBps := by
  unfold updateRate
  extract_lets desired recoveryProbe probed networkBps raised
  obtain ⟨low, high⟩ : networkBps ∈ Set.Icc kMinNetworkBps kDefaultMaxNetworkBitrateBps := clamp_mem _ (by decide)
  have probing : kRecoveryProbeBps ≤ kDefaultMaxNetworkBitrateBps := by decide
  show raised ∈ _
  subst raised
  split
  · exact ⟨low.trans (le_max_left _ _), max_le high probing⟩
  · exact ⟨low, high⟩

/-- What the rate may rise by in a time. -/
def riseBps (networkBps elapsedMs : Int) : ℚ := (networkBps * 15 / 100 + 10000) * min 1 ((elapsedMs : ℚ) / 1000)

theorem increaseBps_le {q : WebQosController σ} {nowMs networkBps sinceMs : Int} (low : 0 ≤ q.budget.networkBps)
    (rate : q.budget.networkBps ≤ networkBps) (since : sinceMs ≤ q.lastUpdateMs) (updated : q.lastUpdateMs ≤ nowMs) :
    0 ≤ q.increaseBps nowMs ∧ (q.increaseBps nowMs : ℚ) ≤ riseBps networkBps (nowMs - sinceMs) := by
  unfold increaseBps riseBps
  extract_lets seconds
  have low' : (0 : ℚ) ≤ q.budget.networkBps := by exact_mod_cast low
  have rate' : (q.budget.networkBps : ℚ) ≤ networkBps := by exact_mod_cast rate
  have factor : (0 : ℚ) ≤ q.budget.networkBps * 15 / 100 + 10000 := by linarith
  have elapsed : ((nowMs - q.lastUpdateMs : Int) : ℚ) ≤ ((nowMs - sinceMs : Int) : ℚ) := by
    exact_mod_cast (by omega : nowMs - q.lastUpdateMs ≤ nowMs - sinceMs)
  have forward : (0 : ℚ) ≤ ((nowMs - sinceMs : Int) : ℚ) := by exact_mod_cast (by omega : 0 ≤ nowMs - sinceMs)
  have some : 0 ≤ seconds := le_max_left _ _
  have most : seconds ≤ min 1 (((nowMs - sinceMs : Int) : ℚ) / 1000) := by
    refine max_le (le_min zero_le_one (by linarith)) (min_le_min_left _ ?_)
    linarith
  refine ⟨Int.floor_nonneg.mpr (mul_nonneg factor some), (Int.floor_le _).trans ?_⟩
  exact mul_le_mul (by linarith) most some (by linarith)

theorem updateRate_rise (q : WebQosController σ) (nowMs : Int) (low : kMinNetworkBps ≤ q.budget.networkBps)
    (increase : 0 ≤ q.increaseBps nowMs) :
    (q.updateRate e nowMs).budget.networkBps ≤ q.budget.networkBps + q.increaseBps nowMs ∨
      nowMs < q.recoveryProbeUntilMs ∧ (q.updateRate e nowMs).budget.networkBps = kRecoveryProbeBps := by
  unfold updateRate
  extract_lets desired recoveryProbe probed networkBps raised
  have limited : networkBps ≤ q.budget.networkBps + q.increaseBps nowMs :=
    clamp_le (min_le_right _ _) (by omega)
  show raised ≤ _ ∨ _ ∧ raised = _
  subst raised
  split
  · rename_i probing
    rcases le_total networkBps kRecoveryProbeBps with below | above
    · exact .inr ⟨probing, max_eq_right below⟩
    · rw [max_eq_left above]
      exact .inl limited
  · exact .inl limited

/-- The shares of the rate: neither bound of the video's share is reached. -/
theorem updateShares_sum (q : WebQosController σ) (nowMs : Int) (low : kMinNetworkBps ≤ q.budget.networkBps) :
    let shared := (q.updateShares nowMs).budget
    shared.audioBps + shared.videoBps = ⌊(shared.networkBps * 85 / 100 : ℚ)⌋ ∧ 0 < shared.audioBps ∧
      0 < shared.videoBps := by
  unfold updateShares
  extract_lets networkBps audioBps videoBps maxFps fewer shared
  have range : 64000 ≤ networkBps := low
  have audio_le : audioBps ≤ networkBps * 2 / 5 := min_le_right _ _
  have audio_pos : 0 < audioBps := lt_min (by norm_num) (by omega)
  have share : audioBps + 16000 ≤ ⌊(networkBps * 85 / 100 : ℚ)⌋ := by
    rw [Int.le_floor]
    have fifth : ((audioBps * 5 : Int) : ℚ) ≤ (networkBps * 2 : Int) := by exact_mod_cast (by omega)
    have range' : (64000 : ℚ) ≤ networkBps := by exact_mod_cast range
    push_cast at fifth ⊢
    linarith
  have video_eq : videoBps = ⌊(networkBps * 85 / 100 : ℚ)⌋ - audioBps := max_eq_right (by omega)
  show audioBps + videoBps = ⌊(networkBps * 85 / 100 : ℚ)⌋ ∧ 0 < audioBps ∧ 0 < videoBps
  refine ⟨by omega, audio_pos, by omega⟩

/-! ### Every call -/

def Event.updates : Event → Bool
  | .update _ => true
  | _ => false

def Event.startsProbe (q : WebQosController σ) (nowMs : Int) : Event → Bool
  | .keyFrameBlocked => decide (q.startsProbe nowMs)
  | _ => false

structure Effect (q r : WebQosController σ) (nowMs : Int) (event : Event) : Prop where
  networkBps : q.budget.networkBps ∈ Set.Icc kMinNetworkBps kDefaultMaxNetworkBitrateBps →
    r.budget.networkBps ∈ Set.Icc kMinNetworkBps kDefaultMaxNetworkBitrateBps
  decodeScale : q.budget.decodeScale ∈ Set.Icc (1 / 4) 1 → r.budget.decodeScale ∈ Set.Icc (1 / 4) 1
  lastPressureMs : q.budget.decodeScale ≤ 1 →
    q.budget.decodeScale ≤ r.budget.decodeScale ∧ r.lastPressureMs = q.lastPressureMs ∨
      (q.lastPressureMs < 0 ∨ 1000 ≤ nowMs - q.lastPressureMs) ∧ r.lastPressureMs = nowMs
  probe : event.startsProbe q nowMs = true ∧ q.startsProbe nowMs ∧ r.lastRecoveryProbeMs = nowMs ∧
      r.recoveryProbeUntilMs = nowMs + 3000 ∨
    event.startsProbe q nowMs = false ∧ r.lastRecoveryProbeMs = q.lastRecoveryProbeMs ∧
      (r.recoveryProbeUntilMs = q.recoveryProbeUntilMs ∨ r.recoveryProbeUntilMs = -1)
  lastUpdateMs : r.lastUpdateMs = nowMs ∨ r.lastUpdateMs = q.lastUpdateMs ∧ event.updates = false

theorem Eased.effect {q r : WebQosController σ} {nowMs : Int} (eased : Eased q r nowMs) {event : Event}
    (starts : event.startsProbe q nowMs = false) (updates : event.updates = false) : Effect q r nowMs event where
  networkBps := fun inRange => ⟨eased.minNetworkBps inRange.1, eased.networkBps.trans inRange.2⟩
  decodeScale := eased.decodeScale
  lastPressureMs := eased.lastPressureMs
  probe := .inr ⟨starts, eased.lastRecoveryProbeMs, eased.recoveryProbeUntilMs⟩
  lastUpdateMs := .inr ⟨eased.lastUpdateMs, updates⟩

theorem start_effect (q : WebQosController σ) (nowMs : Int) : Effect q (q.start nowMs) nowMs .start where
  networkBps := id
  decodeScale := id
  lastPressureMs := fun _ => .inl ⟨le_rfl, rfl⟩
  probe := .inr ⟨rfl, rfl, .inl rfl⟩
  lastUpdateMs := .inl rfl

theorem onKeyFrameBlocked_effect (q : WebQosController σ) (nowMs : Int) :
    Effect q (q.onKeyFrameBlocked e nowMs) nowMs .keyFrameBlocked := by
  unfold onKeyFrameBlocked
  split
  · rename_i starts
    exact ⟨id, id, fun _ => .inl ⟨le_rfl, rfl⟩, .inl ⟨decide_eq_true starts, starts, rfl, rfl⟩, .inr ⟨rfl, rfl⟩⟩
  · rename_i refused
    exact ((Quiet.refl q).eased nowMs).effect (decide_eq_false refused) rfl

theorem update_effect (q : WebQosController σ) (nowMs queueMs : Int) :
    Effect q (q.update e nowMs queueMs) nowMs (.update queueMs) where
  networkBps := fun _ => updateRate_mem e _ nowMs
  decodeScale := (updateLimits_eased e q nowMs queueMs).decodeScale
  lastPressureMs := (updateLimits_eased e q nowMs queueMs).lastPressureMs
  probe := .inr ⟨rfl, (updateLimits_eased e q nowMs queueMs).lastRecoveryProbeMs,
    (updateLimits_eased e q nowMs queueMs).recoveryProbeUntilMs⟩
  lastUpdateMs := .inl rfl

theorem handle_effect (q : WebQosController σ) (nowMs : Int) (event : Event) :
    Effect q (q.handle e nowMs event) nowMs event := by
  cases event with
  | start => exact start_effect q nowMs
  | packetSent bytes => exact ((Quiet.other rfl : Quiet q (q.onPacketSent bytes)).eased nowMs).effect rfl rfl
  | keyFrameBlocked => exact onKeyFrameBlocked_effect e q nowMs
  | receiverEstimate bitrateBps =>
    exact ((onReceiverEstimate_quiet e q bitrateBps nowMs).eased nowMs).effect rfl rfl
  | receiverReport lost expected rttMs =>
    exact ((onReceiverReport_quiet e q lost expected rttMs nowMs).eased nowMs).effect rfl rfl
  | telemetry t => exact (onTelemetry_eased e q t nowMs).effect rfl rfl
  | update queueMs => exact update_effect e q nowMs queueMs

/-! ### Runs -/

/-- A controller, the times of the last call and the last update, and the times at which a recovery probe started
and at which the scale was lowered, from new to old. -/
structure Watched (σ : Type) where
  qos : WebQosController σ
  clock : Int
  updatedMs : Int
  probes : List Int := []
  lowered : List Int := []

namespace Watched

def new (estimator : σ) (nowMs : Int) : Watched σ where
  qos := .new estimator nowMs
  clock := nowMs
  updatedMs := nowMs

def call (w : Watched σ) (nowMs : Int) (event : Event) : Watched σ :=
  let qos := w.qos.handle e nowMs event
  { qos
    clock := nowMs
    updatedMs := if event.updates then nowMs else w.updatedMs
    probes := if event.startsProbe w.qos nowMs then nowMs :: w.probes else w.probes
    lowered := if qos.budget.decodeScale < w.qos.budget.decodeScale then nowMs :: w.lowered else w.lowered }

/-- The states after any calls with times that do not fall. -/
def Reaches : Watched σ → Prop :=
  Runs.Reachable (fun w => ∃ estimator nowMs, 0 ≤ nowMs ∧ w = .new estimator nowMs)
    (Runs.Steps fun w (moment : Int × Event) v => w.clock ≤ moment.1 ∧ w.call e moment.1 moment.2 = v)

/-- Times from new to old that are so far apart. -/
def Spaced (gapMs : Int) (times : List Int) : Prop := times.Pairwise fun later earlier => earlier + gapMs ≤ later

theorem Spaced.cons {gapMs nowMs lastMs : Int} {times : List Int} (spaced : Spaced gapMs times)
    (past : ∀ t ∈ times, 0 ≤ t ∧ t ≤ lastMs) (free : lastMs < 0 ∨ gapMs ≤ nowMs - lastMs) :
    Spaced gapMs (nowMs :: times) := by
  refine List.pairwise_cons.mpr ⟨fun t member => ?_, spaced⟩
  obtain ⟨nonneg, before⟩ := past t member
  omega

structure Kept (w : Watched σ) : Prop where
  started : 0 ≤ w.updatedMs
  updated : w.updatedMs ≤ w.qos.lastUpdateMs
  clock : w.qos.lastUpdateMs ≤ w.clock
  networkBps : w.qos.budget.networkBps ∈ Set.Icc kMinNetworkBps kDefaultMaxNetworkBitrateBps
  decodeScale : w.qos.budget.decodeScale ∈ Set.Icc (1 / 4) 1
  lowered : ∀ t ∈ w.lowered, 0 ≤ t ∧ t ≤ w.qos.lastPressureMs
  spacedLowered : Spaced 1000 w.lowered
  pressure : w.qos.lastPressureMs ≤ w.clock
  probes : ∀ t ∈ w.probes, 0 ≤ t ∧ t ≤ w.qos.lastRecoveryProbeMs
  spacedProbes : Spaced 8000 w.probes
  running : w.qos.recoveryProbeUntilMs = -1 ∨ ∃ start ∈ w.probes, start ≤ w.clock ∧
    w.qos.recoveryProbeUntilMs = start + 3000

theorem new_kept (estimator : σ) {nowMs : Int} (nonneg : 0 ≤ nowMs) : Kept (.new estimator nowMs) where
  started := nonneg
  updated := le_rfl
  clock := le_rfl
  networkBps := by
    show kMinNetworkBps ≤ kInitialNetworkBps ∧ kInitialNetworkBps ≤ kDefaultMaxNetworkBitrateBps
    decide
  decodeScale := ⟨by show (1 / 4 : ℚ) ≤ 1; norm_num, le_rfl⟩
  lowered := by simp [new]
  spacedLowered := .nil
  pressure := by
    show (-1 : Int) ≤ nowMs
    omega
  probes := by simp [new]
  spacedProbes := .nil
  running := .inl rfl

section

variable {w : Watched σ} {nowMs : Int} (event : Event)

theorem Kept.lowering (kept : Kept w) (later : w.clock ≤ nowMs) :
    (∀ t ∈ (w.call e nowMs event).lowered, 0 ≤ t ∧ t ≤ (w.call e nowMs event).qos.lastPressureMs) ∧
      Spaced 1000 (w.call e nowMs event).lowered ∧ (w.call e nowMs event).qos.lastPressureMs ≤ nowMs := by
  have effect := handle_effect e w.qos nowMs event
  have now : 0 ≤ nowMs := kept.started.trans (kept.updated.trans (kept.clock.trans later))
  have past : ∀ t ∈ w.lowered, 0 ≤ t ∧ t ≤ nowMs := fun t member =>
    ⟨(kept.lowered t member).1, (kept.lowered t member).2.trans (kept.pressure.trans later)⟩
  simp only [call]
  rcases effect.lastPressureMs kept.decodeScale.2 with ⟨raised, same⟩ | ⟨free, pressed⟩
  · rw [if_neg raised.not_gt, same]
    exact ⟨kept.lowered, kept.spacedLowered, kept.pressure.trans later⟩
  · rw [pressed]
    split
    · refine ⟨?_, kept.spacedLowered.cons kept.lowered free, le_rfl⟩
      rintro t (- | ⟨_, member⟩)
      · exact ⟨now, le_rfl⟩
      · exact past t member
    · exact ⟨past, kept.spacedLowered, le_rfl⟩

theorem Kept.probing (kept : Kept w) (later : w.clock ≤ nowMs) :
    (∀ t ∈ (w.call e nowMs event).probes, 0 ≤ t ∧ t ≤ (w.call e nowMs event).qos.lastRecoveryProbeMs) ∧
      Spaced 8000 (w.call e nowMs event).probes ∧
      ((w.call e nowMs event).qos.recoveryProbeUntilMs = -1 ∨ ∃ start ∈ (w.call e nowMs event).probes,
        start ≤ nowMs ∧ (w.call e nowMs event).qos.recoveryProbeUntilMs = start + 3000) := by
  have effect := handle_effect e w.qos nowMs event
  have now : 0 ≤ nowMs := kept.started.trans (kept.updated.trans (kept.clock.trans later))
  simp only [call]
  rcases effect.probe with ⟨starts, ⟨-, rested, -⟩, last, running⟩ | ⟨starts, last, running⟩
  · rw [if_pos starts, last, running]
    have free : w.qos.lastRecoveryProbeMs < 0 ∨ 8000 ≤ nowMs - w.qos.lastRecoveryProbeMs := by omega
    refine ⟨?_, kept.spacedProbes.cons kept.probes free, .inr ⟨nowMs, List.mem_cons_self, le_rfl, rfl⟩⟩
    rintro t (- | ⟨_, member⟩)
    · exact ⟨now, le_rfl⟩
    · obtain ⟨nonneg, before⟩ := kept.probes t member
      omega
  · rw [if_neg (by rw [starts]; decide), last]
    refine ⟨kept.probes, kept.spacedProbes, ?_⟩
    rcases running with same | ended
    · rw [same]
      rcases kept.running with ended | ⟨start, member, begun, lasts⟩
      · exact .inl ended
      · exact .inr ⟨start, member, begun.trans later, lasts⟩
    · exact .inl ended

theorem Kept.call (kept : Kept w) (later : w.clock ≤ nowMs) : Kept (w.call e nowMs event) := by
  have effect := handle_effect e w.qos nowMs event
  have now : 0 ≤ nowMs := kept.started.trans (kept.updated.trans (kept.clock.trans later))
  obtain ⟨lowered, spacedLowered, pressure⟩ := kept.lowering e event later
  obtain ⟨probes, spacedProbes, running⟩ := kept.probing e event later
  refine ⟨?_, ?_, ?_, effect.networkBps kept.networkBps, effect.decodeScale kept.decodeScale, lowered, spacedLowered,
    pressure, probes, spacedProbes, running⟩
  · show 0 ≤ if event.updates then nowMs else w.updatedMs
    split
    · exact now
    · exact kept.started
  · show (if event.updates then nowMs else w.updatedMs) ≤ (w.qos.handle e nowMs event).lastUpdateMs
    rcases effect.lastUpdateMs with moved | ⟨same, other⟩
    · rw [moved]
      have := kept.updated.trans (kept.clock.trans later)
      split <;> omega
    · rw [same, other]
      exact kept.updated
  · show (w.qos.handle e nowMs event).lastUpdateMs ≤ nowMs
    rcases effect.lastUpdateMs with moved | ⟨same, -⟩
    · exact moved.le
    · rw [same]
      exact kept.clock.trans later

end

theorem Reaches.kept {w : Watched σ} (reaches : Reaches e w) : Kept w := by
  refine Runs.Reachable.invariant ?_ ?_ reaches
  · rintro _ ⟨estimator, nowMs, nonneg, rfl⟩
    exact new_kept estimator nonneg
  · rintro v _ kept ⟨⟨nowMs, event⟩, -, later, rfl⟩
    exact kept.call e event later

/-- The rate after an update. -/
theorem Kept.update {w : Watched σ} {nowMs : Int} (kept : Kept w) (later : w.clock ≤ nowMs) (queueMs : Int) :
    let before := w.qos.budget
    let after := (w.qos.update e nowMs queueMs).budget
    (after.networkBps : ℚ) ≤ before.networkBps + riseBps before.networkBps (nowMs - w.updatedMs) ∨
      nowMs < w.qos.recoveryProbeUntilMs ∧ after.networkBps = kRecoveryProbeBps := by
  intro before after
  have eased := updateLimits_eased e w.qos nowMs queueMs
  have low := eased.minNetworkBps kept.networkBps.1
  have positive : 0 ≤ (w.qos.updateLimits e nowMs queueMs).budget.networkBps :=
    (by decide : 0 ≤ kMinNetworkBps).trans low
  have since : w.updatedMs ≤ (w.qos.updateLimits e nowMs queueMs).lastUpdateMs := by
    rw [eased.lastUpdateMs]
    exact kept.updated
  have updated : (w.qos.updateLimits e nowMs queueMs).lastUpdateMs ≤ nowMs := by
    rw [eased.lastUpdateMs]
    exact kept.clock.trans later
  obtain ⟨increase, rise⟩ := increaseBps_le positive eased.networkBps since updated
  rcases updateRate_rise e _ nowMs low increase with limited | ⟨probing, probed⟩
  · left
    have limited' : (after.networkBps : ℚ) ≤ ((w.qos.updateLimits e nowMs queueMs).budget.networkBps +
        (w.qos.updateLimits e nowMs queueMs).increaseBps nowMs : Int) := by exact_mod_cast limited
    have same : ((w.qos.updateLimits e nowMs queueMs).budget.networkBps : ℚ) ≤ before.networkBps := by
      exact_mod_cast eased.networkBps
    push_cast at limited'
    linarith
  · right
    refine ⟨?_, probed⟩
    rcases eased.recoveryProbeUntilMs with same | ended
    · rwa [same] at probing
    · have now : 0 ≤ nowMs := kept.started.trans (kept.updated.trans (kept.clock.trans later))
      omega

/-- In every run: recovery probes are at least eight seconds apart and last at most three, the scale is in range and
lowered at most once a second, rejected telemetry changes nothing, and every update leaves a rate in range that rose
no more than it may and is divided without a rest. -/
theorem rate_budget {w : Watched σ} (reaches : Reaches e w) :
    Spaced 8000 w.probes ∧ Spaced 1000 w.lowered ∧ w.qos.budget.decodeScale ∈ Set.Icc (1 / 4) 1 ∧
    ∀ nowMs, w.clock ≤ nowMs →
      (nowMs < w.qos.recoveryProbeUntilMs → ∃ start ∈ w.probes, start ≤ nowMs ∧ nowMs < start + 3000) ∧
      (∀ t, (w.qos.onTelemetry e t nowMs).1 = false → (w.qos.onTelemetry e t nowMs).2 = w.qos) ∧
      ∀ queueMs,
        let before := w.qos.budget
        let after := (w.qos.update e nowMs queueMs).budget
        after.networkBps ∈ Set.Icc kMinNetworkBps kDefaultMaxNetworkBitrateBps ∧
        ((after.networkBps : ℚ) ≤ before.networkBps + riseBps before.networkBps (nowMs - w.updatedMs) ∨
          nowMs < w.qos.recoveryProbeUntilMs ∧ after.networkBps = kRecoveryProbeBps) ∧
        after.audioBps + after.videoBps = ⌊(after.networkBps * 85 / 100 : ℚ)⌋ ∧ 0 < after.audioBps ∧
        0 < after.videoBps := by
  have kept := reaches.kept
  refine ⟨kept.spacedProbes, kept.spacedLowered, kept.decodeScale, fun nowMs later => ⟨?_, ?_, ?_⟩⟩
  · intro probing
    rcases kept.running with ended | ⟨start, member, begun, lasts⟩
    · have now : 0 ≤ nowMs := kept.started.trans (kept.updated.trans (kept.clock.trans later))
      omega
    · exact ⟨start, member, begun.trans later, lasts ▸ probing⟩
  · exact fun t rejected => onTelemetry_rejected e rejected
  · intro queueMs before after
    have inRange := updateRate_mem e (w.qos.updateLimits e nowMs queueMs) nowMs
    exact ⟨inRange, kept.update e later queueMs, updateShares_sum _ nowMs inRange.1⟩

/-- An estimator that gives up most of its rate when much is lost. -/
def lossy : Estimator Int where
  setSendBitrate _ bps _ := bps
  updateReceiverEstimate bps _ _ := bps
  updatePacketsLost bps lost expected _ := if expected < 10 * lost then bps / 8 else bps
  updateRtt bps _ _ := bps
  updatePropagationRtt bps _ _ := bps
  updateEstimate bps _ := bps
  targetBps bps := max 64000 bps
  target_ge _ := le_max_left _ _

/-- Half of the packets are lost, and three seconds later a key frame does not pass. -/
def blocked : Watched Int :=
  (((new kInitialNetworkBps 0).call lossy 1000 (.receiverReport 50 100 20)).call lossy 1000 (.update 0)).call lossy
    4000 .keyFrameBlocked

theorem blocked_reaches : Reaches lossy blocked :=
  have first : Reaches lossy (new kInitialNetworkBps 0) := .start ⟨kInitialNetworkBps, 0, le_rfl, rfl⟩
  ((first.then (1000, .receiverReport 50 100 20) ⟨by decide, rfl⟩).then (1000, .update 0) ⟨le_rfl, rfl⟩).then
    (4000, .keyFrameBlocked) ⟨by decide, rfl⟩

theorem rate_budget_probes :
    blocked.probes = [4000] ∧ blocked.qos.budget.networkBps = 375000 ∧
      (blocked.qos.update lossy 5000 0).budget.networkBps = kRecoveryProbeBps ∧
      Spaced 8000 blocked.probes ∧
      (blocked.qos.update lossy 5000 0).budget.audioBps + (blocked.qos.update lossy 5000 0).budget.videoBps =
        ⌊((blocked.qos.update lossy 5000 0).budget.networkBps * 85 / 100 : ℚ)⌋ :=
  ⟨by decide +kernel, by decide +kernel, by decide +kernel, (rate_budget lossy blocked_reaches).1,
    (((rate_budget lossy blocked_reaches).2.2.2 5000 (by decide +kernel)).2.2 0).2.2.1⟩

end Watched

end MiniRtc.Web.WebQosController
