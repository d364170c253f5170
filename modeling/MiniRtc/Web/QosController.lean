import Mathlib.Data.Rat.Floor
import Mathlib.Tactic

/-! The rate budget of a browser's peer (web_qos_controller.cpp). Real arithmetic is exact; a time of -1 stands
for never, as in the source, whose clock does not give negative times. The loss and delay estimator is a
parameter. -/
namespace MiniRtc.Web

def kMinNetworkBps : Int := 64000
def kFallbackBps : Int := 500000
def kRecoveryProbeBps : Int := 1000000
def kDefaultMaxNetworkBitrateBps : Int := 20000000
def kMaxFrameRate : Int := 60
def kInitialNetworkBps : Int := 3000000

/-- `webrtc::SendSideBandwidthEstimation`, whatever it does; no rate stands for an infinite one. -/
structure Estimator (σ : Type) where
  setSendBitrate : σ → (bps nowMs : Int) → σ
  updateReceiverEstimate : σ → (nowMs : Int) → (bps : Option Int) → σ
  updatePacketsLost : σ → (lost expected nowMs : Int) → σ
  updateRtt : σ → (rttMs nowMs : Int) → σ
  updatePropagationRtt : σ → (nowMs rttMs : Int) → σ
  updateEstimate : σ → (nowMs : Int) → σ
  targetBps : σ → Int
  target_ge : ∀ s, 64000 ≤ targetBps s

/-- The fields of the budget that the controller reads or writes. -/
structure WebQosController.Budget where
  networkBps : Int := kInitialNetworkBps
  receiverBps : Int := 0
  videoBps : Int := 2454000
  audioBps : Int := 96000
  maxFps : Int := 30
  decodeScale : ℚ := 1
  lossRatio : ℚ := 0
  rttMs : Int := 0
  feedbackAgeMs : Int := 0

structure WebQosController (σ : Type) where
  estimator : σ
  budget : WebQosController.Budget := {}
  startedMs : Int
  lastFeedbackMs : Int
  lastReportMs : Int := -1
  lastRembMs : Int := -1
  lastUpdateMs : Int
  lastBackoffMs : Int := -1
  lastPressureMs : Int := -1
  lastTelemetryMs : Int := -1
  previousJitterMs : ℚ := 0
  jitterPressureSinceMs : Int := -1
  rttPressureSinceMs : Int := -1
  minRttMs : Int := 0
  probeFloorBps : Int := 0
  healthySinceMs : Int := -1
  lastProbeMs : Int := -1
  lastDecodeProgressMs : Int := -1
  lastLossMs : Int := -1
  queuePressureSinceMs : Int := -1
  sendWindowMs : Int := 0
  sentBytes : BitVec 64 := 0
  applicationLimited : Bool := false
  acknowledgedBps : Int := 0
  lastReceivedRateMs : Int := -1
  lastPacketFeedbackMs : Int := -1
  lastRecoveryProbeMs : Int := -1
  recoveryProbeUntilMs : Int := -1

namespace WebQosController

variable {σ : Type} (e : Estimator σ)

/-- A new controller; the estimator's bounds have been set. -/
def new (estimator : σ) (nowMs : Int) : WebQosController σ where
  estimator := estimator
  startedMs := nowMs
  lastFeedbackMs := nowMs
  lastUpdateMs := nowMs

def start (q : WebQosController σ) (nowMs : Int) : WebQosController σ :=
  { q with
    startedMs := nowMs
    lastFeedbackMs := nowMs
    lastUpdateMs := nowMs
    sendWindowMs := nowMs
    sentBytes := 0
    applicationLimited := false }

def onPacketSent (q : WebQosController σ) (bytes : BitVec 64) : WebQosController σ :=
  { q with sentBytes := q.sentBytes + bytes }

/-- None of the early returns of `OnKeyFrameBlocked`. -/
def startsProbe (q : WebQosController σ) (nowMs : Int) : Prop :=
  ¬(0 ≤ q.lastPacketFeedbackMs ∧ nowMs - q.lastPacketFeedbackMs < 3000) ∧
    ¬(0 ≤ q.lastRecoveryProbeMs ∧ nowMs - q.lastRecoveryProbeMs < 8000) ∧
    ¬kRecoveryProbeBps ≤ q.budget.networkBps

instance (q : WebQosController σ) (nowMs : Int) : Decidable (q.startsProbe nowMs) :=
  inferInstanceAs (Decidable (_ ∧ _))

def onKeyFrameBlocked (q : WebQosController σ) (nowMs : Int) : WebQosController σ :=
  if q.startsProbe nowMs then
    { q with
      lastRecoveryProbeMs := nowMs
      recoveryProbeUntilMs := nowMs + 3000
      estimator := e.setSendBitrate q.estimator kRecoveryProbeBps nowMs }
  else q

def clamp (value low high : Int) : Int := if value < low then low else if high < value then high else value

def applyReceiverLimit (q : WebQosController σ) (nowMs : Int) : WebQosController σ :=
  if q.lastRembMs < 0 then q
  else
    let bps := clamp (max q.budget.receiverBps (max q.probeFloorBps q.acknowledgedBps)) kMinNetworkBps
      kDefaultMaxNetworkBitrateBps
    { q with estimator := e.updateReceiverEstimate q.estimator nowMs (some bps) }

/-- Little was sent, or what was sent has arrived, and nothing else points to congestion. -/
def sparseHealthyMedia (q : WebQosController σ) (nowMs : Int) : Prop :=
  let deliveryConfirmed := 0 ≤ q.lastReceivedRateMs ∧ nowMs - q.lastReceivedRateMs ≤ 2000 ∧
    (q.budget.networkBps * 65 / 100 : ℚ) ≤ q.acknowledgedBps
  (q.applicationLimited ∨ deliveryConfirmed) ∧ q.budget.lossRatio ≤ 2 / 100 ∧
    0 ≤ q.lastDecodeProgressMs ∧ nowMs - q.lastDecodeProgressMs < 1500 ∧
    (q.lastLossMs < 0 ∨ 3000 ≤ nowMs - q.lastLossMs) ∧ (q.lastBackoffMs < 0 ∨ 3000 ≤ nowMs - q.lastBackoffMs)

instance (q : WebQosController σ) (nowMs : Int) : Decidable (q.sparseHealthyMedia nowMs) :=
  inferInstanceAs (Decidable (_ ∧ _))

/-- An estimate of sparse media keeps the rate, and a much lower one gives up what was probed. -/
def receiverFloor (q : WebQosController σ) (bitrateBps nowMs : Int) : WebQosController σ :=
  if q.sparseHealthyMedia nowMs ∧ bitrateBps < q.budget.networkBps then
    { q with probeFloorBps := max q.probeFloorBps q.budget.networkBps }
  else if 0 < q.budget.receiverBps ∧ (bitrateBps : ℚ) < q.budget.receiverBps * 80 / 100 then
    { q with healthySinceMs := -1, probeFloorBps := 0 }
  else q

def onReceiverEstimate (q : WebQosController σ) (bitrateBps nowMs : Int) : WebQosController σ :=
  if bitrateBps ≤ 0 then q
  else
    let q := q.receiverFloor bitrateBps nowMs
    applyReceiverLimit e
      { q with
        budget := { q.budget with receiverBps := bitrateBps }
        lastFeedbackMs := nowMs
        lastRembMs := nowMs } nowMs

def resetProbe (q : WebQosController σ) : WebQosController σ :=
  { q with
    healthySinceMs := -1
    probeFloorBps := 0
    acknowledgedBps := 0
    recoveryProbeUntilMs := -1 }

/-- The rate is lowered with the estimator's. -/
def lowerRate (q : WebQosController σ) (factor : ℚ) (nowMs : Int) : WebQosController σ :=
  let estimator := e.setSendBitrate q.estimator (max kMinNetworkBps ⌊q.budget.networkBps * factor⌋) nowMs
  { q with
    lastBackoffMs := nowMs
    estimator
    budget := { q.budget with networkBps := min q.budget.networkBps (e.targetBps estimator) } }

def backOff (q : WebQosController σ) (factor : ℚ) (nowMs : Int) : WebQosController σ :=
  let q := q.resetProbe
  if 0 ≤ q.lastBackoffMs ∧ nowMs - q.lastBackoffMs < 1000 then q else q.lowerRate e factor nowMs

/-- Loss ends what is probed. -/
def lossAt (q : WebQosController σ) (nowMs : Int) : WebQosController σ := { q.resetProbe with lastLossMs := nowMs }

def measureLoss (q : WebQosController σ) (lost expected nowMs : Int) : WebQosController σ :=
  { q with
    lastPacketFeedbackMs := nowMs
    budget := { q.budget with lossRatio := (lost : ℚ) / expected } }

/-- The loss of `UpdateNetworkFeedback`. -/
def updateLoss (q : WebQosController σ) (lost expected nowMs : Int) : WebQosController σ :=
  if 0 < expected ∧ expected ≤ 1000000 then
    let lost := clamp lost 0 expected
    let q := q.measureLoss lost expected nowMs
    let q := if 2 / 100 < q.budget.lossRatio then q.lossAt nowMs else q
    { q with estimator := e.updatePacketsLost q.estimator lost expected nowMs }
  else q

def noteRttPressure (q : WebQosController σ) (nowMs : Int) : WebQosController σ :=
  if q.rttPressureSinceMs < 0 then { q with rttPressureSinceMs := nowMs } else q

/-- A round trip time that has grown for a second backs off. -/
def rttPressure (q : WebQosController σ) (rttMs nowMs : Int) : WebQosController σ :=
  if q.minRttMs + 100 < rttMs ∧ (q.minRttMs * 150 / 100 : ℚ) < rttMs then
    let q := q.noteRttPressure nowMs
    if 1000 ≤ nowMs - q.rttPressureSinceMs then q.backOff e (85 / 100) nowMs else q
  else { q with rttPressureSinceMs := -1 }

def measureRtt (q : WebQosController σ) (rttMs : Int) : WebQosController σ :=
  { q with minRttMs := if q.minRttMs ≠ 0 then min q.minRttMs rttMs else rttMs }

/-- The round trip time of `UpdateNetworkFeedback`. -/
def updateRtt (q : WebQosController σ) (rttMs nowMs : Int) : WebQosController σ :=
  if 0 < rttMs ∧ rttMs ≤ 10000 then
    let q := (q.measureRtt rttMs).rttPressure e rttMs nowMs
    { q with
      budget := { q.budget with rttMs := rttMs }
      estimator := e.updatePropagationRtt (e.updateRtt q.estimator rttMs nowMs) nowMs rttMs }
  else q

def updateNetworkFeedback (q : WebQosController σ) (lost expected rttMs nowMs : Int) : WebQosController σ :=
  updateRtt e (updateLoss e { q with lastFeedbackMs := nowMs } lost expected nowMs) rttMs nowMs

def onReceiverReport (q : WebQosController σ) (lost expected rttMs nowMs : Int) : WebQosController σ :=
  updateNetworkFeedback e { q with lastReportMs := nowMs } lost expected rttMs nowMs

/-- A report of the browser; a double that is not finite is none. -/
structure Telemetry where
  lost : Int
  expected : Int
  rttMs : Int
  jitterBufferMs : Option ℚ
  decodeMs : Option ℚ
  fps : Option ℚ
  frozen : Bool
  receivedBps : Int := 0

/-- The measured doubles, if the report is in range. -/
def Telemetry.accepted (t : Telemetry) : Option (ℚ × ℚ × ℚ) :=
  if t.expected < 0 ∨ 1000000 < t.expected ∨ t.lost < 0 ∨ t.expected < t.lost ∨ t.rttMs < 0 ∨ 10000 < t.rttMs ∨
      t.receivedBps < 0 ∨ 200000000 < t.receivedBps then none
  else do
    let jitterBufferMs ← t.jitterBufferMs
    let decodeMs ← t.decodeMs
    let fps ← t.fps
    if jitterBufferMs < 0 ∨ 10000 < jitterBufferMs ∨ decodeMs < 0 ∨ 10000 < decodeMs ∨ fps < 0 ∨ 1000 < fps then none
    else return (jitterBufferMs, decodeMs, fps)

/-- The loss of a report counts if there is no other report of it. -/
def telemetryFeedback (q : WebQosController σ) (t : Telemetry) (nowMs : Int) : WebQosController σ :=
  if q.lastReportMs < 0 ∨ 2500 < nowMs - q.lastReportMs then
    q.updateNetworkFeedback e t.lost t.expected t.rttMs nowMs
  else q

/-- The loss of a report. -/
def telemetryLoss (q : WebQosController σ) (t : Telemetry) (nowMs : Int) : WebQosController σ :=
  let q := { q with
    lastFeedbackMs := nowMs
    lastPacketFeedbackMs := if 0 < t.expected then nowMs else q.lastPacketFeedbackMs }
  if 0 < t.expected ∧ (t.expected * 2 / 100 : ℚ) < t.lost then q.lossAt nowMs else q

/-- The rate that a report confirms. -/
def telemetryRate (q : WebQosController σ) (t : Telemetry) (nowMs : Int) : WebQosController σ :=
  if 0 < t.receivedBps ∧ 0 < t.expected ∧ (t.lost : ℚ) ≤ t.expected * 2 / 100 ∧ q.budget.lossRatio ≤ 2 / 100 ∧
      (q.minRttMs = 0 ∨ q.budget.rttMs ≤ q.minRttMs + 50) ∧ (q.lastLossMs < 0 ∨ 3000 ≤ nowMs - q.lastLossMs) then
    if q.acknowledgedBps ≤ t.receivedBps ∨ q.lastReceivedRateMs < 0 ∨ 2000 < nowMs - q.lastReceivedRateMs then
      { q with acknowledgedBps := t.receivedBps, lastReceivedRateMs := nowMs }
    else q
  else q

/-- The time since which the jitter buffer grows. -/
def telemetryJitter (q : WebQosController σ) (excessBufferMs : ℚ) (nowMs : Int) : WebQosController σ :=
  let growingBuffer := 100 < excessBufferMs ∧ q.previousJitterMs + 20 < excessBufferMs
  if ¬growingBuffer ∨ q.lastTelemetryMs < 0 ∨ 1500 < nowMs - q.lastTelemetryMs then
    { q with jitterPressureSinceMs := -1 }
  else if q.jitterPressureSinceMs < 0 then { q with jitterPressureSinceMs := nowMs }
  else q

def decodeProgress (q : WebQosController σ) (fps : ℚ) (nowMs : Int) : WebQosController σ :=
  if 0 < fps then { q with lastDecodeProgressMs := nowMs } else q

/-- The receiver decodes without loss and without a growing delay. -/
def healthy (q : WebQosController σ) (t : Telemetry) (slowDecode sustainedBufferGrowth : Bool) (nowMs : Int) : Prop :=
  ¬t.frozen ∧ ¬slowDecode ∧ ¬sustainedBufferGrowth ∧ 0 ≤ q.lastDecodeProgressMs ∧
    nowMs - q.lastDecodeProgressMs < 1500 ∧ (t.lost : ℚ) ≤ t.expected * 2 / 100 ∧ q.budget.lossRatio ≤ 2 / 100 ∧
    (q.minRttMs = 0 ∨ q.budget.rttMs ≤ q.minRttMs + 50)

instance (q : WebQosController σ) (t : Telemetry) (slowDecode sustainedBufferGrowth : Bool) (nowMs : Int) :
    Decidable (q.healthy t slowDecode sustainedBufferGrowth nowMs) :=
  inferInstanceAs (Decidable (_ ∧ _))

/-- The rate that a healthy receiver keeps, if little was sent or a probe is running. -/
def telemetryFloor (q : WebQosController σ) (t : Telemetry) (healthy : Bool) (nowMs : Int) : WebQosController σ :=
  if healthy ∧ (q.applicationLimited ∨ nowMs < q.recoveryProbeUntilMs) ∧ 0 < t.expected ∧
      (q.lastLossMs < 0 ∨ 3000 ≤ nowMs - q.lastLossMs) ∧ (q.lastBackoffMs < 0 ∨ 3000 ≤ nowMs - q.lastBackoffMs) then
    { q with probeFloorBps := max q.probeFloorBps q.budget.networkBps }
  else q

/-- The time since which the receiver is healthy. -/
def telemetryHealth (q : WebQosController σ) (healthy : Bool) (nowMs : Int) : WebQosController σ :=
  if ¬healthy then { q with healthySinceMs := -1 }
  else if q.healthySinceMs < 0 then { q with healthySinceMs := nowMs }
  else q

/-- The scale is lowered, which is not done more often than once a second. -/
def lowerScale (q : WebQosController σ) (nowMs : Int) : WebQosController σ :=
  { q with
    budget := { q.budget with decodeScale := max (1 / 4) (q.budget.decodeScale * (3 / 4)) }
    lastPressureMs := nowMs }

def telemetryScale (q : WebQosController σ) (frozen slowDecode sustainedBufferGrowth : Bool) (nowMs : Int) :
    WebQosController σ :=
  if slowDecode ∧ (q.lastPressureMs < 0 ∨ 1000 ≤ nowMs - q.lastPressureMs) then q.lowerScale nowMs
  else if ¬slowDecode ∧ ¬frozen ∧ ¬sustainedBufferGrowth ∧ (q.lastPressureMs < 0 ∨ 5000 < nowMs - q.lastPressureMs) ∧
      (q.lastTelemetryMs < 0 ∨ 500 ≤ nowMs - q.lastTelemetryMs) then
    { q with budget := { q.budget with decodeScale := min 1 (q.budget.decodeScale + 25 / 1000) } }
  else q

def noteTelemetry (q : WebQosController σ) (excessBufferMs : ℚ) (nowMs : Int) : WebQosController σ :=
  { q with previousJitterMs := excessBufferMs, lastTelemetryMs := nowMs }

def onTelemetry (q : WebQosController σ) (t : Telemetry) (nowMs : Int) : Bool × WebQosController σ :=
  match t.accepted with
  | none => (false, q)
  | some (jitterBufferMs, decodeMs, fps) =>
    let excessBufferMs := max 0 (jitterBufferMs - 1000 / max 5 fps)
    let q := ((q.telemetryFeedback e t nowMs).telemetryLoss t nowMs).telemetryRate t nowMs
    let q := telemetryJitter q excessBufferMs nowMs
    let sustainedBufferGrowth := decide (0 ≤ q.jitterPressureSinceMs ∧ 1500 ≤ nowMs - q.jitterPressureSinceMs)
    let slowDecode := decide (5 ≤ fps ∧ 750 < decodeMs * fps)
    let q := decodeProgress q fps nowMs
    let healthy := decide (q.healthy t slowDecode sustainedBufferGrowth nowMs)
    let q := telemetryFloor q t healthy nowMs
    let q := telemetryHealth q healthy nowMs
    let q := telemetryScale q t.frozen slowDecode sustainedBufferGrowth nowMs
    (true, q.noteTelemetry excessBufferMs nowMs)

/-! The parts of `Update`. -/

def updateWindow (q : WebQosController σ) (nowMs queueMs : Int) : WebQosController σ :=
  if 1000 ≤ nowMs - q.sendWindowMs then
    let sentBps := q.sentBytes * 8000 / BitVec.ofInt 64 (nowMs - q.sendWindowMs)
    { q with
      applicationLimited := decide ((sentBps.toNat : ℚ) < q.budget.networkBps * 65 / 100 ∧ queueMs < 50)
      sentBytes := 0
      sendWindowMs := nowMs }
  else q

/-- The age of the feedback, and what has been confirmed too long ago. -/
def updateAge (q : WebQosController σ) (nowMs : Int) : WebQosController σ :=
  { q with
    budget := { q.budget with feedbackAgeMs := max 0 (nowMs - q.lastFeedbackMs) }
    acknowledgedBps :=
      if 2 / 100 < q.budget.lossRatio ∨ q.lastReceivedRateMs < 0 ∨ 2000 < nowMs - q.lastReceivedRateMs then 0
      else q.acknowledgedBps }

/-- An old receiver estimate is dropped. -/
def updateRemb (q : WebQosController σ) (nowMs : Int) : WebQosController σ :=
  if 0 ≤ q.lastRembMs ∧ 5000 < nowMs - q.lastRembMs then
    { q with estimator := e.updateReceiverEstimate q.estimator nowMs none, lastRembMs := -1 }
  else q

/-- The time since which the local queue is long. -/
def queuePressure (q : WebQosController σ) (nowMs queueMs : Int) : WebQosController σ :=
  if queueMs ≤ 150 then { q with queuePressureSinceMs := -1 }
  else if q.queuePressureSinceMs < 0 then { q with queuePressureSinceMs := nowMs }
  else q

def updateQueue (q : WebQosController σ) (nowMs : Int) : WebQosController σ :=
  if 0 ≤ q.queuePressureSinceMs ∧ 1000 ≤ nowMs - q.queuePressureSinceMs ∧
      (q.lastPressureMs < 0 ∨ 1000 ≤ nowMs - q.lastPressureMs) then
    q.lowerScale nowMs
  else q

def canProbe (q : WebQosController σ) (nowMs : Int) : Prop :=
  0 ≤ q.healthySinceMs ∧ 3000 ≤ nowMs - q.healthySinceMs ∧ 0 ≤ q.lastTelemetryMs ∧
    nowMs - q.lastTelemetryMs ≤ 1500 ∧ (¬q.applicationLimited ∨ q.budget.networkBps < kInitialNetworkBps) ∧
    (q.lastBackoffMs < 0 ∨ 3000 ≤ nowMs - q.lastBackoffMs)

instance (q : WebQosController σ) (nowMs : Int) : Decidable (q.canProbe nowMs) :=
  inferInstanceAs (Decidable (_ ∧ _))

/-- Missing feedback or loss gives up what was probed. -/
def updateFloor (q : WebQosController σ) : WebQosController σ :=
  if 1500 < q.budget.feedbackAgeMs ∨ 2 / 100 < q.budget.lossRatio then { q with probeFloorBps := 0 } else q

/-- A healthy receiver is offered a little more, once a second. -/
def updateProbe (q : WebQosController σ) (nowMs : Int) : WebQosController σ :=
  if q.canProbe nowMs ∧ (q.lastProbeMs < 0 ∨ 1000 ≤ nowMs - q.lastProbeMs) then
    { q with probeFloorBps := ⌊(q.budget.networkBps * 108 / 100 : ℚ)⌋ + 8000, lastProbeMs := nowMs }
  else q

/-- The rate that the estimator allows, without feedback no more than the fallback. -/
def desiredBps (q : WebQosController σ) (nowMs : Int) : Int :=
  let desired := e.targetBps q.estimator
  if 5000 < q.budget.feedbackAgeMs ∨
      (q.lastRembMs < 0 ∧ q.lastReportMs < 0 ∧ q.lastTelemetryMs < 0 ∧ 2000 < nowMs - q.startedMs) then
    min desired kFallbackBps
  else desired

/-- What a rate may rise by in the time since the last update. -/
def increaseBps (q : WebQosController σ) (nowMs : Int) : Int :=
  let seconds : ℚ := max 0 (min 1 ((nowMs - q.lastUpdateMs : Int) / 1000))
  ⌊(q.budget.networkBps * 15 / 100 + 10000) * seconds⌋

def updateRate (q : WebQosController σ) (nowMs : Int) : WebQosController σ :=
  let desired := q.desiredBps e nowMs
  let recoveryProbe := nowMs < q.recoveryProbeUntilMs
  let desired := if recoveryProbe then max desired kRecoveryProbeBps else desired
  let networkBps := clamp (min desired (q.budget.networkBps + q.increaseBps nowMs)) kMinNetworkBps
    kDefaultMaxNetworkBitrateBps
  let networkBps := if recoveryProbe then max networkBps kRecoveryProbeBps else networkBps
  { q with budget := { q.budget with networkBps } }

/-- The parts of the rate, and the frames that go with them. -/
def updateShares (q : WebQosController σ) (nowMs : Int) : WebQosController σ :=
  let networkBps := q.budget.networkBps
  let audioBps := min 96000 (networkBps * 2 / 5)
  let videoBps := max 16000 (⌊(networkBps * 85 / 100 : ℚ)⌋ - audioBps)
  let maxFps := if videoBps < 250000 then 10 else if videoBps < 700000 then 20 else if videoBps < 1800000 then 30
    else kMaxFrameRate
  let maxFps := if q.budget.decodeScale < 3 / 4 then min maxFps 30 else maxFps
  { q with
    budget := { q.budget with audioBps, videoBps, maxFps }
    lastUpdateMs := nowMs }

/-- What `Update` does before it sets the rate; whether it may probe does not depend on the floor. -/
def updateLimits (q : WebQosController σ) (nowMs queueMs : Int) : WebQosController σ :=
  let q := ((q.updateWindow nowMs queueMs).updateAge nowMs).updateRemb e nowMs
  let q := (q.queuePressure nowMs queueMs).updateQueue nowMs
  let q := (q.updateFloor.updateProbe nowMs).applyReceiverLimit e nowMs
  { q with estimator := e.updateEstimate q.estimator nowMs }

def update (q : WebQosController σ) (nowMs queueMs : Int) : WebQosController σ :=
  ((q.updateLimits e nowMs queueMs).updateRate e nowMs).updateShares nowMs

end WebQosController

end MiniRtc.Web
