import MiniRtc.Lib.SortedMap

/-! The video sender of `IceTransportController` (ice_transport_controller.cpp): the admission
of captured frames, the tasks of the encode queue, the check of what the encoder hands out, and
the requests for key frames. Each function below is what one region of a lock does.
The sizes that come out of floating point, and the answers of the parts that only decide
whether a frame is admitted, are arguments. -/
namespace MiniRtc.Transport

inductive MiniRtcVideoContentType where
  | realtimeVideo
  | screenContent
deriving DecidableEq, Repr

inductive MiniRtcVideoDegradationPreference where
  | maintainFrameRate
  | maintainResolution
  | balanced
deriving DecidableEq, Repr

structure MediaCodecConfig where
  videoContentType : MiniRtcVideoContentType := .realtimeVideo
  videoDegradationPreference : MiniRtcVideoDegradationPreference := .balanced
  maxFrameRate : Int := 60
deriving DecidableEq, Repr

def usesBoundedVideoQueue (config : MediaCodecConfig) : Bool :=
  config.videoContentType = .screenContent &&
    config.videoDegradationPreference ≠ .maintainResolution

def kDesktopKeyFrameBudgetMs : Int := 180
def kStartupKeyFrameBudgetMs : Int := 600
def kStartupKeyFrameMaxBytes : Int := 128 * 1024
def kStartupKeyFrameTimeoutMs : Int := 1500
def kMaxPayloadSize : Int := 1150
def kBalancedFrameRate : Int := 30

structure EncodedFrame where
  key : Bool
  size : Nat
  capturedTimestamp : Int
  encodedWidth : Int := 0
  encodedHeight : Int := 0
deriving DecidableEq, Repr

/-- A captured frame; a native one has the type of its buffer. -/
structure RawFrame where
  width : Int
  height : Int
  native : Option Nat := none
  capturedTimestamp : Int := 0
deriving DecidableEq, Repr

/-- A codec object, and the native buffers it takes. -/
structure MediaCodec where
  id : Nat
  nativeTypes : List Nat := []
deriving DecidableEq, Repr

/-- What the adaptation to bandwidth and load keeps for a stream, as far as the key frame
budget reads it. `qpHealthy` stands for a smoothed quantizer between 0 and 0.6. -/
structure Adaptation where
  resolutionUpgradeProbeActive : Bool := false
  resolutionUpgradeProbeBaseWidth : Int := 0
  resolutionUpgradeProbeBaseHeight : Int := 0
  resolutionUpgradeNetworkBlocked : Bool := false
  encodedFrameRateReady : Bool := false
  measuredEncodedFrameRate : Int := 0
  encodedFrameRateHealthySinceMs : Int := 0
  lastResolutionChangeMs : Int := 0
  encodeQueueDelayWindowReady : Bool := false
  p95EncodeQueueDelayMs : Int := 0
  qpHealthy : Bool := false
deriving DecidableEq, Repr

namespace Adaptation

def clearResolutionUpgradeProbe (a : Adaptation) : Adaptation :=
  { a with
    resolutionUpgradeProbeActive := false
    resolutionUpgradeProbeBaseWidth := 0
    resolutionUpgradeProbeBaseHeight := 0 }

/-- `ResetEncodedFrameRateTracking`, `ResetEncoderQualityTracking` and
`ResetEncodeQueueDelayTracking`, which always go together. -/
def resetTracking (a : Adaptation) : Adaptation :=
  { a with
    encodedFrameRateReady := false
    measuredEncodedFrameRate := 0
    encodedFrameRateHealthySinceMs := 0
    encodeQueueDelayWindowReady := false
    p95EncodeQueueDelayMs := 0
    qpHealthy := false }

end Adaptation

structure StreamContext where
  ssrc : BitVec 32
  codec : Option MediaCodec := none
  targetWidth : Option Int := none
  targetHeight : Option Int := none
  sourceWidth : Int := 0
  sourceHeight : Int := 0
  lastCaptureTime : Option Int := none
  desiredTargetBitrate : Option Int := none
  startupResolutionAttempted : Bool := false
  startupKeyframePending : Bool := false
  startupKeyframeRetryCount : Nat := 0
  startupKeyframeStartedMs : Int := 0
  regularKeyframeSizeBudgetBytes : Nat := 0
  keyframeSizeBudgetBytes : Nat := 0
  awaitingBudgetKeyframe : Bool := false
  keyframeBudgetRetryCount : Nat := 0
  discardedKeyframeCaptureUs : Int := 0
  keyframeSameResolutionRetry : Bool := false
  videoSettingsGeneration : Nat := 0
  adaptation : Adaptation := {}
deriving DecidableEq, Repr

def StreamContext.finishStartupKeyframe (c : StreamContext) : StreamContext :=
  { c with
    startupKeyframePending := false
    keyframeSizeBudgetBytes := c.regularKeyframeSizeBudgetBytes }

/-- The sizes that the resolution adapter and `FitVideoResolution` compute. -/
structure Resolutions where
  fitVideoResolution : Int → Int → Int → Int → Int × Int
  getResolution : Int → Int → Int → Option (Int × Int)
  getStartupResolution : Int → Int → Option (Int × Int)
  /-- The size to retry at: from the encoded size, the budget, the size of the frame, whether
  it is the first overshoot, and whether it is the retry of the startup. -/
  retryResolution : Int → Int → Nat → Nat → Bool → Bool → Int × Int

/-- The settings that `UpdateVideoSettings` asks for. -/
structure VideoSettings where
  quality : Nat
  frameRate : Int
  preference : MiniRtcVideoDegradationPreference
deriving DecidableEq, Repr

/-- An encoder that `UpdateVideoSettings` prepares, and the size it chose. -/
structure PreparedEncoder where
  name : String
  previous : MediaCodec
  codec : MediaCodec
  width : Int := 0
  height : Int := 0
deriving DecidableEq, Repr

structure IceTransportController where
  isRunning : Bool := true
  mediaTransportReady : Bool := false
  videoSendPaused : Bool := false
  mediaConfig : MediaCodecConfig := {}
  videoQuality : Nat := 0
  videoResolutionWidth : Int := 0
  videoResolutionHeight : Int := 0
  videoTransportBitrateBps : Int := 0
  bForceIFrame : Bool := true
  forceIFrameStreams : Finset String := ∅
  streamSenders : SortedMap String StreamContext := SortedMap.empty

/-- A frame that was admitted, on its way to the encoder. -/
structure EncodeTask where
  channelName : String
  forceIFrame : Bool
  targetWidth : Int
  targetHeight : Int
  settingsGeneration : Nat
  frame : RawFrame
deriving DecidableEq, Repr

namespace IceTransportController

def setContext (s : IceTransportController) (channelName : String) (c : StreamContext) :
    IceTransportController :=
  { s with streamSenders := s.streamSenders.update channelName c }

def channelNames (s : IceTransportController) : List String := s.streamSenders.entries.map Prod.fst

/-! ### Requests -/

/-- `FullIntraRequest` of a channel by a caller that holds the lock of the senders, or of a
channel that has a name. -/
def requestChannel (s : IceTransportController) (channelName : String) : IceTransportController :=
  { s with forceIFrameStreams := insert channelName s.forceIFrameStreams }

/-- What `FullIntraRequestAllVideoStreams` does with the names that it found. -/
def requestAll (s : IceTransportController) (channelNames : List String) : IceTransportController :=
  if channelNames = [] then { s with bForceIFrame := true }
  else { s with forceIFrameStreams := s.forceIFrameStreams ∪ channelNames.toFinset }

/-- The channel that `FullIntraRequest` finds for an SSRC. -/
def channelOf (s : IceTransportController) (mediaSsrc : BitVec 32) : Option String :=
  (s.streamSenders.entries.find? fun e => e.2.ssrc = mediaSsrc).map Prod.fst

/-! ### Key frame budgets -/

/-- `PrepareStartupKeyframe`: whether the startup is going on, the context, and
`force_keyframe`. -/
def prepareStartupKeyframe (r : Resolutions) (config : MediaCodecConfig) (c : StreamContext)
    (frameBitrate nowMs : Int) (forceKeyframe : Bool) : Bool × StreamContext × Bool :=
  let frameBitrate := max 1 frameBitrate
  let regular := (max kMaxPayloadSize ((frameBitrate * kDesktopKeyFrameBudgetMs).tdiv 8000)).toNat
  let c := { c with
    regularKeyframeSizeBudgetBytes := regular
    keyframeSizeBudgetBytes := regular }
  let startup : Option (Int × Int) :=
    if c.startupResolutionAttempted = false ∧ config.videoContentType = .screenContent ∧
        config.videoDegradationPreference = .balanced ∧
        c.adaptation.resolutionUpgradeNetworkBlocked = false then
      r.getStartupResolution c.sourceWidth c.sourceHeight
    else none
  let c := { c with startupResolutionAttempted := true }
  let (c, forceKeyframe) := match startup with
    | some (width, height) =>
      ({ c with
        targetWidth := some width
        targetHeight := some height
        startupKeyframePending := true
        startupKeyframeStartedMs := nowMs
        awaitingBudgetKeyframe := true }, true)
    | none => (c, forceKeyframe)
  if c.startupKeyframePending = false then (false, c, forceKeyframe)
  else if c.adaptation.resolutionUpgradeNetworkBlocked ∨
      kStartupKeyFrameTimeoutMs ≤ nowMs - c.startupKeyframeStartedMs then
    (false, c.finishStartupKeyframe, true)
  else
    let budget := (min kStartupKeyFrameMaxBytes
      ((frameBitrate * kStartupKeyFrameBudgetMs).tdiv 8000)).toNat
    (true, { c with keyframeSizeBudgetBytes := max c.regularKeyframeSizeBudgetBytes budget },
      forceKeyframe)

/-- A trial of a larger size ends either way, with a longer wait for the next one or without. -/
def noteKeyframeBudgetFailure (c : StreamContext) (retryWidth retryHeight : Int) : StreamContext :=
  let width := min retryWidth (c.targetWidth.getD c.sourceWidth)
  let height := min retryHeight (c.targetHeight.getD c.sourceHeight)
  let probing := c.adaptation.resolutionUpgradeProbeActive
  { c with
    targetWidth := some (if probing then min width c.adaptation.resolutionUpgradeProbeBaseWidth else width)
    targetHeight :=
      some (if probing then min height c.adaptation.resolutionUpgradeProbeBaseHeight else height)
    adaptation := c.adaptation.clearResolutionUpgradeProbe
    keyframeSameResolutionRetry := false
    awaitingBudgetKeyframe := true }

/-! ### Admission of captured frames -/

/-- A captured frame with the answers of the clock, the cadence of the frames and the pacer. -/
structure Admission where
  frame : RawFrame
  capturedTimestamp : BitVec 64 := 0
  nowMs : Int := 0
  nowUs : Int := 0
  cadenceAccepts : Bool := true
  pacerCongested : Bool := false

/-- The frame goes to the encode queue, or the function returns before. -/
inductive Admitted where
  | refused (code : Int)
  | posted (task : EncodeTask) (budgetFailure : Bool)
deriving DecidableEq, Repr

/-- The size of the frame is new: the adaptation starts again. -/
def changeSource (c : StreamContext) (width height : Int) : StreamContext :=
  if c.sourceWidth ≤ 0 ∨ c.sourceHeight ≤ 0 ∨ c.sourceWidth ≠ width ∨ c.sourceHeight ≠ height then
    let c := if c.startupKeyframePending then c.finishStartupKeyframe else c
    { c with
      sourceWidth := width
      sourceHeight := height
      keyframeSameResolutionRetry := false
      adaptation := c.adaptation.clearResolutionUpgradeProbe.resetTracking }
  else c

/-- The streams that share the bitrate: this one and those that captured lately. -/
def videoCount (s : IceTransportController) (channelName : String) (nowMs : Int) : Nat :=
  (s.streamSenders.entries.filter fun e => e.2.codec.isSome &&
    (e.1 = channelName || e.2.lastCaptureTime.any fun time => nowMs - time < 100)).length

/-- The part of `SendVideo` for a bounded queue: the context, `force_i_frame`, and whether
`NoteKeyframeBudgetFailure` was called. -/
def limitKeyframe (r : Resolutions) (s : IceTransportController) (channelName : String)
    (c : StreamContext) (nowMs : Int) (forceIFrame : Bool) : StreamContext × Bool × Bool :=
  let streamBitrate := s.videoTransportBitrateBps.tdiv (max 1 (s.videoCount channelName nowMs))
  let frameBitrate := max 1 (min streamBitrate (c.desiredTargetBitrate.getD streamBitrate))
  let (startupKeyframe, c, forceIFrame) :=
    prepareStartupKeyframe r s.mediaConfig c frameBitrate nowMs forceIFrame
  if startupKeyframe = false ∧ forceIFrame then
    match r.getResolution frameBitrate c.sourceWidth c.sourceHeight with
    | some (width, height) =>
      if width < c.targetWidth.getD c.sourceWidth ∧ height < c.targetHeight.getD c.sourceHeight then
        let c := noteKeyframeBudgetFailure c width height
        ({ c with adaptation := { c.adaptation.resetTracking with lastResolutionChangeMs := nowMs } },
          forceIFrame, true)
      else (c, forceIFrame, false)
    | none => (c, forceIFrame, false)
  else (c, forceIFrame, false)

/-- The part of `SendVideo` behind its checks: the frame is known to be accepted, and takes the
requests with it. -/
def admitFrame (r : Resolutions) (s : IceTransportController) (channelName : String)
    (c : StreamContext) (a : Admission) : EncodeTask × Bool × IceTransportController :=
  let (sourceWidth, sourceHeight) := r.fitVideoResolution a.frame.width a.frame.height
    s.videoResolutionWidth s.videoResolutionHeight
  let c := changeSource c sourceWidth sourceHeight
  let forceIFrame := s.bForceIFrame || decide (channelName ∈ s.forceIFrameStreams)
  let s := { s with
    bForceIFrame := false
    forceIFrameStreams := s.forceIFrameStreams.erase channelName }
  let (c, forceIFrame, budgetFailure) :=
    if usesBoundedVideoQueue s.mediaConfig then limitKeyframe r s channelName c a.nowMs forceIFrame
    else (c, forceIFrame, false)
  let (targetWidth, targetHeight) := r.fitVideoResolution sourceWidth sourceHeight
    (c.targetWidth.getD sourceWidth) (c.targetHeight.getD sourceHeight)
  let task : EncodeTask := {
    channelName
    forceIFrame
    targetWidth
    targetHeight
    settingsGeneration := c.videoSettingsGeneration
    frame := { a.frame with capturedTimestamp :=
      if a.capturedTimestamp ≠ 0 then a.capturedTimestamp.toInt else a.nowUs } }
  (task, budgetFailure, s.setContext channelName c)

/-- `SendVideo` with a valid frame; the queue has `pendingTasks` waiting. -/
def sendVideo (r : Resolutions) (s : IceTransportController) (channelName : String)
    (a : Admission) (pendingTasks : Nat) : Admitted × IceTransportController :=
  if s.isRunning = false then (.refused (-1), s)
  else
    match s.streamSenders.find channelName with
    | none => (.refused (-1), s)
    | some c =>
      if c.codec = none then (.refused (-1), s)
      else if s.videoSendPaused then (.refused 0, s)
      else
        let c := { c with lastCaptureTime := some a.nowMs }
        let s := s.setContext channelName c
        if c.desiredTargetBitrate.any fun bitrate => bitrate ≤ 0 then (.refused 0, s)
        else if s.mediaTransportReady = false then (.refused 0, s)
        else if a.cadenceAccepts = false then (.refused 0, s)
        else if s.mediaConfig.videoContentType = .screenContent ∧ a.pacerCongested then (.refused 0, s)
        else if 0 < pendingTasks then (.refused 0, s)
        else
          let (task, budgetFailure, s) := admitFrame r s channelName c a
          (.posted task budgetFailure, s)

/-! ### Encoder output -/

/-- What becomes of an encoded frame in the first region of `OnVideoEncoded`. -/
inductive Checked where
  | refused (code : Int)
  | unreferenced
  | discarded
  | accepted (budget : Nat)
deriving DecidableEq, Repr

/-- One more key frame of the same size is asked for, once, where the size has proved healthy. -/
def retrySameResolution (config : MediaCodecConfig) (c : StreamContext) (frame : EncodedFrame)
    (budget : Nat) (nowMs : Int) : Bool :=
  config.videoDegradationPreference = .balanced && config.videoContentType = .screenContent &&
    !c.adaptation.resolutionUpgradeProbeActive && !c.awaitingBudgetKeyframe &&
    !c.adaptation.resolutionUpgradeNetworkBlocked && c.keyframeBudgetRetryCount = 0 &&
    c.targetWidth = some frame.encodedWidth && c.targetHeight = some frame.encodedHeight &&
    c.adaptation.encodedFrameRateReady &&
    kBalancedFrameRate ≤ c.adaptation.measuredEncodedFrameRate &&
    0 < c.adaptation.encodedFrameRateHealthySinceMs &&
    2000 ≤ nowMs - c.adaptation.encodedFrameRateHealthySinceMs &&
    2000 ≤ nowMs - c.adaptation.lastResolutionChangeMs &&
    c.adaptation.encodeQueueDelayWindowReady && c.adaptation.p95EncodeQueueDelayMs ≤ 33 &&
    c.adaptation.qpHealthy && 4 * frame.size ≤ 5 * budget

/-- A key frame over the budget: the context afterwards. -/
def discardKeyframe (r : Resolutions) (config : MediaCodecConfig) (c : StreamContext)
    (frame : EncodedFrame) (nowMs : Int) : StreamContext :=
  let (startupRetry, c) :=
    if c.startupKeyframePending then
      let c := { c with startupKeyframeRetryCount := c.startupKeyframeRetryCount + 1 }
      if c.startupKeyframeRetryCount = 1 then (true, c) else (false, c.finishStartupKeyframe)
    else (false, c)
  let budget := c.keyframeSizeBudgetBytes
  let discarded := max c.discardedKeyframeCaptureUs frame.capturedTimestamp
  if retrySameResolution config c frame budget nowMs then
    { c with
      keyframeSameResolutionRetry := true
      keyframeBudgetRetryCount := 1
      awaitingBudgetKeyframe := true
      discardedKeyframeCaptureUs := discarded }
  else
    let (width, height) := r.retryResolution frame.encodedWidth frame.encodedHeight budget frame.size
      (c.keyframeBudgetRetryCount = 0) startupRetry
    let c := noteKeyframeBudgetFailure { c with
      keyframeBudgetRetryCount := min 1000 (c.keyframeBudgetRetryCount + 1) } width height
    { c with
      adaptation := { c.adaptation.resetTracking with lastResolutionChangeMs := nowMs }
      discardedKeyframeCaptureUs := discarded }

/-- The startup is over once it takes too long or the network is blocked. -/
def expireStartup (c : StreamContext) (nowMs : Int) : StreamContext :=
  if c.startupKeyframePending ∧ (c.adaptation.resolutionUpgradeNetworkBlocked ∨
      kStartupKeyFrameTimeoutMs ≤ nowMs - c.startupKeyframeStartedMs) then c.finishStartupKeyframe
  else c

def acceptKeyframe (c : StreamContext) : StreamContext :=
  let c := if c.startupKeyframePending then c.finishStartupKeyframe else c
  { c with
    awaitingBudgetKeyframe := false
    keyframeSameResolutionRetry := false
    keyframeBudgetRetryCount := 0 }

/-- The region of `OnVideoEncoded` that holds the lock alone. -/
def checkEncoded (r : Resolutions) (s : IceTransportController) (channelName : String)
    (frame : EncodedFrame) (settingsGeneration : Nat) (nowMs : Int) :
    Checked × IceTransportController :=
  if s.videoSendPaused then (.refused 0, s)
  else
    match s.streamSenders.find channelName with
    | none => (.refused (-1), s)
    | some c =>
      if c.videoSettingsGeneration ≠ settingsGeneration then (.refused (-1), s)
      else if 0 < c.discardedKeyframeCaptureUs ∧ 0 < frame.capturedTimestamp ∧
          frame.capturedTimestamp ≤ c.discardedKeyframeCaptureUs then (.refused 0, s)
      else
        let c := expireStartup c nowMs
        let budget := c.keyframeSizeBudgetBytes
        if 0 < budget ∧ frame.key ∧ budget < frame.size then
          (.discarded,
            (s.setContext channelName (discardKeyframe r s.mediaConfig c frame nowMs)).requestChannel
              channelName)
        else if c.awaitingBudgetKeyframe ∧ frame.key = false then
          (.unreferenced, (s.setContext channelName c).requestChannel channelName)
        else
          (.accepted budget,
            s.setContext channelName (if frame.key then acceptKeyframe c else c))

/-- The region of `OnVideoEncoded` that hands the frame to the transceiver: whether it does. -/
def passEncoded (s : IceTransportController) (channelName : String) (settingsGeneration : Nat) :
    Bool :=
  s.isRunning && !s.videoSendPaused &&
    (s.streamSenders.find channelName).any fun c => c.videoSettingsGeneration = settingsGeneration

/-! ### Settings -/

def setVideoSendPaused (s : IceTransportController) (paused posted : Bool) :
    Int × IceTransportController :=
  if s.isRunning = false then (-1, s)
  else if s.videoSendPaused = paused then (0, s)
  else if posted = false then (-1, s)
  else
    let s := { s with
      videoSendPaused := paused
      streamSenders := s.streamSenders.mapValues fun _ c => { c with
        videoSettingsGeneration := c.videoSettingsGeneration + 1
        adaptation := if paused then c.adaptation else c.adaptation.resetTracking } }
    (0, if paused then s
      else { s with forceIFrameStreams := s.forceIFrameStreams ∪ s.channelNames.toFinset })

def updateVideoResolution (s : IceTransportController) (width height : Int) :
    Int × IceTransportController :=
  if s.isRunning = false ∨ ¬ ((width = 0 ∧ height = 0) ∨
      (2 ≤ width ∧ 2 ≤ height ∧ width ≤ 16384 ∧ height ≤ 16384)) then (-1, s)
  else
    let changed : Bool := s.videoResolutionWidth ≠ width || s.videoResolutionHeight ≠ height
    (0, { s with
      videoResolutionWidth := width
      videoResolutionHeight := height
      streamSenders := s.streamSenders.mapValues fun _ c =>
        if changed then { c with
          videoSettingsGeneration := c.videoSettingsGeneration + 1
          sourceWidth := 0
          sourceHeight := 0
          targetWidth := none
          targetHeight := none }
        else c
      forceIFrameStreams := s.forceIFrameStreams ∪ s.channelNames.toFinset })

def hasSettings (s : IceTransportController) (v : VideoSettings) : Bool :=
  s.videoQuality = v.quality && s.mediaConfig.maxFrameRate = v.frameRate &&
    s.mediaConfig.videoDegradationPreference = v.preference

/-- The streams that get a new encoder. -/
def encoders (s : IceTransportController) : List (String × MediaCodec) :=
  s.streamSenders.entries.filterMap fun e => e.2.codec.map fun codec => (e.1, codec)

def installEncoder (c : StreamContext) (p : PreparedEncoder) (nowMs : Int) : StreamContext :=
  { c with
    codec := some p.codec
    videoSettingsGeneration := c.videoSettingsGeneration + 1
    targetWidth := if 0 < p.width ∧ 0 < p.height then some p.width else c.targetWidth
    targetHeight := if 0 < p.width ∧ 0 < p.height then some p.height else c.targetHeight
    keyframeSameResolutionRetry := false
    startupKeyframePending := false
    adaptation := { c.adaptation.clearResolutionUpgradeProbe.resetTracking with
      lastResolutionChangeMs := nowMs
      resolutionUpgradeNetworkBlocked := false }
    awaitingBudgetKeyframe := false
    keyframeBudgetRetryCount := 0
    discardedKeyframeCaptureUs := 0
    keyframeSizeBudgetBytes := 0
    regularKeyframeSizeBudgetBytes := 0 }

/-- The loop of `UpdateVideoSettings` over the prepared encoders. -/
def installEncoders (s : IceTransportController) (nowMs : Int) :
    List PreparedEncoder → IceTransportController
  | [] => s
  | p :: rest =>
    let s := match s.streamSenders.find p.name with
      | some c => (s.setContext p.name (installEncoder c p nowMs)).requestChannel p.name
      | none => s
    installEncoders s nowMs rest

/-- Every prepared encoder replaces the one that its stream still has. -/
def stillPrepared (s : IceTransportController) (prepared : List PreparedEncoder) : Bool :=
  prepared.all fun p => (s.streamSenders.find p.name).any fun c => c.codec = some p.previous

end IceTransportController

end MiniRtc.Transport
