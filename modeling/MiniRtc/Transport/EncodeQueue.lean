import MiniRtc.Transport.VideoSender

/-! The threads around the video sender: the application, the worker of the encode queue, the
output of the encoders and the feedback of the viewer. An event is one region of a lock, or one
step between two of them; everything else may happen in between.
The log is not in the source. It has what the requests and the frames came to, the newest first. -/
namespace MiniRtc.Transport

inductive QueuedTask where
  | encode (task : EncodeTask)
  | updateVideoSettings (settings : VideoSettings)
deriving DecidableEq, Repr

/-- How far the worker of the encode queue has come with a task. -/
inductive Worker where
  | idle
  | current (task : EncodeTask)
  | ready (task : EncodeTask)
  | prepared (task : EncodeTask)
  | creating (settings : VideoSettings) (encoders : List (String × MediaCodec))
  | installing (settings : VideoSettings) (prepared : List PreparedEncoder)
deriving DecidableEq, Repr

/-- A call of `OnVideoEncoded`. -/
structure EncodedCall where
  channelName : String
  frame : EncodedFrame
  settingsGeneration : Nat
deriving DecidableEq, Repr

inductive Entry where
  | requested (channelNames : List String)
  | forced (channelName : String)
  | marked (channelName : String)
  | discarded (channelName : String) (frame : EncodedFrame) (requested : Bool)
  | accepted (channelName : String) (frame : EncodedFrame) (budget : Nat)
  | passed (channelName : String) (frame : EncodedFrame)
  | installed (channelName : String)
deriving DecidableEq, Repr

/-- The calls are those between two regions: `entered` before the check of an encoded frame and
`checked` after it, `found` and `snapshots` between the lookup of a request and the request. -/
structure VideoWorld where
  controller : IceTransportController := {}
  queue : List QueuedTask := []
  worker : Worker := .idle
  entered : List EncodedCall := []
  checked : List EncodedCall := []
  found : List String := []
  snapshots : List (List String) := []
  log : List Entry := []

inductive VideoEvent where
  | addVideoSendChannel (channelName : String) (ssrc : BitVec 32)
  | createStreamCodec (channelName : String) (codec : MediaCodec)
  | stop
  | setMediaTransportReady (ready : Bool)
  | setTransportBitrate (bps : Int)
  | adapt (channelName : String) (adaptation : Adaptation) (targetWidth targetHeight : Option Int)
      (desiredTargetBitrate : Option Int)
  | fullIntraRequest (channelName : String)
  | findSsrc (mediaSsrc : BitVec 32)
  | requestFound (i : Nat)
  | requestSnapshot (i : Nat)
  | sendVideo (channelName : String) (admission : IceTransportController.Admission)
  | startTask
  | checkReady
  | prepareFrame (materializes scales : Bool)
  | forceIdr (succeeds : Bool)
  | createEncoders (created : Option (List PreparedEncoder))
  | installEncoders (nowMs : Int)
  | enterEncoded (call : EncodedCall)
  | checkEncoded (i : Nat) (nowMs : Int)
  | passEncoded (i : Nat)
  | setVideoSendPaused (paused posted : Bool)
  | updateVideoResolution (width height : Int)
  | updateVideoSettings (settings : VideoSettings)

namespace VideoWorld
open IceTransportController

/-- A controller that was just created, with its configuration. -/
def Created (w : VideoWorld) : Prop :=
  ∃ mediaConfig videoQuality, w = { controller := { mediaConfig, videoQuality } }

/-- The names of the streams are looked up; an empty list is kept for the first stream. -/
def fullIntraRequestAll (w : VideoWorld) : VideoWorld :=
  { w with snapshots := w.snapshots ++ [w.controller.channelNames] }

/-- `FullIntraRequest` of a channel: an empty name stands for all of them. -/
def fullIntraRequest (w : VideoWorld) (channelName : String) : VideoWorld :=
  if channelName = "" then w.fullIntraRequestAll
  else
    { w with
      controller := w.controller.requestChannel channelName
      log := .requested [channelName] :: w.log }

def startTask (w : VideoWorld) : VideoWorld :=
  if w.worker ≠ .idle then w
  else
    match w.queue with
    | [] => w
    | .encode task :: queue =>
      let w := { w with queue }
      if w.controller.isRunning = false ∨ w.controller.videoSendPaused then w
      else
        match w.controller.streamSenders.find task.channelName with
        | none => w
        | some c =>
          if c.videoSettingsGeneration ≠ task.settingsGeneration then w
          else { w with worker := .current task }
    | .updateVideoSettings settings :: queue =>
      let w := { w with queue }
      if w.controller.isRunning = false ∨ w.controller.hasSettings settings then w
      else { w with worker := .creating settings w.controller.encoders }

/-- The transport may be gone since the admission. -/
def checkReady (w : VideoWorld) : VideoWorld :=
  match w.worker with
  | .current task =>
    if w.controller.mediaTransportReady then { w with worker := .ready task }
    else fullIntraRequest { w with worker := .idle } task.channelName
  | _ => w

def needsScaling (task : EncodeTask) : Bool :=
  0 < task.targetWidth && 0 < task.targetHeight &&
    (task.targetWidth < task.frame.width || task.targetHeight < task.frame.height)

def needsMaterializing (codec : MediaCodec) (task : EncodeTask) : Bool :=
  task.frame.native.any fun type => needsScaling task || !codec.nativeTypes.contains type

/-- Whether a frame can be given to the encoder of its stream, where `materializes` and `scales`
are the results of `MaterializeNativeFrame` and `ResolutionDowngrade`. -/
def frameReady (w : VideoWorld) (task : EncodeTask) (materializes scales : Bool) : Bool :=
  ((w.controller.streamSenders.find task.channelName).bind StreamContext.codec).any fun codec =>
    (!needsMaterializing codec task || materializes) && (!needsScaling task || scales)

def prepareFrame (w : VideoWorld) (materializes scales : Bool) : VideoWorld :=
  match w.worker with
  | .ready task =>
    if w.frameReady task materializes scales then { w with worker := .prepared task }
    else { w with worker := .idle }
  | _ => w

/-- `ForceIdr`, if the frame carries a request, and `Encode`. -/
def forceIdr (w : VideoWorld) (succeeds : Bool) : VideoWorld :=
  match w.worker with
  | .prepared task =>
    let w := { w with worker := .idle }
    if task.forceIFrame = false then w
    else if succeeds then { w with log := .forced task.channelName :: w.log }
    else { w with controller := w.controller.requestChannel task.channelName }
  | _ => w

def createEncoders (w : VideoWorld) (created : Option (List PreparedEncoder)) : VideoWorld :=
  match w.worker, created with
  | .creating settings encoders, some prepared =>
    if prepared.map (fun p => (p.name, p.previous)) = encoders then
      { w with worker := .installing settings prepared }
    else w
  | .creating _ _, none => { w with worker := .idle }
  | _, _ => w

def installEncoders (w : VideoWorld) (nowMs : Int) : VideoWorld :=
  match w.worker with
  | .installing settings prepared =>
    let w := { w with worker := .idle }
    if w.controller.isRunning = false ∨ w.controller.stillPrepared prepared = false then w
    else
      let controller := { w.controller with
        mediaConfig := { w.controller.mediaConfig with
          maxFrameRate := settings.frameRate
          videoDegradationPreference := settings.preference }
        videoQuality := settings.quality }
      { w with
        controller := controller.installEncoders nowMs prepared
        log := .requested (prepared.map PreparedEncoder.name) ::
          (prepared.map fun p => .installed p.name) ++ w.log }
  | _ => w

/-- The callback of the encoder, up to the check. -/
def enterEncoded (w : VideoWorld) (call : EncodedCall) : VideoWorld :=
  let current := (w.controller.streamSenders.find call.channelName).any fun c =>
    c.videoSettingsGeneration = call.settingsGeneration
  if w.controller.isRunning = false ∨ current = false then w
  else if w.controller.mediaTransportReady then { w with entered := w.entered ++ [call] }
  else w.fullIntraRequest call.channelName

def checkEncoded (r : Resolutions) (w : VideoWorld) (i : Nat) (nowMs : Int) : VideoWorld :=
  match w.entered[i]? with
  | none => w
  | some call =>
    let (result, controller) := IceTransportController.checkEncoded r w.controller call.channelName
      call.frame call.settingsGeneration nowMs
    let w := { w with controller, entered := w.entered.eraseIdx i }
    match result with
    | .refused _ => w
    | .unreferenced => { w with log := .requested [call.channelName] :: w.log }
    | .discarded =>
      let requested := decide (call.channelName ∈ controller.forceIFrameStreams)
      { w with log := .requested [call.channelName] ::
          .discarded call.channelName call.frame requested :: w.log }
    | .accepted budget =>
      { w with
        checked := w.checked ++ [call]
        log := .accepted call.channelName call.frame budget :: w.log }

def passEncoded (w : VideoWorld) (i : Nat) : VideoWorld :=
  match w.checked[i]? with
  | none => w
  | some call =>
    let w := { w with checked := w.checked.eraseIdx i }
    if w.controller.passEncoded call.channelName call.settingsGeneration then
      { w with log := .passed call.channelName call.frame :: w.log }
    else w

def sendVideo (r : Resolutions) (w : VideoWorld) (channelName : String) (admission : Admission) :
    VideoWorld :=
  match IceTransportController.sendVideo r w.controller channelName admission w.queue.length with
  | (.refused _, controller) => { w with controller }
  | (.posted task budgetFailure, controller) =>
    { w with
      controller
      queue := w.queue ++ [.encode task]
      log := if budgetFailure then .marked channelName :: w.log else w.log }

def apply (r : Resolutions) (w : VideoWorld) : VideoEvent → VideoWorld
  | .addVideoSendChannel channelName ssrc =>
    let streamSenders := w.controller.streamSenders.emplace channelName { ssrc }
    { w with controller := { w.controller with streamSenders } }
  | .createStreamCodec channelName codec =>
    match w.controller.streamSenders.find channelName with
    | some c =>
      if c.codec = none then
        let c := { c with codec := some codec, desiredTargetBitrate := none }
        { w with controller := w.controller.setContext channelName c }
      else w
    | none => w
  | .stop => { w with controller := { w.controller with isRunning := false } }
  | .setMediaTransportReady ready =>
    { w with controller := { w.controller with mediaTransportReady := ready } }
  | .setTransportBitrate bps =>
    { w with controller := { w.controller with videoTransportBitrateBps := bps } }
  | .adapt channelName adaptation targetWidth targetHeight desiredTargetBitrate =>
    match w.controller.streamSenders.find channelName with
    | some c =>
      let c := { c with adaptation, targetWidth, targetHeight, desiredTargetBitrate }
      { w with controller := w.controller.setContext channelName c }
    | none => w
  | .fullIntraRequest channelName => w.fullIntraRequest channelName
  | .findSsrc mediaSsrc =>
    if mediaSsrc = 0 then w.fullIntraRequestAll
    else
      match w.controller.channelOf mediaSsrc with
      | some channelName => if channelName = "" then w else { w with found := w.found ++ [channelName] }
      | none => w
  | .requestFound i =>
    match w.found[i]? with
    | some channelName => fullIntraRequest { w with found := w.found.eraseIdx i } channelName
    | none => w
  | .requestSnapshot i =>
    match w.snapshots[i]? with
    | some channelNames =>
      { w with
        controller := w.controller.requestAll channelNames
        snapshots := w.snapshots.eraseIdx i
        log := .requested channelNames :: w.log }
    | none => w
  | .sendVideo channelName admission => w.sendVideo r channelName admission
  | .startTask => w.startTask
  | .checkReady => w.checkReady
  | .prepareFrame materializes scales => w.prepareFrame materializes scales
  | .forceIdr succeeds => w.forceIdr succeeds
  | .createEncoders created => w.createEncoders created
  | .installEncoders nowMs => w.installEncoders nowMs
  | .enterEncoded call => w.enterEncoded call
  | .checkEncoded i nowMs => w.checkEncoded r i nowMs
  | .passEncoded i => w.passEncoded i
  | .setVideoSendPaused paused posted =>
    let controller := (w.controller.setVideoSendPaused paused posted).2
    let resumed := w.controller.videoSendPaused && !controller.videoSendPaused
    { w with
      controller
      log := if resumed then .requested w.controller.channelNames :: w.log else w.log }
  | .updateVideoResolution width height =>
    let (code, controller) := w.controller.updateVideoResolution width height
    { w with
      controller
      log := if code = 0 then .requested w.controller.channelNames :: w.log else w.log }
  | .updateVideoSettings settings =>
    if w.controller.isRunning = false ∨ w.controller.hasSettings settings then w
    else { w with queue := w.queue ++ [.updateVideoSettings settings] }

def run (r : Resolutions) (w : VideoWorld) (events : List VideoEvent) : VideoWorld :=
  events.foldl (VideoWorld.apply r) w

/-- Sizes to run the model with: low bitrates ask for half the size. -/
def plainSizes : Resolutions where
  fitVideoResolution width height _ _ := (width, height)
  getResolution bitrate width height := if bitrate < 100000 then some (width / 2, height / 2) else none
  getStartupResolution _ _ := none
  retryResolution width height _ _ _ _ := (width, height)

end VideoWorld

end MiniRtc.Transport
