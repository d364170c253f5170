import MiniRtc.Rtp.Rtx
import MiniRtc.Video.Assembly
import MiniRtc.Video.Nack

/-! `RtpVideoReceiver` (rtp_video_receiver.cpp) by regions of its mutexes.
A packet insertion and the worker's `Process` are cut where they take and release
`pending_frames_mtx_` and `nack_mtx_`; between two regions anything else may run. A
timestamp is carried as an unbounded number of which the code keeps the residue `rtp`,
and `history` records what happened; no function reads it. -/
namespace MiniRtc.Video
open Wire Wrapping Rtp

/-- The timestamp in the packet. -/
abbrev rtp (t : Int) : BitVec 32 := BitVec.ofInt 32 t

/-- A media packet as it was parsed, with the unbounded numbers behind its timestamp and
sequence number. -/
structure MediaPacket where
  packet : RtpPacket
  stamp : Int
  number : Int
  built : ({} : RtpPacket).build packet.buffer = .ok packet
  stamp_eq : rtp stamp = packet.timestamp
  number_eq : seq number = packet.sequenceNumber

/-- The branches of `ProcessH264RtpPacket`; an AV1 packet is always a fragment. -/
inductive UnitKind where
  | single
  | fragment
  | other
deriving DecidableEq, Repr

structure VideoCodec (P : Type) extends Codec P where
  payloadType : PayloadType
  /-- `Build` and `GetFrameHeaderInfo` of the codec's packet class. -/
  depacketize : RtpPacket → Option P
  unitKind : P → UnitKind

structure Config (P : Type) where
  codec : VideoCodec P
  remoteSsrc : BitVec 32
  rtxSsrc : BitVec 32

def Config.rtxEnabled {P : Type} (cfg : Config P) : Bool := cfg.rtxSsrc ≠ 0

structure PendingFrame where
  frame : Option Bytes := none
  isComplete : Bool := false
  arrivalTime : Int := 0
  isKeyframe : Bool := false
  lastSequenceNumber : Option Int := none
  recoveryEscalated : Bool := false
  softFirRequested : Bool := false
  /-- How long the history was when the insertion that completed the frame began. -/
  begun : Nat := 0
  /-- The number of the first packet. -/
  firstSequenceNumber : Option Int := none
deriving DecidableEq, Repr

inductive Event where
  | committed (stamp : Int) (frame : CompleteFrame)
  | delivered (stamp : Int) (frame : PendingFrame)
  | removed (stamp : Int) (timedOut : Bool)
  | keyFrameRequested
deriving DecidableEq, Repr

structure Receiver (P : Type) where
  assembly : Assembly P := {}
  /-- `pending_frames_`, the oldest timestamp first. -/
  pendingFrames : List (Int × PendingFrame) := []
  awaitingKeyframe : Bool := false
  lastCompleteFrameTs : Option Int := none
  lastDiscardedFrameTs : Option Int := none
  nack : NackRequester := {}
  history : List Event := []

namespace Receiver

variable {P : Type}

def find (r : Receiver P) (stamp : Int) : Option PendingFrame :=
  (r.pendingFrames.find? fun e => decide (rtp e.1 = rtp stamp)).map Prod.snd

/-- Store an entry of `pending_frames_`: in its place, or before the first newer one. -/
def storeIn (stamp : Int) (entry : PendingFrame) : List (Int × PendingFrame) → List (Int × PendingFrame)
  | [] => [(stamp, entry)]
  | e :: rest =>
    if rtp e.1 = rtp stamp then (e.1, entry) :: rest
    else if aheadOf (rtp e.1) (rtp stamp) then (stamp, entry) :: e :: rest
    else e :: storeIn stamp entry rest

/-- The entry of a timestamp with one more packet. -/
def tracked (entry : PendingFrame) (number nowMs : Int) : PendingFrame :=
  let entry := if entry.arrivalTime = 0 then { entry with arrivalTime := nowMs } else entry
  match entry.lastSequenceNumber with
  | none => { entry with lastSequenceNumber := some number }
  | some last => if aheadOf (seq number) (seq last) then
      { entry with lastSequenceNumber := some number } else entry

def trackPendingFramePacket (r : Receiver P) (stamp number : Int) (nowMs : Int) : Receiver P :=
  { r with pendingFrames :=
      storeIn stamp (tracked ((r.find stamp).getD {}) number nowMs) r.pendingFrames }

/-- `CommitPendingFrame`; `number` is that of the packet that completed the frame, near
which the end of the frame lies. -/
def commitPendingFrame (r : Receiver P) (stamp number : Int) (f : CompleteFrame)
    (requireExistingEntry : Bool) (begun : Nat) (nowMs : Int) : Receiver P :=
  match r.find stamp, requireExistingEntry with
  | none, true => r
  | existing, _ =>
    let entry := existing.getD {}
    let firstArrivalTime := if entry.arrivalTime ≠ 0 then entry.arrivalTime else nowMs
    let entry : PendingFrame :=
      { frame := some f.frame
        isComplete := true
        arrivalTime := firstArrivalTime
        isKeyframe := f.isKeyframe
        lastSequenceNumber := some (extend number f.endSequenceNumber)
        begun
        firstSequenceNumber := some (extend number f.endSequenceNumber -
          (f.endSequenceNumber - f.startSequenceNumber).toNat) }
    { r with
      pendingFrames := storeIn stamp entry r.pendingFrames
      history := r.history ++ [.committed stamp f] }

/-- `RequestKeyFrame`, as far as it changes the frame state. -/
def requestKeyFrame (r : Receiver P) : Receiver P :=
  { r with awaitingKeyframe := true, history := r.history ++ [.keyFrameRequested] }

def isFrameTimestampObsolete (r : Receiver P) (stamp : Int) : Bool :=
  let alreadyCompleted := match r.lastCompleteFrameTs with
    | none => false
    | some t => !aheadOf (rtp stamp) (rtp t)
  let alreadyDiscarded := match r.lastDiscardedFrameTs with
    | none => false
    | some t => !aheadOf (rtp stamp) (rtp t)
  alreadyCompleted || alreadyDiscarded

def markFrameDiscarded (r : Receiver P) (stamp : Int) : Receiver P :=
  match r.lastDiscardedFrameTs with
  | none => { r with lastDiscardedFrameTs := some stamp }
  | some t => if aheadOf (rtp stamp) (rtp t) then { r with lastDiscardedFrameTs := some stamp } else r

/-! ### One turn of the loop in `Process` -/

/-- What a turn decides about the oldest pending frame. -/
inductive Verdict where
  | olderThanDecoded
  | newerKeyframe
  | deliverKeyframe
  | dropDelta
  | deliver
  | timeout
  | escalate
  | requestFir
  | wait
deriving DecidableEq, Repr

def hasBlockingNacks (r : Receiver P) (head : PendingFrame) : Bool :=
  match head.lastSequenceNumber with
  | some last => r.nack.hasPendingNacksUpTo last
  | none => r.nack.hasPendingNacks

def isOlderThanDecodedFrame (r : Receiver P) (stamp : Int) : Bool :=
  match r.lastCompleteFrameTs with
  | none => false
  | some t => !aheadOf (rtp stamp) (rtp t)

def newerCompleteKeyframeAvailable (r : Receiver P) (head : PendingFrame)
    (rest : List (Int × PendingFrame)) : Bool :=
  (r.awaitingKeyframe || head.recoveryEscalated) && !(head.isComplete && head.isKeyframe) &&
    rest.any fun e => e.2.isComplete && e.2.isKeyframe

/-- The conditions, in the order of the source. -/
def judge (r : Receiver P) (timing : FrameRecoveryTiming) (nowMs : Int) (stamp : Int)
    (head : PendingFrame) (rest : List (Int × PendingFrame)) : Verdict :=
  let frameAgeMs := nowMs - head.arrivalTime
  if r.isOlderThanDecodedFrame stamp then .olderThanDecoded
  else if r.newerCompleteKeyframeAvailable head rest then .newerKeyframe
  else if head.isComplete && r.awaitingKeyframe && head.isKeyframe then .deliverKeyframe
  else if head.isComplete && r.awaitingKeyframe then .dropDelta
  else if head.isComplete && !r.hasBlockingNacks head then .deliver
  else if timing.hardDeadlineMs < frameAgeMs then .timeout
  else if !head.recoveryEscalated && decide (timing.softDeadlineMs < frameAgeMs) then .escalate
  else if head.recoveryEscalated && !head.softFirRequested &&
      decide (timing.softDeadlineMs + timing.softFirConfirmationDelayMs < frameAgeMs) then .requestFir
  else .wait

def clearNacksUpTo (r : Receiver P) (last : Option Int) : Receiver P :=
  match last with
  | none => r
  | some n => { r with nack := r.nack.clearUpTo n }

/-- The effect of a verdict on the frame state. -/
def execute (r : Receiver P) (stamp : Int) (head : PendingFrame) (rest : List (Int × PendingFrame)) :
    Verdict → Receiver P
  | .olderThanDecoded | .dropDelta =>
    { r with pendingFrames := rest, history := r.history ++ [.removed stamp false] }
  | .newerKeyframe =>
    { r with
      awaitingKeyframe := true
      pendingFrames := rest
      history := r.history ++ [.removed stamp false] }
  | .deliverKeyframe =>
    { r.clearNacksUpTo head.lastSequenceNumber with
      awaitingKeyframe := false
      lastCompleteFrameTs := some stamp
      pendingFrames := rest
      history := r.history ++ [.delivered stamp head] }
  | .deliver =>
    { r with
      lastCompleteFrameTs := some stamp
      pendingFrames := rest
      history := r.history ++ [.delivered stamp head] }
  | .timeout =>
    { (r.clearNacksUpTo head.lastSequenceNumber).markFrameDiscarded stamp with
      awaitingKeyframe := true
      pendingFrames := rest
      history := r.history ++ [.removed stamp true] }
  | .escalate => { r with pendingFrames := (stamp, { head with recoveryEscalated := true }) :: rest }
  | .requestFir => { r with pendingFrames := (stamp, { head with softFirRequested := true }) :: rest }
  | .wait => r

end Receiver

/-! ### The threads -/

/-- Where a packet insertion stands. -/
inductive Phase (P : Type) where
  | check
  | retire
  | nack
  | requestKeyFrame
  | refuse
  | assemble (p : P)
  | commit (p : P)

structure Insertion (P : Type) where
  media : MediaPacket
  recovered : Bool
  padding : Bool
  phase : Phase P
  begun : Nat := 0

/-- What `InsertMediaPacket` does before its first region: RTX packets are restored. -/
def entering {P : Type} (cfg : Config P) (raw : RtpPacket) (fecRecovered : Bool) :
    Option (RtpPacket × Bool) :=
  if raw.payloadType = .rtx then
    if cfg.rtxSsrc = 0 ∨ raw.ssrc ≠ cfg.rtxSsrc then none
    else match restoreMediaPacketFromRtx cfg.remoteSsrc cfg.codec.payloadType raw {} with
      | .ok media => some (media, true)
      | .error _ => none
  else some (raw, fecRecovered)

/-- The insertion that a packet starts, if it is a media packet or padding in the media
sequence space. -/
def startInsertion {P : Type} (cfg : Config P) (media : MediaPacket) (recovered : Bool) :
    Option (Insertion P) :=
  if media.packet.payloadType = cfg.codec.payloadType then
    some { media, recovered, padding := false, phase := .check }
  else if !recovered && media.packet.payloadType = cfg.codec.payloadType - 1 &&
      media.packet.ssrc = cfg.remoteSsrc && cfg.rtxEnabled then
    some { media, recovered, padding := true, phase := .nack }
  else none

/-- Depacketizing, between the NACK region and the assembly. -/
def afterNack {P : Type} (cfg : Config P) (i : Insertion P) : Option (Insertion P) :=
  if i.padding then none
  else match cfg.codec.depacketize i.media.packet with
    | none => some { i with phase := .refuse }
    | some p => some { i with phase := .assemble p }

/-- The next region of an insertion. `wait` is the answer of the reordering histogram, `now`
the time in microseconds. -/
def advance {P : Type} (cfg : Config P) (r : Receiver P) (i : Insertion P) (wait : Nat) (now : Int) :
    Receiver P × Option (Insertion P) :=
  match i.phase with
  | .check =>
    if r.isFrameTimestampObsolete i.media.stamp then
      (r, if i.recovered then some { i with phase := .retire } else none)
    else
      let i := { i with begun := r.history.length }
      (r, if cfg.rtxEnabled then some { i with phase := .nack } else afterNack cfg i)
  | .retire => ({ r with nack := (r.nack.onReceivedPacket i.media.number true wait now).2 }, none)
  | .nack =>
    let nack := (r.nack.onReceivedPacket i.media.number i.recovered wait now).2
    let (overflow, nack) := nack.consumeKeyFrameRequest
    ({ r with nack }, if overflow then some { i with phase := .requestKeyFrame } else afterNack cfg i)
  | .requestKeyFrame => (r.requestKeyFrame, afterNack cfg i)
  | .refuse => (r.requestKeyFrame, none)
  | .assemble p =>
    match cfg.codec.unitKind p with
    | .single =>
      let f := Assembly.assembled cfg.codec.toCodec (cfg.codec.timestamp p)
        (cfg.codec.sequenceNumber p) [p]
      (r.commitPendingFrame i.media.stamp i.media.number f false i.begun (roundMs now), none)
    | .fragment =>
      let r := { r with assembly := r.assembly.store cfg.codec.toCodec p }
      (r.trackPendingFramePacket i.media.stamp i.media.number (roundMs now),
        some { i with phase := .commit p })
    | .other => (r, none)
  | .commit p =>
    let (assembly, completed) := r.assembly.checkFrameCompleted cfg.codec.toCodec p
    let r := { r with assembly }
    match completed with
    | none => (r, none)
    | some f =>
      (r.commitPendingFrame i.media.stamp i.media.number f true i.begun (roundMs now), none)

/-- An insertion that nothing interrupts; it has at most five regions. -/
def finishInsertion {P : Type} (cfg : Config P) (wait : Nat) (now : Int) :
    Nat → Receiver P × Option (Insertion P) → Receiver P
  | 0, (r, _) => r
  | _ + 1, (r, none) => r
  | turns + 1, (r, some i) => finishInsertion cfg wait now turns (advance cfg r i wait now)

/-- `InsertMediaPacket` on one thread. -/
def insertMediaPacket {P : Type} (cfg : Config P) (r : Receiver P) (media : MediaPacket)
    (recovered : Bool) (wait : Nat) (now : Int) : Receiver P :=
  finishInsertion cfg wait now 5 (r, startInsertion cfg media recovered)

end MiniRtc.Video
