import MiniRtc.Lib.Runs
import MiniRtc.Video.Receiver

/-! `RtpVideoReceiver` and its threads.
Packet insertions, key frame requests and the worker that runs `Process` take turns at
the boundaries of the regions of `nack_mtx_` and `pending_frames_mtx_`; what follows a
region without a lock belongs to it. An insertion holds `frame_assembly_mtx_` from
`ProcessH264RtpPacket` or `ProcessAv1RtpPacket` to its end. -/
namespace MiniRtc.Video
open Wrapping Rtp Runs

/-- Where `Process` stands. -/
inductive Worker where
  | idle
  | looping (timing : FrameRecoveryTiming)
  | dropping (timing : FrameRecoveryTiming) (stamp : Int) (timedOut : Bool)
deriving DecidableEq, Repr

structure System (P : Type) where
  receiver : Receiver P := {}
  insertions : List (Insertion P) := []
  worker : Worker := .idle
  /-- The numbers of all media and padding packets that came in. -/
  received : List Int := []

inductive Action where
  | arrive (media : MediaPacket) (recovered : Bool)
  | region (index : Nat) (wait : Nat) (now : Int)
  | processNacks (now : Int)
  | nackBatchSent (batch : List Int) (successful : Bool) (now : Int)
  | rttUpdate (rttMs : Int)
  | requestKeyFrame
  | tick
  | turn (now : Int)
  | drop

variable {P : Type}

def Insertion.assembles (i : Insertion P) : Bool :=
  match i.phase with
  | .assemble _ => true
  | _ => false

def Insertion.commits (i : Insertion P) : Bool :=
  match i.phase with
  | .commit _ => true
  | _ => false

namespace System

/-- Is `frame_assembly_mtx_` held? -/
def assembling (s : System P) : Bool := s.insertions.any Insertion.commits

def setNack (s : System P) (nack : NackRequester) : System P :=
  { s with receiver := { s.receiver with nack } }

/-- The worker after a verdict. -/
def workerAfter (timing : FrameRecoveryTiming) (stamp : Int) : Receiver.Verdict → Worker
  | .olderThanDecoded | .newerKeyframe | .dropDelta => .dropping timing stamp false
  | .timeout => .dropping timing stamp true
  | .deliverKeyframe | .deliver => .looping timing
  | .escalate | .requestFir | .wait => .idle

/-- The insertion at an index goes on or ends. -/
def replace (insertions : List (Insertion P)) (index : Nat) :
    Option (Insertion P) → List (Insertion P)
  | none => insertions.eraseIdx index
  | some i => insertions.set index i

/-- One action, or `none` where it is not the action's turn. -/
def step (cfg : Config P) (s : System P) : Action → Option (System P)
  | .arrive media recovered =>
    match startInsertion cfg media recovered with
    | none => some s
    | some i =>
      some { s with insertions := s.insertions ++ [i], received := media.number :: s.received }
  | .region index wait now =>
    match s.insertions[index]? with
    | none => none
    | some i =>
      if i.assembles && s.assembling then none
      else
        let (receiver, next) := advance cfg s.receiver i wait now
        some { s with receiver, insertions := replace s.insertions index next }
  | .processNacks now =>
    some (if cfg.rtxEnabled then s.setNack (s.receiver.nack.processNacks now).2 else s)
  | .nackBatchSent batch successful now =>
    some (s.setNack (s.receiver.nack.onNackBatchSent batch successful now))
  | .rttUpdate rttMs =>
    some (if cfg.rtxEnabled then s.setNack (s.receiver.nack.updateRtt rttMs) else s)
  | .requestKeyFrame => some { s with receiver := s.receiver.requestKeyFrame }
  | .tick =>
    match s.worker with
    | .idle =>
      some { s with worker := .looping (frameRecoveryTiming cfg.rtxEnabled s.receiver.nack) }
    | _ => none
  | .turn now =>
    match s.worker with
    | .looping timing =>
      match s.receiver.pendingFrames with
      | [] => some { s with worker := .idle }
      | (stamp, head) :: rest =>
        let verdict := s.receiver.judge timing (roundMs now) stamp head rest
        some { s with
          receiver := s.receiver.execute stamp head rest verdict
          worker := workerAfter timing stamp verdict }
    | _ => none
  | .drop =>
    match s.worker with
    | .dropping timing stamp timedOut =>
      if s.assembling then none
      else some { s with
        receiver := { s.receiver with
          assembly := s.receiver.assembly.dropFrameAssembly cfg.codec.toCodec (rtp stamp) }
        worker := if timedOut then .idle else .looping timing }
    | _ => none

def Moves (cfg : Config P) (s : System P) (a : Action) (t : System P) : Prop := s.step cfg a = some t

/-- A receiver before its first packet. -/
def Starts (s : System P) : Prop := s = {}

/-- The timestamps that are alive. -/
def stamps (s : System P) : List Int :=
  s.receiver.pendingFrames.map Prod.fst ++ s.receiver.lastCompleteFrameTs.toList ++
    s.receiver.lastDiscardedFrameTs.toList ++ s.insertions.map fun i => i.media.stamp

/-- All of them lie within half the range. -/
def InWindow (s : System P) : Prop := ∀ x ∈ s.stamps, ∀ y ∈ s.stamps, Near 32 x y

instance (s : System P) : Decidable s.InWindow :=
  inferInstanceAs (Decidable (∀ x ∈ s.stamps, ∀ y ∈ s.stamps, Near 32 x y))

end System

end MiniRtc.Video
