import MiniRtc.Lib.Runs
import MiniRtc.Web.MediaHandler

/-! The threads around the media handler: the callers of `outgoing` and `incoming`, and the worker
that paces the packets. The worker gives its lock away around each send, so that anything may
happen between taking a packet from the queue, handing it to `send` and taking the lock again.
The log is not in the source; the newest entry comes first. -/
namespace MiniRtc.Web

/-- Where the worker is; it keeps the time of its last waking. -/
inductive PacerWorker where
  | idle
  | draining (nowMs : Int)
  | popped (packet : Packet) (nowMs : Int)
  | sending (packet : Packet) (nowMs : Int)
deriving DecidableEq

inductive MediaEntry where
  | refused (ssrc : BitVec 32) (unit : Nat)
  | discarded (packet : Packet)
  | expired (packet : Packet)
  | failed (packet : Packet)
  | handed (packet : Packet)
deriving DecidableEq

/-- Access units are numbered in the order in which they arrive. -/
structure MediaWorld where
  handler : WebMediaHandler := {}
  worker : PacerWorker := .idle
  units : Nat := 0
  log : List MediaEntry := []

inductive MediaEvent where
  | registerStream (ssrc : BitVec 32)
  | setFrameDeadline (deadlineMs : Int)
  | outgoing (messages : List Message) (nowMs : Int)
  | incoming (messages : List Message) (nowMs : Int) (affords : BitVec 32 → BitVec 16 → Bool)
  | wake (budget : Budget) (nowMs : Int)
  | drain (affords : Bool) (us : Nat)
  | hand
  | sent (failed : Bool)

namespace MediaWorld
open WebMediaHandler

/-- What `DiscardStreamPacketsLocked` takes from the queue. -/
def discards (w : MediaWorld) (ssrc : BitVec 32) : List MediaEntry :=
  (w.handler.packets.filter fun p => p.ssrc = ssrc).map .discarded

def outgoing (w : MediaWorld) (messages : List Message) (nowMs : Int) : MediaWorld :=
  match w.handler.outgoing messages nowMs w.units with
  | (.nothing, _) => w
  | (.refused ssrc, handler) =>
    { w with handler, units := w.units + 1, log := .refused ssrc w.units :: w.log }
  | (.recovered ssrc, handler) =>
    { w with
      handler
      units := w.units + 1
      log := w.discards ssrc ++ .refused ssrc w.units :: w.log }
  | (.accepted ssrc keyframe, handler) =>
    { w with
      handler
      units := w.units + 1
      log := (if keyframe then w.discards ssrc else []) ++ w.log }

/-- `RecoverLocked` for a packet that did not make it. -/
def recover (w : MediaWorld) (p : Packet) (entry : MediaEntry) : MediaWorld :=
  { w with handler := w.handler.recover p.ssrc, log := w.discards p.ssrc ++ entry :: w.log }

/-- One turn of the loop of `Run` over the queue. -/
def drain (w : MediaWorld) (affords : Bool) (us : Nat) : MediaWorld :=
  match w.worker, w.handler.packets with
  | .draining _, [] => { w with worker := .idle }
  | .draining nowMs, p :: packets =>
    let taken := { w.handler with packets, queuedBytes := w.handler.queuedBytes - p.cost }
    if p.deadlineMs ≤ nowMs then
      if p.isRepair then { w with handler := taken, log := .expired p :: w.log }
      else w.recover p (.expired p)
    else if affords = false then { w with worker := .idle }
    else if p.isRepair then { w with handler := taken, worker := .popped p nowMs }
    else
      let (p, handler) := taken.departs p nowMs us
      { w with handler, worker := .popped p nowMs }
  | _, _ => w

def hand (w : MediaWorld) : MediaWorld :=
  match w.worker with
  | .popped p nowMs => { w with worker := .sending p nowMs, log := .handed p :: w.log }
  | _ => w

def sent (w : MediaWorld) (failed : Bool) : MediaWorld :=
  match w.worker with
  | .sending p nowMs =>
    let w := { w with worker := .draining nowMs }
    if failed then w.recover p (.failed p) else w
  | _ => w

def apply (w : MediaWorld) : MediaEvent → MediaWorld
  | .registerStream ssrc => { w with handler := w.handler.registerStream ssrc }
  | .setFrameDeadline deadlineMs => { w with handler := w.handler.setFrameDeadline deadlineMs }
  | .outgoing messages nowMs => w.outgoing messages nowMs
  | .incoming messages nowMs affords =>
    { w with handler := w.handler.incoming messages nowMs affords }
  | .wake budget nowMs =>
    if w.worker = .idle then
      { w with handler := w.handler.refresh budget nowMs, worker := .draining nowMs }
    else w
  | .drain affords us => w.drain affords us
  | .hand => w.hand
  | .sent failed => w.sent failed

def run (w : MediaWorld) (events : List MediaEvent) : MediaWorld := events.foldl apply w

/-! ### What the log says -/

/-- The access units of a stream that lost a packet, and that no key frame after them has made
good. `counts` are the packets whose expiry or discarding is a loss. -/
def lost (counts : Packet → Bool) (ssrc : BitVec 32) : List MediaEntry → List Nat
  | [] => []
  | .refused s unit :: log => if s = ssrc then unit :: lost counts ssrc log else lost counts ssrc log
  | .discarded p :: log | .expired p :: log =>
    if p.ssrc = ssrc ∧ counts p then p.unit :: lost counts ssrc log else lost counts ssrc log
  | .failed p :: log => if p.ssrc = ssrc then p.unit :: lost counts ssrc log else lost counts ssrc log
  | .handed p :: log =>
    if p.ssrc = ssrc ∧ p.isRepair = false ∧ p.keyframe then
      (lost counts ssrc log).filter fun unit => p.unit ≤ unit
    else lost counts ssrc log

/-- No packet that is not a repair and not of a key frame was handed to `send` after a loss in an
earlier access unit of its stream. -/
def Decodable (counts : Packet → Bool) : List MediaEntry → Prop
  | [] => True
  | .handed p :: log =>
    (p.isRepair = false → p.keyframe = false → ∀ unit ∈ lost counts p.ssrc log, p.unit ≤ unit) ∧
      Decodable counts log
  | _ :: log => Decodable counts log

/-- The sequence number of the last packet of a stream that was handed to `send`. -/
def lastSequence (ssrc : BitVec 32) : List MediaEntry → Option (BitVec 16)
  | [] => none
  | .handed p :: log =>
    if p.ssrc = ssrc ∧ p.isRepair = false then some p.sequence else lastSequence ssrc log
  | _ :: log => lastSequence ssrc log

def Consecutive : List MediaEntry → Prop
  | [] => True
  | .handed p :: log =>
    (p.isRepair = false → ∀ n, lastSequence p.ssrc log = some n → p.sequence = n + 1) ∧ Consecutive log
  | _ :: log => Consecutive log

end MediaWorld

end MiniRtc.Web
