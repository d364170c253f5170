import MiniRtc.Lib.Wrapping
import MiniRtc.Rtcp.Feedback

/-! `CongestionControlFeedbackTracker` (congestion_control_feedback_tracker.cc).
The packets of one stream are remembered until the next feedback, and a bounded number of
them longer, so that a report can repeat what an earlier one said. Times are microseconds;
the caller takes arrival times from the clock, so they are finite. -/
namespace MiniRtc.Qos
open Wrapping
open Rtcp (EcnMarking TimeDelta)

def kMaxHistorySize : Nat := 16384

/-- What the tracker reads of a received packet. -/
structure RtpPacketReceived where
  ssrc : BitVec 32
  sequenceNumber : BitVec 16
  arrivalTime : Int
  ecn : EcnMarking

namespace CongestionControlFeedbackTracker

structure PacketInfo where
  ssrc : BitVec 32
  unwrappedSequenceNumber : Int
  arrivalTime : Int
  ecn : EcnMarking
deriving DecidableEq, Repr

/-- The order that `std::sort` is given: by number, then by arrival time. -/
def PacketInfo.le (a b : PacketInfo) : Prop :=
  a.unwrappedSequenceNumber < b.unwrappedSequenceNumber ∨
    (a.unwrappedSequenceNumber = b.unwrappedSequenceNumber ∧ a.arrivalTime ≤ b.arrivalTime)

/-- `std::sort`, which may leave packets of one number and time in any order. -/
structure StdSort where
  sort : List PacketInfo → List PacketInfo
  perm : ∀ packets, (sort packets).Perm packets
  sorted : ∀ packets, (sort packets).Pairwise PacketInfo.le

end CongestionControlFeedbackTracker

open CongestionControlFeedbackTracker

/-- `history_` holds an entry for every number of `history_order_`. -/
structure CongestionControlFeedbackTracker where
  lastSequenceNumberInFeedback : Option Int := none
  unwrapper : SeqNumUnwrapper 16 := {}
  packets : List CongestionControlFeedbackTracker.PacketInfo := []
  history : List CongestionControlFeedbackTracker.PacketInfo := []
  historyOrder : List Int := []

namespace CongestionControlFeedbackTracker

def findHistory (history : List PacketInfo) (number : Int) : Option PacketInfo :=
  history.find? fun e => e.unwrappedSequenceNumber = number

/-- A new number goes to the end of the history, and the oldest one leaves it when it is full. -/
def emplaceHistory (t : CongestionControlFeedbackTracker) (p : PacketInfo) :
    CongestionControlFeedbackTracker :=
  let history := t.history ++ [p]
  let historyOrder := t.historyOrder ++ [p.unwrappedSequenceNumber]
  if kMaxHistorySize < historyOrder.length then
    match historyOrder with
    | seqToRemove :: rest =>
      { t with
        history := history.filter fun e => e.unwrappedSequenceNumber ≠ seqToRemove
        historyOrder := rest }
    | [] => t
  else { t with history, historyOrder }

/-- A known number keeps the earliest arrival, and the congestion mark of any copy. -/
def mergeHistory (e p : PacketInfo) : PacketInfo :=
  { e with
    arrivalTime := if p.arrivalTime < e.arrivalTime then p.arrivalTime else e.arrivalTime
    ecn := if p.ecn = .kCe then .kCe else e.ecn }

def rememberPacket (t : CongestionControlFeedbackTracker) (p : PacketInfo) :
    CongestionControlFeedbackTracker :=
  match findHistory t.history p.unwrappedSequenceNumber with
  | none => t.emplaceHistory p
  | some _ => { t with history := t.history.map fun (e : PacketInfo) =>
      if e.unwrappedSequenceNumber = p.unwrappedSequenceNumber then mergeHistory e p else e }

/-- A number that was reported already is reported again, with all after it. -/
def rewind (last : Option Int) (number : Int) : Option Int :=
  last.map fun last => if number < last + 1 then number - 1 else last

def receivedPacket (t : CongestionControlFeedbackTracker) (packet : RtpPacketReceived) :
    CongestionControlFeedbackTracker :=
  let (number, unwrapper) := t.unwrapper.unwrap packet.sequenceNumber
  let p : PacketInfo := ⟨packet.ssrc, number, packet.arrivalTime, packet.ecn⟩
  let t := { t with
    unwrapper
    lastSequenceNumberInFeedback := rewind t.lastSequenceNumberInFeedback number }
  let t := t.rememberPacket p
  { t with packets := t.packets ++ [p] }

/-- The report on one number, while the copies of it are merged. -/
structure Merged where
  arrivalTimeOffset : TimeDelta := .minusInfinity
  ecn : EcnMarking := .kNotEct
deriving DecidableEq, Repr

def Merged.ofHistory (feedbackTime : Int) : Option PacketInfo → Merged
  | some e => ⟨.finite (feedbackTime - e.arrivalTime), e.ecn⟩
  | none => {}

/-- The lesser of an offset and that of another copy. -/
def minOffset (offset : TimeDelta) (candidate : Int) : TimeDelta :=
  match offset with
  | .finite us => .finite (min us candidate)
  | _ => .finite candidate

def Merged.first (m : Merged) (feedbackTime : Int) (p : PacketInfo) : Merged where
  arrivalTimeOffset := minOffset m.arrivalTimeOffset (feedbackTime - p.arrivalTime)
  ecn := if p.ecn = .kCe then .kCe else if m.ecn = .kNotEct then p.ecn else m.ecn

def Merged.duplicate (m : Merged) (feedbackTime : Int) (p : PacketInfo) : Merged where
  arrivalTimeOffset := minOffset m.arrivalTimeOffset (feedbackTime - p.arrivalTime)
  ecn := if p.ecn = .kCe then .kCe else m.ecn

/-- The loop over the further copies of a number: the merged report, and where `packet_it`
stands behind them. -/
def mergeDuplicates (feedbackTime number : Int) : Merged → List PacketInfo → Merged × List PacketInfo
  | m, [] => (m, [])
  | m, p :: rest =>
    if p.unwrappedSequenceNumber = number then
      mergeDuplicates feedbackTime number (m.duplicate feedbackTime p) rest
    else (m, p :: rest)

/-- The part of the loop that merges what `packet_it` points at, if it is of the number. -/
def takeCopies (feedbackTime number : Int) (m : Merged) : List PacketInfo → Merged × List PacketInfo
  | p :: rest =>
    if number = p.unwrappedSequenceNumber then
      mergeDuplicates feedbackTime number (m.first feedbackTime p) rest
    else (m, p :: rest)
  | [] => (m, [])

/-- The loop over the numbers of the range; `packets` are those from `packet_it` on. -/
def reportRange (feedbackTime : Int) (history : List PacketInfo) (ssrc : BitVec 32) :
    Nat → Int → List PacketInfo → List Rtcp.PacketInfo
  | 0, _, _ => []
  | count + 1, number, packets =>
    let (m, packets) := takeCopies feedbackTime number
      (Merged.ofHistory feedbackTime (findHistory history number)) packets
    ⟨ssrc, BitVec.ofInt 16 number, m.arrivalTimeOffset, m.ecn⟩ ::
      reportRange feedbackTime history ssrc count (number + 1) packets

/-- `AddPacketsToFeedback`: what is appended to the feedback, and the object afterwards. -/
def addPacketsToFeedback (s : StdSort) (t : CongestionControlFeedbackTracker) (feedbackTime : Int) :
    List Rtcp.PacketInfo × CongestionControlFeedbackTracker :=
  let packets := s.sort t.packets
  match packets.head?, packets.getLast? with
  | some front, some back =>
    let last := t.lastSequenceNumberInFeedback.getD (front.unwrappedSequenceNumber - 1)
    (reportRange feedbackTime t.history front.ssrc (back.unwrappedSequenceNumber - last).toNat
        (last + 1) packets,
      { t with
        lastSequenceNumberInFeedback := some back.unwrappedSequenceNumber
        packets := [] })
  | _, _ => ([], t)

end CongestionControlFeedbackTracker

end MiniRtc.Qos
