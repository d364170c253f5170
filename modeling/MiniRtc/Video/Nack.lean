import MiniRtc.Lib.Wrapping

/-! `NackRequester` (nack_requester.cc) and the recovery times that rest on it.
A sequence number is carried here as an unbounded number; the code keeps its residue
`seq`, and every comparison is one of residues. Times are microseconds, `none` is
minus infinity. How many packets the reordering histogram says to wait is an input. -/
namespace MiniRtc.Video
open Wrapping

/-- The sequence number in the packet. -/
abbrev seq (n : Int) : BitVec 16 := BitVec.ofInt 16 n

def kMaxPacketAge : BitVec 16 := 10000
def kMaxNackPackets : Nat := 1000
def kDefaultRttMs : Int := 100
def kMaxNackRetries : Nat := 100
def kFailedSendRetryDelay : Int := 20000
def kDefaultSendNackDelay : Int := 10000

/-- `TimeDelta::ms`, to the nearest millisecond. -/
def roundMs (us : Int) : Int := if us < 0 then (us - 500).tdiv 1000 else (us + 500).tdiv 1000

structure NackInfo where
  seqNum : Int
  sendAtSeqNum : BitVec 16
  createdAtTime : Int
  sentAtTime : Option Int := none
  lastSendAttemptTime : Option Int := none
  retries : Nat := 0
  sendPending : Bool := false
deriving DecidableEq, Repr

/-- `nackList` and `recoveredList` are ordered containers with the oldest number first. -/
structure NackRequester where
  nackList : List NackInfo := []
  recoveredList : List Int := []
  initialized : Bool := false
  rttMs : Int := kDefaultRttMs
  hasRttSample : Bool := false
  keyframeRequestPending : Bool := false
  newestSeqNum : Int := 0
deriving DecidableEq, Repr

/-- `NackRetryRttMultiplier` of video_recovery_timing.h. -/
def nackRetryRttMultiplier (hasRttSample : Bool) (successfulNackCount : Nat) : Int :=
  if successfulNackCount = 0 then 1
  else if hasRttSample then if successfulNackCount ≤ 2 then 1 else 2
  else 2 ^ min successfulNackCount 3

/-- The place of a number in an ordered container: behind all that are not ahead of it. An
equal one is replaced. -/
def insertOrAssign {α : Type} (number : α → BitVec 16) (x : α) : List α → List α
  | [] => [x]
  | y :: rest =>
    if number y = number x then x :: rest
    else if aheadOf (number y) (number x) then x :: y :: rest
    else y :: insertOrAssign number x rest

namespace NackRequester

def updateRtt (n : NackRequester) (rttMs : Int) : NackRequester :=
  if rttMs ≤ 0 ∨ 2000 < rttMs then n
  else if n.hasRttSample then { n with rttMs := (3 * n.rttMs + rttMs).tdiv 4 }
  else { n with rttMs, hasRttSample := true }

/-- Has the time since an earlier point passed a delay? -/
def passed (now : Int) (since : Option Int) (delay : Int) : Bool :=
  match since with
  | none => true
  | some t => decide (delay ≤ now - t)

inductive NackFilterOptions where
  | seqNumOnly
  | timeOnly
deriving DecidableEq, Repr

/-- The test that `GetNackBatch` makes on one entry. -/
def due (n : NackRequester) (options : NackFilterOptions) (now : Int) (e : NackInfo) : Bool :=
  let retryDelay :=
    if 0 < e.retries then n.rttMs * 1000 * nackRetryRttMultiplier n.hasRttSample e.retries
    else n.rttMs * 1000
  let onSeqNum := e.sentAtTime.isNone && aheadOrAt (seq n.newestSeqNum) e.sendAtSeqNum
  !e.sendPending && decide (kDefaultSendNackDelay ≤ now - e.createdAtTime) &&
    passed now e.lastSendAttemptTime kFailedSendRetryDelay &&
    ((options != .timeOnly && onSeqNum) || (options != .seqNumOnly && passed now e.sentAtTime retryDelay))

def getNackBatch (n : NackRequester) (options : NackFilterOptions) (now : Int) :
    List Int × NackRequester :=
  ((n.nackList.filter (n.due options now)).map NackInfo.seqNum,
    { n with nackList := n.nackList.map fun e =>
      if n.due options now e then { e with sendPending := true } else e })

/-- The numbers from one up to another, which is left out; the loop runs on residues. -/
def numbersUntil (start : Int) (last : BitVec 16) : List Int :=
  (List.range (last - seq start).toNat).map fun (i : Nat) => start + (i : Int)

def addPacketsToNack (n : NackRequester) (start last : Int) (wait : Nat) (now : Int) : NackRequester :=
  let nackList := n.nackList.dropWhile fun e => aheadOf (seq last - kMaxPacketAge) (seq e.seqNum)
  let numNewNacks := (seq last - seq start).toNat
  if kMaxNackPackets < nackList.length + numNewNacks then
    { n with nackList := [], keyframeRequestPending := true }
  else
    let missing := (numbersUntil start (seq last)).filter fun m =>
      ¬ seq m ∈ n.recoveredList.map seq
    { n with nackList := missing.foldl (fun list m =>
      insertOrAssign (fun e => seq e.seqNum)
        { seqNum := m, sendAtSeqNum := seq m + BitVec.ofNat 16 wait, createdAtTime := now } list) nackList }

/-- Only a packet that was asked for exactly once gives a sample. -/
def sampleRtt (n : NackRequester) (e : NackInfo) (isRecovered : Bool) (now : Int) : NackRequester :=
  match e.sentAtTime with
  | some sentAt => if isRecovered ∧ e.retries = 1 then n.updateRtt (roundMs (now - sentAt)) else n
  | none => n

/-- `OnReceivedPacket`: the batch to send, and the object afterwards. -/
def onReceivedPacket (n : NackRequester) (seqNum : Int) (isRecovered : Bool) (wait : Nat) (now : Int) :
    List Int × NackRequester :=
  if !n.initialized then ([], { n with newestSeqNum := seqNum, initialized := true })
  else if seq seqNum = seq n.newestSeqNum then ([], n)
  else if aheadOf (seq n.newestSeqNum) (seq seqNum) then
    match n.nackList.find? fun e => decide (seq e.seqNum = seq seqNum) with
    | none => ([], n)
    | some e =>
      let n := n.sampleRtt e isRecovered now
      ([], { n with nackList := n.nackList.filter fun e => seq e.seqNum ≠ seq seqNum })
  else if isRecovered then
    let recovered :=
      if seq seqNum ∈ n.recoveredList.map seq then n.recoveredList
      else insertOrAssign seq seqNum n.recoveredList
    let oldest := seq seqNum - kMaxPacketAge
    ([], { n with recoveredList := recovered.dropWhile fun m => aheadOf oldest (seq m) })
  else
    let added := n.addPacketsToNack (n.newestSeqNum + 1) seqNum wait now
    getNackBatch { added with newestSeqNum := seqNum } .seqNumOnly now

def processNacks (n : NackRequester) (now : Int) : List Int × NackRequester :=
  n.getNackBatch .timeOnly now

/-- One entry of a batch that was handed to the transport. -/
def sentOne (now : Int) (successful : Bool) (e : NackInfo) : Option NackInfo :=
  if !e.sendPending then some e
  else if !successful then some { e with sendPending := false, lastSendAttemptTime := some now }
  else if kMaxNackRetries ≤ e.retries + 1 then none
  else some { e with
    sendPending := false
    lastSendAttemptTime := some now
    retries := e.retries + 1
    sentAtTime := some now }

def onNackBatchSent (n : NackRequester) (batch : List Int) (successful : Bool) (now : Int) :
    NackRequester :=
  { n with nackList := batch.foldl (fun list m =>
    list.filterMap fun e => if seq e.seqNum = seq m then sentOne now successful e else some e) n.nackList }

def consumeKeyFrameRequest (n : NackRequester) : Bool × NackRequester :=
  (n.keyframeRequestPending, { n with keyframeRequestPending := false })

def hasPendingNacks (n : NackRequester) : Bool := !n.nackList.isEmpty

/-- Is the oldest entry not ahead of the number? -/
def hasPendingNacksUpTo (n : NackRequester) (seqNum : Int) : Bool :=
  match n.nackList with
  | [] => false
  | e :: _ => !aheadOf (seq e.seqNum) (seq seqNum)

def clearUpTo (n : NackRequester) (seqNum : Int) : NackRequester :=
  { n with
    nackList := n.nackList.dropWhile fun e => !aheadOf (seq e.seqNum) (seq seqNum)
    recoveredList := n.recoveredList.dropWhile fun m => !aheadOf (seq m) (seq seqNum) }

end NackRequester

/-- `FrameRecoveryTiming`, in milliseconds. -/
structure FrameRecoveryTiming where
  softDeadlineMs : Int
  softFirConfirmationDelayMs : Int
  hardDeadlineMs : Int
deriving DecidableEq, Repr

def clamp (x low high : Int) : Int := max low (min x high)

def softFrameRecoveryDeadlineMs (rttMs : Int) : Int := clamp (2 * rttMs + 30) 100 500
def softFirConfirmationDelayMs (rttMs : Int) : Int := clamp rttMs 75 150
def hardFrameRecoveryDeadlineMs (rttMs : Int) : Int := clamp (5 * rttMs + 80) 350 1000

/-- `GetFrameRecoveryTiming`. -/
def frameRecoveryTiming (rtxEnabled : Bool) (n : NackRequester) : FrameRecoveryTiming :=
  if !rtxEnabled then ⟨80, 0, 200⟩
  else if !n.hasRttSample then ⟨200, 100, 600⟩
  else
    let rttMs := max n.rttMs 1
    ⟨softFrameRecoveryDeadlineMs rttMs, softFirConfirmationDelayMs rttMs,
      hardFrameRecoveryDeadlineMs rttMs⟩

end MiniRtc.Video
