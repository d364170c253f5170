import MiniRtc.Lib.SortedMap
import MiniRtc.Lib.Wrapping
import MiniRtc.Rtcp.Feedback

/-! `TransportFeedbackAdapter` (transport_feedback_adapter.cc): the history of the sent packets,
and the bytes of them that are in flight. What the adapter keeps for its log lines alone and the
statistics of the repair packets are left out.
A time is in microseconds; `none` is an infinite one. -/
namespace MiniRtc.Qos
open Wrapping
open Rtcp (EcnMarking TimeDelta)

abbrev Timestamp := Option Int

structure RouteEndpoint where
  adapterType : Nat := 0
  adapterId : BitVec 16 := 0
  networkId : BitVec 16 := 0
  usesTurn : Bool := false
deriving DecidableEq, Repr

structure NetworkRoute where
  connected : Bool := false
  localEndpoint : RouteEndpoint := {}
  remoteEndpoint : RouteEndpoint := {}
  lastSentPacketId : Int := -1
  packetOverhead : Int := 0
deriving DecidableEq, Repr

/-- What `NetworkRouteComparator` compares: routes of one key share a counter. -/
structure RouteKey where
  localNetwork : BitVec 16
  remoteNetwork : BitVec 16
  localAdapter : BitVec 16
  remoteAdapter : BitVec 16
  localTurn : Bool
  remoteTurn : Bool
  connected : Bool
deriving DecidableEq, Repr

def NetworkRoute.key (route : NetworkRoute) : RouteKey where
  localNetwork := route.localEndpoint.networkId
  remoteNetwork := route.remoteEndpoint.networkId
  localAdapter := route.localEndpoint.adapterId
  remoteAdapter := route.remoteEndpoint.adapterId
  localTurn := route.localEndpoint.usesTurn
  remoteTurn := route.remoteEndpoint.usesTurn
  connected := route.connected

inductive RtpPacketMediaType where
  | kAudio
  | kVideo
  | kRetransmission
  | kForwardErrorCorrection
  | kPadding
deriving DecidableEq, Repr

structure PacedPacketInfo where
  sendBitrate : Int := 0
  probeClusterId : Int := -1
  probeClusterMinProbes : Int := -1
  probeClusterMinBytes : Int := -1
  probeClusterBytesSent : Int := 0
deriving DecidableEq, Repr

/-- What the adapter reads of a packet. -/
structure RtpPacketToSend where
  ssrc : BitVec 32
  sequenceNumber : BitVec 16
  size : Nat
  packetType : RtpPacketMediaType := .kVideo
  transportSequenceNumber : Option Int

structure SentPacket where
  sendTime : Timestamp := none
  size : Int := 0
  priorUnackedData : Int := 0
  pacingInfo : PacedPacketInfo := {}
  audio : Bool := false
  sequenceNumber : Int
  dataInFlight : Int := 0
deriving DecidableEq, Repr

/-- A packet of the history. The `id` is not in the source: it counts the calls of `AddPacket`,
so that packets that were given one number one after the other stay apart. -/
structure PacketFeedback where
  id : Nat
  creationTime : Int
  sent : SentPacket
  networkRoute : NetworkRoute
  ssrc : BitVec 32
  rtpSequenceNumber : BitVec 16
deriving DecidableEq, Repr

/-- `in_flight_data_`. The journal is not in the source: it has every change of a counter, with
the packet that made it. -/
structure InFlightBytesTracker where
  data : RouteKey → Option Int := fun _ => none
  journal : List (Nat × Int) := []

namespace InFlightBytesTracker

def record (journal : List (Nat × Int)) (packet : PacketFeedback) (change : Int) :
    List (Nat × Int) :=
  if change = 0 then journal else journal ++ [(packet.id, change)]

def addInFlightPacketBytes (t : InFlightBytesTracker) (packet : PacketFeedback) :
    InFlightBytesTracker :=
  let key := packet.networkRoute.key
  let bytes := match t.data key with
    | some bytes => bytes + packet.sent.size
    | none => packet.sent.size
  { data := Function.update t.data key (some bytes)
    journal := record t.journal packet packet.sent.size }

def removeInFlightPacketBytes (t : InFlightBytesTracker) (packet : PacketFeedback) :
    InFlightBytesTracker :=
  if packet.sent.sendTime = none then t
  else
    let key := packet.networkRoute.key
    match t.data key with
    | some bytes =>
      let rest := bytes - packet.sent.size
      { data := Function.update t.data key (if rest = 0 then none else some rest)
        journal := record t.journal packet (-packet.sent.size) }
    | none => t

def getOutstandingData (t : InFlightBytesTracker) (route : NetworkRoute) : Int :=
  (t.data route.key).getD 0

end InFlightBytesTracker

def kSendTimeHistoryWindow : Int := 60 * 1000000

structure SsrcAndRtpSequencenumber where
  ssrc : BitVec 32
  rtpSequenceNumber : BitVec 16
deriving DecidableEq, Repr

/-- `rtc::SentPacket`, as far as the adapter reads it. -/
structure TransportSentPacket where
  packetId : Int := -1
  sendTimeMs : Int
  includedInFeedback : Bool := false
  includedInAllocation : Bool := false
  packetSizeBytes : Nat := 0

structure CongestionControlFeedback where
  packets : List Rtcp.PacketInfo
  reportTimestampCompactNtp : BitVec 32

structure PacketResult where
  sentPacket : SentPacket
  receiveTime : Timestamp := none
  ecn : EcnMarking
deriving DecidableEq, Repr

structure TransportPacketsFeedback where
  feedbackTime : Int
  packetFeedbacks : List PacketResult
  dataInFlight : Int
  transportSupportsEcn : Bool

/-- `added` is not in the source: it is the number of packets that were added. -/
structure TransportFeedbackAdapter where
  pendingUntrackedSize : Int := 0
  seqNumUnwrapper : SeqNumUnwrapper 16 := {}
  lastAckSeqNum : Int := -1
  inFlight : InFlightBytesTracker := {}
  networkRoute : NetworkRoute := {}
  currentOffset : Timestamp := none
  lastFeedbackCompactNtpTime : Option (BitVec 32) := none
  rtpToTransportSequenceNumber : SsrcAndRtpSequencenumber → Option Int := fun _ => none
  history : SortedMap Int PacketFeedback := SortedMap.empty
  added : Nat := 0

namespace TransportFeedbackAdapter

def getOutstandingData (t : TransportFeedbackAdapter) : Int :=
  t.inFlight.getOutstandingData t.networkRoute

def eraseRtp (t : TransportFeedbackAdapter) (key : SsrcAndRtpSequencenumber) :
    SsrcAndRtpSequencenumber → Option Int :=
  Function.update t.rtpToTransportSequenceNumber key none

/-- One turn of the loop that drops the packets that are too old. -/
def dropFirst (t : TransportFeedbackAdapter) (k : Int) (packet : PacketFeedback) :
    TransportFeedbackAdapter :=
  { t with
    inFlight := if t.lastAckSeqNum < packet.sent.sequenceNumber then
        t.inFlight.removeInFlightPacketBytes packet else t.inFlight
    rtpToTransportSequenceNumber := t.eraseRtp ⟨packet.ssrc, packet.rtpSequenceNumber⟩
    history := t.history.erase k }

def dropOld (creationTime : Int) : Nat → TransportFeedbackAdapter → TransportFeedbackAdapter
  | 0, t => t
  | turns + 1, t =>
    match t.history.first with
    | some (k, packet) =>
      if kSendTimeHistoryWindow < creationTime - packet.creationTime then
        dropOld creationTime turns (t.dropFirst k packet)
      else t
    | none => t

def addPacket (t : TransportFeedbackAdapter) (packetToSend : RtpPacketToSend)
    (pacingInfo : PacedPacketInfo) (overheadBytes : Nat) (creationTime : Int) :
    Int × TransportFeedbackAdapter :=
  match packetToSend.transportSequenceNumber with
  | none => (-1, t)
  | some transportSequenceNumber =>
    let (number, seqNumUnwrapper) := t.seqNumUnwrapper.unwrap (BitVec.ofInt 16 transportSequenceNumber)
    let feedback : PacketFeedback := {
      id := t.added
      creationTime
      sent := {
        sequenceNumber := number
        size := packetToSend.size + overheadBytes
        audio := packetToSend.packetType = .kAudio
        pacingInfo }
      networkRoute := t.networkRoute
      ssrc := packetToSend.ssrc
      rtpSequenceNumber := packetToSend.sequenceNumber }
    let t := dropOld creationTime t.history.entries.length { t with seqNumUnwrapper }
    let key : SsrcAndRtpSequencenumber := ⟨feedback.ssrc, feedback.rtpSequenceNumber⟩
    let mapping := match t.rtpToTransportSequenceNumber key with
      | some _ => t.rtpToTransportSequenceNumber
      | none => Function.update t.rtpToTransportSequenceNumber key (some number)
    (number, { t with
      rtpToTransportSequenceNumber := mapping
      history := t.history.emplace number feedback
      added := t.added + 1 })

/-- The packet of the history that `RemovePacket` finds for a packet. -/
def registered (t : TransportFeedbackAdapter) (packetToSend : RtpPacketToSend) :
    Option (Int × PacketFeedback) :=
  (t.rtpToTransportSequenceNumber ⟨packetToSend.ssrc, packetToSend.sequenceNumber⟩).bind
    fun number => (t.history.find number).map fun packet => (number, packet)

def removePacket (t : TransportFeedbackAdapter) (packetToSend : RtpPacketToSend) :
    Bool × TransportFeedbackAdapter :=
  let key : SsrcAndRtpSequencenumber := ⟨packetToSend.ssrc, packetToSend.sequenceNumber⟩
  match t.rtpToTransportSequenceNumber key with
  | none => (false, t)
  | some number =>
    let t := match t.history.find number with
      | some packet =>
        { t with
          inFlight := if packet.sent.sendTime ≠ none then
              t.inFlight.removeInFlightPacketBytes packet else t.inFlight
          history := t.history.erase number }
      | none => t
    (true, { t with rtpToTransportSequenceNumber := t.eraseRtp key })

def processSentPacket (t : TransportFeedbackAdapter) (sentPacket : TransportSentPacket) :
    Option SentPacket × TransportFeedbackAdapter :=
  if sentPacket.includedInFeedback ∨ sentPacket.packetId ≠ -1 then
    let (number, seqNumUnwrapper) := t.seqNumUnwrapper.unwrap (BitVec.ofInt 16 sentPacket.packetId)
    let t := { t with seqNumUnwrapper }
    match t.history.find number with
    | none => (none, t)
    | some packet =>
      let packetRetransmit := packet.sent.sendTime ≠ none
      let packet := { packet with sent := { packet.sent with
        sendTime := some (sentPacket.sendTimeMs * 1000)
        priorUnackedData := packet.sent.priorUnackedData + t.pendingUntrackedSize } }
      let t := { t with pendingUntrackedSize := 0 }
      if packetRetransmit then (none, { t with history := t.history.update number packet })
      else
        let t := { t with
          inFlight := if t.lastAckSeqNum < packet.sent.sequenceNumber then
              t.inFlight.addInFlightPacketBytes packet else t.inFlight }
        let packet := { packet with sent := { packet.sent with dataInFlight := t.getOutstandingData } }
        (some packet.sent, { t with history := t.history.update number packet })
  else if sentPacket.includedInAllocation then
    (none, { t with pendingUntrackedSize := t.pendingUntrackedSize + sentPacket.packetSizeBytes })
  else (none, t)

/-- The packets up to a number are no longer in flight. -/
def acknowledge (t : TransportFeedbackAdapter) (number : Int) : TransportFeedbackAdapter :=
  if t.lastAckSeqNum < number then
    { t with
      inFlight := (t.history.between t.lastAckSeqNum number).foldl
        (fun tracker e => tracker.removeInFlightPacketBytes e.2) t.inFlight
      lastAckSeqNum := number }
  else t

/-- `RetrievePacketFeedback` of a transport sequence number. -/
def retrieve (t : TransportFeedbackAdapter) (number : Int) (received : Bool) :
    Option PacketFeedback × TransportFeedbackAdapter :=
  let t := t.acknowledge number
  match t.history.find number with
  | none => (none, t)
  | some packet =>
    if packet.sent.sendTime = none then (none, t)
    else if received then
      (some packet, { t with
        rtpToTransportSequenceNumber := t.eraseRtp ⟨packet.ssrc, packet.rtpSequenceNumber⟩
        history := t.history.erase number })
    else (some packet, t)

def retrievePacketFeedback (t : TransportFeedbackAdapter) (key : SsrcAndRtpSequencenumber)
    (received : Bool) : Option PacketFeedback × TransportFeedbackAdapter :=
  match t.rtpToTransportSequenceNumber key with
  | none => (none, t)
  | some number => t.retrieve number received

def divideRoundToNearest (dividend divisor : Int) : Int :=
  if dividend < 0 then
    let quotient := dividend.tdiv divisor
    if divisor.tdiv 2 < -(dividend.tmod divisor) then quotient - 1 else quotient
  else
    let quotient := dividend.tdiv divisor
    if (divisor - 1).tdiv 2 < dividend.tmod divisor then quotient + 1 else quotient

def compactNtpIntervalToTimeDelta (compactNtpInterval : BitVec 32) : Int :=
  let value : Int := compactNtpInterval.toNat
  let value := if 0x80000000 < compactNtpInterval then value - 2 ^ 32 else value
  divideRoundToNearest (value * 1000000) (2 ^ 16)

/-- What the loop over a feedback builds up. -/
structure Results where
  adapter : TransportFeedbackAdapter
  supportsEcn : Bool := true
  packetResults : List PacketResult := []

def processPacketInfo (offset : Int) (r : Results) (info : Rtcp.PacketInfo) : Results :=
  let received := info.arrivalTimeOffset.isFinite
  let (packetFeedback, adapter) :=
    r.adapter.retrievePacketFeedback ⟨info.ssrc, info.sequenceNumber⟩ received
  match packetFeedback with
  | none => { r with adapter }
  | some packet =>
    if packet.networkRoute ≠ adapter.networkRoute then { r with adapter }
    else
      match info.arrivalTimeOffset with
      | .finite us =>
        { adapter
          supportsEcn := r.supportsEcn && info.ecn ≠ .kNotEct
          packetResults := r.packetResults ++ [⟨packet.sent, some (offset - us), info.ecn⟩] }
      | _ => { r with
          adapter
          packetResults := r.packetResults ++ [⟨packet.sent, none, info.ecn⟩] }

/-- Two results on one number may be sorted either way in the source. -/
def processCongestionControlFeedback (t : TransportFeedbackAdapter)
    (feedback : CongestionControlFeedback) (feedbackReceiveTime : Int) :
    Option TransportPacketsFeedback × TransportFeedbackAdapter :=
  if feedback.packets = [] then (none, t)
  else
    let delta := match t.lastFeedbackCompactNtpTime with
      | some last => compactNtpIntervalToTimeDelta (feedback.reportTimestampCompactNtp - last)
      | none => 0
    let offset := if delta < 0 then feedbackReceiveTime
      else t.currentOffset.getD feedbackReceiveTime + delta
    let t := { t with
      currentOffset := some offset
      lastFeedbackCompactNtpTime := some feedback.reportTimestampCompactNtp }
    let r := feedback.packets.foldl (processPacketInfo offset) { adapter := t }
    if r.packetResults = [] then (none, r.adapter)
    else
      (some {
        feedbackTime := feedbackReceiveTime
        packetFeedbacks := r.packetResults.mergeSort
          fun a b => a.sentPacket.sequenceNumber ≤ b.sentPacket.sequenceNumber
        dataInFlight := r.adapter.inFlight.getOutstandingData r.adapter.networkRoute
        transportSupportsEcn := r.supportsEcn }, r.adapter)

def setNetworkRoute (t : TransportFeedbackAdapter) (networkRoute : NetworkRoute) :
    TransportFeedbackAdapter := { t with networkRoute }

end TransportFeedbackAdapter

end MiniRtc.Qos
