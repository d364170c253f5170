import MiniRtc.Lib.Bytes

/-! The congestion control feedback packet (congestion_control_feedback.cpp) and the common
header of RTCP packets (rtcp_common_header.cpp).
A loop of the source takes a number of turns here, and gives `none` if they do not suffice.
A write beyond the end of the buffer gives `none` as well. -/
namespace MiniRtc.Rtcp
open Wire

inductive EcnMarking where
  | kNotEct
  | kEct1
  | kEct0
  | kCe
deriving DecidableEq, Repr

/-- Microseconds, or one of the two infinities. -/
inductive TimeDelta where
  | minusInfinity
  | finite (us : Int)
  | plusInfinity
deriving DecidableEq, Repr

def TimeDelta.isFinite : TimeDelta → Bool
  | finite _ => true
  | _ => false

structure PacketInfo where
  ssrc : BitVec 32
  sequenceNumber : BitVec 16
  arrivalTimeOffset : TimeDelta := .minusInfinity
  ecn : EcnMarking := .kNotEct
deriving DecidableEq, Repr

def kHeaderLength : Nat := 4
def kSenderSsrcLength : Nat := 4
def kHeaderPerMediaSssrcLength : Nat := 8
def kTimestampLength : Nat := 4
def kFeedbackHeaderLength : Nat := kHeaderLength + kSenderSsrcLength + kTimestampLength
def kMinReportBlockLength : Nat := kHeaderPerMediaSssrcLength + 4
def kMaxReportsPerSsrc : Nat := 16384
def kMaxRtcpPacketLength : Nat := 0xffff * 4
def kFeedbackMessageType : Byte := 11
def kPacketType : Byte := 205

/-- `ticks` is the conversion of an offset that is not negative to 1/1024 seconds, through a
float. -/
def to13bitAto (ticks : Nat → Nat) (us : Int) : BitVec 16 :=
  if us < 0 then 0x1FFF else BitVec.ofNat 16 (min (ticks us.toNat) 0x1FFE)

def atoToTimeDelta (receiveInfo : BitVec 16) : TimeDelta :=
  let ato := receiveInfo &&& 0x1FFF
  if ato = 0x1FFE then .plusInfinity
  else if ato = 0x1FFF then .minusInfinity
  else .finite (ato.toNat * 1000000 / 1024)

def to2BitEcn : EcnMarking → BitVec 16
  | .kNotEct => 0
  | .kEct1 => 1 <<< 13
  | .kEct0 => 2 <<< 13
  | .kCe => 3 <<< 13

def toEcnMarking (receiveInfo : BitVec 16) : EcnMarking :=
  let ecn := (receiveInfo >>> 13) &&& 3
  if ecn = 1 then .kEct1 else if ecn = 2 then .kEct0 else if ecn = 3 then .kCe else .kNotEct

/-- The word that reports one packet. -/
def packetInfoWord (ticks : Nat → Nat) (p : PacketInfo) : BitVec 16 :=
  match p.arrivalTimeOffset with
  | .finite us => 0x8000 ||| to2BitEcn p.ecn ||| to13bitAto ticks us
  | _ => 0

structure CongestionControlFeedback where
  senderSsrc : BitVec 32 := 0
  packets : List PacketInfo := []
  reportTimestampCompactNtp : BitVec 32 := 0
deriving DecidableEq, Repr

/-- The buffer, the position in it, and what the callback got. -/
structure Output where
  buffer : Bytes
  position : Nat
  ready : List Bytes := []
deriving DecidableEq, Repr

/-- A write of the source, which does not check where it writes. -/
def put (buffer : Bytes) (position : Nat) (v : Bytes) : Option Bytes :=
  if position + v.length ≤ buffer.length then some (overwrite buffer position v) else none

/-- `OnBufferFull`, or `none` where it refuses. -/
def onBufferFull (o : Output) : Option Output :=
  if o.position = 0 then none
  else some { o with position := 0, ready := o.ready ++ [o.buffer.take o.position] }

/-- `RtcpPacket::CreateHeader` without padding. -/
def createHeader (countOrFormat packetType : Byte) (length : Nat) : Bytes :=
  [BitVec.ofNat 8 (2 <<< 6) ||| countOrFormat, packetType] ++ put16 (BitVec.ofNat 16 length)

namespace CongestionControlFeedback

variable (ticks : Nat → Nat)

/-- The loop over the reports of one block. -/
def writeReports (buffer : Bytes) (position : Nat) : List PacketInfo → Option (Bytes × Nat)
  | [] => some (buffer, position)
  | p :: rest => do
    let buffer ← put buffer position (put16 (packetInfoWord ticks p))
    writeReports buffer (position + 2) rest

/-- One block: its header, its reports, and a word of padding if their number is odd. -/
def writeBlock (buffer : Bytes) (position : Nat) (ssrc : BitVec 32) (sequenceNumber : BitVec 16)
    (reports : List PacketInfo) : Option (Bytes × Nat) := do
  let buffer ← put buffer position (put32 ssrc)
  let buffer ← put buffer (position + 4) (put16 sequenceNumber)
  let buffer ← put buffer (position + 6) (put16 (BitVec.ofNat 16 reports.length))
  let (buffer, position) ← writeReports ticks buffer (position + kHeaderPerMediaSssrcLength) reports
  if reports.length % 2 ≠ 0 then
    let buffer ← put buffer position (put16 0)
    return (buffer, position + 2)
  else return (buffer, position)

/-- How many of the packets that are left go into the next block. -/
def reportsFor (fragmentEnd position : Nat) (ssrc : BitVec 32) (packets : List PacketInfo) :
    List PacketInfo :=
  let maxReports := min ((fragmentEnd - position - kTimestampLength - kHeaderPerMediaSssrcLength) / 4 * 2)
    kMaxReportsPerSsrc
  (packets.take maxReports).takeWhile fun p => p.ssrc = ssrc

/-- The loop over the blocks of one fragment; `packets` are those from `packet_index` on. -/
def writeBlocks (fragmentEnd : Nat) :
    Nat → List PacketInfo → Bytes → Nat → Option (List PacketInfo × Bytes × Nat)
  | 0, _, _, _ => none
  | _ + 1, [], buffer, position => some ([], buffer, position)
  | turns + 1, first :: rest, buffer, position =>
    if fragmentEnd - position < kMinReportBlockLength + kTimestampLength then
      some (first :: rest, buffer, position)
    else do
      let reports := reportsFor fragmentEnd position first.ssrc (first :: rest)
      let (buffer, position) ← writeBlock ticks buffer position first.ssrc first.sequenceNumber reports
      let packets := (first :: rest).drop reports.length
      if packets.head?.any fun next => next.ssrc = first.ssrc then some (packets, buffer, position)
      else writeBlocks fragmentEnd turns packets buffer position

/-- One fragment, which is a whole packet: room for the headers, the blocks, the timestamp,
and last the headers. -/
def writeFragment (f : CongestionControlFeedback) (turns maxLength : Nat) (packets : List PacketInfo)
    (o : Output) : Option (List PacketInfo × Output) := do
  let fragmentStart := o.position
  let fragmentCapacity := min ((maxLength - o.position) / 4 * 4) kMaxRtcpPacketLength
  let fragmentEnd := fragmentStart + fragmentCapacity
  let (packets, buffer, position) ← writeBlocks ticks fragmentEnd turns packets o.buffer
    (o.position + kHeaderLength + kSenderSsrcLength)
  let buffer ← put buffer position (put32 f.reportTimestampCompactNtp)
  let position := position + kTimestampLength
  let buffer ← put buffer fragmentStart
    (createHeader kFeedbackMessageType kPacketType ((position - fragmentStart) / 4 - 1))
  let buffer ← put buffer (fragmentStart + kHeaderLength) (put32 f.senderSsrc)
  return (packets, { o with buffer, position })

/-- The loop that waits for room: what it returns is `none` where `Create` returns false. -/
def makeRoom (minPacketLength maxLength : Nat) : Nat → Output → Option (Option Output)
  | 0, _ => none
  | turns + 1, o =>
    if maxLength - o.position < minPacketLength then
      match onBufferFull o with
      | some o => makeRoom minPacketLength maxLength turns o
      | none => some none
    else some (some o)

def minPacketLength (f : CongestionControlFeedback) : Nat :=
  kFeedbackHeaderLength + if f.packets.isEmpty then 0 else kMinReportBlockLength

/-- The loop over the fragments. -/
def createFrom (f : CongestionControlFeedback) (maxLength : Nat) :
    Nat → List PacketInfo → Output → Option (Bool × Output)
  | 0, _, _ => none
  | turns + 1, packets, o => do
    match ← makeRoom f.minPacketLength maxLength (turns + 1) o with
    | none => return (false, o)
    | some o =>
      let (packets, o) ← f.writeFragment ticks (turns + 1) maxLength packets o
      if packets.isEmpty then return (true, o)
      else
        match onBufferFull o with
        | none => return (false, o)
        | some o => f.createFrom maxLength turns packets o

def create (f : CongestionControlFeedback) (turns maxLength : Nat) (o : Output) :
    Option (Bool × Output) :=
  if maxLength < o.position then some (false, o) else f.createFrom ticks maxLength turns f.packets o

end CongestionControlFeedback

/-! ### The reading side -/

structure RtcpCommonHeader where
  packetType : Byte := 0
  countOrFormat : Byte := 0
  paddingSize : Nat := 0
  payloadSize : Nat := 0
  payload : Bytes := []
deriving DecidableEq, Repr

namespace RtcpCommonHeader

def packetSize (h : RtcpCommonHeader) : Nat := 4 + h.payloadSize + h.paddingSize

/-- `Parse`. The payload begins behind the header; the last `paddingSize` octets of what the
length field announces are padding. -/
def parse (buffer : Bytes) : Option RtcpCommonHeader :=
  if buffer.length < 4 then none
  else if byteAt buffer 0 >>> 6 ≠ 2 then none
  else
    let hasPadding := byteAt buffer 0 &&& 0x20 ≠ 0
    let h : RtcpCommonHeader :=
      { countOrFormat := byteAt buffer 0 &&& 0x1F
        packetType := byteAt buffer 1
        payloadSize := (get16 buffer 2).toNat * 4
        payload := buffer.drop 4 }
    if buffer.length < 4 + h.payloadSize then none
    else if hasPadding then
      if h.payloadSize = 0 then none
      else
        let paddingSize := (byteAt h.payload (h.payloadSize - 1)).toNat
        if paddingSize = 0 ∨ h.payloadSize < paddingSize then none
        else some { h with paddingSize, payloadSize := h.payloadSize - paddingSize }
    else some h

end RtcpCommonHeader

namespace CongestionControlFeedback

/-- The entry for the `i`-th word of a block. -/
def readReport (payload : Bytes) (position : Nat) (ssrc : BitVec 32) (baseSeqno : BitVec 16)
    (i : Nat) : PacketInfo :=
  let packetInfo := get16 payload (position + 2 * i)
  { ssrc
    sequenceNumber := baseSeqno + BitVec.ofNat 16 i
    arrivalTimeOffset :=
      if packetInfo &&& 0x8000 ≠ 0 then atoToTimeDelta packetInfo else .minusInfinity
    ecn := toEcnMarking packetInfo }

/-- The loop over the blocks, from a position to the end of the reports. -/
def readBlocks (payload : Bytes) (payloadEnd : Nat) : Nat → Nat → Option (List PacketInfo)
  | 0, _ => none
  | turns + 1, position =>
    if position + kHeaderPerMediaSssrcLength < payloadEnd then
      let ssrc := get32 payload position
      let baseSeqno := get16 payload (position + 4)
      let numReports := (get16 payload (position + 6)).toNat
      let position := position + 8
      if payloadEnd < position + 2 * numReports then none
      else
        let reports := (List.range numReports).map (readReport payload position ssrc baseSeqno)
        let position := position + 2 * numReports + if numReports % 2 ≠ 0 then 2 else 0
        (readBlocks payload payloadEnd turns position).map fun later => reports ++ later
    else if position = payloadEnd then some [] else none

/-- `Parse` into a fresh object; every turn of the loop passes eight octets at least. -/
def parse (packet : RtcpCommonHeader) : Option CongestionControlFeedback :=
  if packet.payloadSize % 4 ≠ 0 ∨ packet.payloadSize < kSenderSsrcLength + kTimestampLength then none
  else
    let payloadEnd := packet.payloadSize - 4
    (readBlocks packet.payload payloadEnd packet.payloadSize 4).map fun packets =>
      { senderSsrc := get32 packet.payload 0
        reportTimestampCompactNtp := get32 packet.payload payloadEnd
        packets }

end CongestionControlFeedback

end MiniRtc.Rtcp
