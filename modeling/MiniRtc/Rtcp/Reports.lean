import MiniRtc.Lib.Reads
import MiniRtc.Rtcp.FeedbackRoundTrip

/-! Sender and receiver reports (sender_report.cpp, receiver_report.cpp, rtcp_report_block.cpp).
`Build` gives `none` where it returns a null pointer or would write beyond its buffer. `Parse`
reads the payload of its packet without the padding: the outer `none` is a read beyond that,
the inner one a refusal. -/
namespace MiniRtc.Rtcp
open Wire

/- rtcp_typedef.h. -/
def DEFAULT_RTCP_VERSION : Byte := 2
def DEFAULT_RTCP_HEADER_SIZE : Nat := 4
def DEFAULT_SR_SIZE : Nat := 24
def DEFAULT_RR_SIZE : Nat := 4
def SR : Byte := 200
def RR : Byte := 201

namespace RtcpCommonHeader

def create (version hasPadding countOrFormat payloadType : Byte)
    (lengthInWordsMinusOne : BitVec 16) : Bytes :=
  [version <<< 6 ||| hasPadding <<< 5 ||| countOrFormat, payloadType] ++ put16 lengthInWordsMinusOne

/-- `payload()` up to `payload_size_bytes()`. -/
def region (h : RtcpCommonHeader) : Bytes := h.payload.take h.payloadSize

def count (h : RtcpCommonHeader) : Nat := h.countOrFormat.toNat

end RtcpCommonHeader

structure RtcpReportBlock where
  senderSsrc : BitVec 32 := 0
  sourceSsrc : BitVec 32 := 0
  fractionLost : Byte := 0
  cumulativeLost : BitVec 32 := 0
  extendedHighSeqNum : BitVec 32 := 0
  jitter : BitVec 32 := 0
  lastSr : BitVec 32 := 0
  delaySinceLastSr : BitVec 32 := 0
  reportBlockTimestampUtc : Int := 0
  reportBlockTimestamp : Int := 0
  lastRtt : Int := 0
  sumRtt : Int := 0
  numRtts : Nat := 0
deriving DecidableEq, Repr

namespace RtcpReportBlock

def kLength : Nat := 24

/-- A value that does not fit in 24 bits is not taken. -/
def setCumulativeLost (b : RtcpReportBlock) (cumulativeLost : BitVec 32) : RtcpReportBlock :=
  if 2 ^ 23 ≤ cumulativeLost.toInt ∨ cumulativeLost.toInt < -2 ^ 23 then b
  else { b with cumulativeLost }

def setReportBlock (self : RtcpReportBlock) (senderSsrc : BitVec 32) (reportBlock : RtcpReportBlock)
    (reportBlockTimestampUtc reportBlockTimestamp : Int) : RtcpReportBlock :=
  { self with
    senderSsrc
    sourceSsrc := reportBlock.sourceSsrc
    fractionLost := reportBlock.fractionLost
    cumulativeLost := reportBlock.cumulativeLost
    extendedHighSeqNum := reportBlock.extendedHighSeqNum
    jitter := reportBlock.jitter
    reportBlockTimestampUtc
    reportBlockTimestamp }

def addRoundTripTimeSample (b : RtcpReportBlock) (rtt : Int) : RtcpReportBlock :=
  { b with lastRtt := rtt, sumRtt := b.sumRtt + rtt, numRtts := b.numRtts + 1 }

def create (b : RtcpReportBlock) : Bytes :=
  put32 b.sourceSsrc ++ (b.fractionLost :: (put24 b.cumulativeLost ++ (put32 b.extendedHighSeqNum ++
    (put32 b.jitter ++ (put32 b.lastSr ++ put32 b.delaySinceLastSr)))))

/-- The sign of a number of 24 bits. -/
def signExtended (lost : BitVec 32) : BitVec 32 :=
  if lost &&& 0x800000 ≠ 0 then lost ||| 0xFF000000 else lost

/-- `Parse` of the octets from a position on. -/
def parse (buffer : Bytes) (pos : Nat) : Option RtcpReportBlock := do
  let sourceSsrc ← read32 buffer pos
  let fractionLost ← read8 buffer (pos + 4)
  let cumulativeLost ← read24 buffer (pos + 5)
  let extendedHighSeqNum ← read32 buffer (pos + 8)
  let jitter ← read32 buffer (pos + 12)
  let lastSr ← read32 buffer (pos + 16)
  let delaySinceLastSr ← read32 buffer (pos + 20)
  return { sourceSsrc, fractionLost, cumulativeLost := signExtended cumulativeLost,
           extendedHighSeqNum, jitter, lastSr, delaySinceLastSr }

end RtcpReportBlock

/-- The loop of both `Build`s over the blocks. -/
def writeBlocks (buffer : Bytes) (pos : Nat) : List RtcpReportBlock → Option Bytes
  | [] => some buffer
  | report :: rest => do
    let buffer ← put buffer pos report.create
    writeBlocks buffer (pos + RtcpReportBlock.kLength) rest

/-- The loop of both `Parse`s over the blocks: these, and the position behind them. -/
def readBlocks (payload : Bytes) : Nat → Nat → Option (List RtcpReportBlock × Nat)
  | 0, pos => some ([], pos)
  | count + 1, pos => do
    let report ← RtcpReportBlock.parse payload pos
    let (reports, pos) ← readBlocks payload count (pos + RtcpReportBlock.kLength)
    return (report :: reports, pos)

/-- The buffer of an earlier `Build` is used again if it has the right size. -/
def freshBuffer (buffer : Bytes) (bufferSize : Nat) : Bytes :=
  if bufferSize ≠ buffer.length then List.replicate bufferSize 0 else buffer

structure SenderInfo where
  senderSsrc : BitVec 32 := 0
  ntpTsMsw : BitVec 32 := 0
  ntpTsLsw : BitVec 32 := 0
  rtpTs : BitVec 32 := 0
  senderPacketCount : BitVec 32 := 0
  senderOctetCount : BitVec 32 := 0
deriving DecidableEq, Repr

structure SenderReport where
  senderSsrc : BitVec 32 := 0
  senderInfo : SenderInfo := {}
  reports : List RtcpReportBlock := []
  buffer : Bytes := []
deriving DecidableEq, Repr

namespace SenderReport

def setSenderSsrc (self : SenderReport) (ssrc : BitVec 32) : SenderReport :=
  { self with senderSsrc := ssrc, senderInfo := { self.senderInfo with senderSsrc := ssrc } }

def setNtpTimestamp (self : SenderReport) (ntpTimestamp : BitVec 64) : SenderReport :=
  { self with
    senderInfo := { self.senderInfo with
      ntpTsMsw := (ntpTimestamp >>> 32).setWidth 32
      ntpTsLsw := ntpTimestamp.setWidth 32 } }

def ntpTimestamp (self : SenderReport) : BitVec 64 :=
  self.senderInfo.ntpTsMsw.setWidth 64 <<< 32 ||| self.senderInfo.ntpTsLsw.setWidth 64

def compactNtpTimestamp (self : SenderReport) : BitVec 32 :=
  self.senderInfo.ntpTsMsw <<< 16 ||| self.senderInfo.ntpTsLsw >>> 16

def build (self : SenderReport) : Option SenderReport :=
  if 0x1f < self.reports.length then none
  else do
    let bufferSize := DEFAULT_RTCP_HEADER_SIZE + DEFAULT_SR_SIZE +
      self.reports.length * RtcpReportBlock.kLength
    let buffer := freshBuffer self.buffer bufferSize
    let buffer ← put buffer 0 (RtcpCommonHeader.create DEFAULT_RTCP_VERSION 0
      (BitVec.ofNat 8 self.reports.length) SR
      (BitVec.ofNat 16 ((bufferSize - DEFAULT_RTCP_HEADER_SIZE) / 4)))
    let buffer ← put buffer 4 (put32 self.senderInfo.senderSsrc)
    let buffer ← put buffer 8 (put32 self.senderInfo.ntpTsMsw)
    let buffer ← put buffer 12 (put32 self.senderInfo.ntpTsLsw)
    let buffer ← put buffer 16 (put32 self.senderInfo.rtpTs)
    let buffer ← put buffer 20 (put32 self.senderInfo.senderPacketCount)
    let buffer ← put buffer 24 (put32 self.senderInfo.senderOctetCount)
    let buffer ← writeBlocks buffer 28 self.reports
    return { self with buffer }

def parse (self : SenderReport) (packet : RtcpCommonHeader) : Option (Option SenderReport) :=
  let requiredPayloadSize := DEFAULT_SR_SIZE + packet.count * RtcpReportBlock.kLength
  if packet.payloadSize < requiredPayloadSize then some none
  else do
    let payload := packet.region
    let senderSsrc ← read32 payload 0
    let ntpTsMsw ← read32 payload 4
    let ntpTsLsw ← read32 payload 8
    let rtpTs ← read32 payload 12
    let senderPacketCount ← read32 payload 16
    let senderOctetCount ← read32 payload 20
    let (reports, pos) ← readBlocks payload packet.count 24
    return if pos = requiredPayloadSize then
      some { self with
        senderSsrc
        senderInfo := { senderSsrc, ntpTsMsw, ntpTsLsw, rtpTs, senderPacketCount, senderOctetCount }
        reports }
      else none

end SenderReport

structure ReceiverReport where
  senderSsrc : BitVec 32 := 0
  reports : List RtcpReportBlock := []
  buffer : Bytes := []
deriving DecidableEq, Repr

namespace ReceiverReport

def build (self : ReceiverReport) : Option ReceiverReport :=
  if 0x1f < self.reports.length then none
  else do
    let bufferSize := DEFAULT_RTCP_HEADER_SIZE + DEFAULT_RR_SIZE +
      self.reports.length * RtcpReportBlock.kLength
    let buffer := freshBuffer self.buffer bufferSize
    let buffer ← put buffer 0 (RtcpCommonHeader.create DEFAULT_RTCP_VERSION 0
      (BitVec.ofNat 8 self.reports.length) RR
      (BitVec.ofNat 16 ((bufferSize - DEFAULT_RTCP_HEADER_SIZE) / 4)))
    let buffer ← put buffer 4 (put32 self.senderSsrc)
    let buffer ← writeBlocks buffer 8 self.reports
    return { self with buffer }

/-- The inner `none` is a result of zero; what `Parse` reads is never empty otherwise. -/
def parse (self : ReceiverReport) (packet : RtcpCommonHeader) : Option (Option ReceiverReport) :=
  let requiredPayloadSize := DEFAULT_RR_SIZE + packet.count * RtcpReportBlock.kLength
  if packet.payloadSize < requiredPayloadSize then some none
  else do
    let payload := packet.region
    let senderSsrc ← read32 payload 0
    let (reports, pos) ← readBlocks payload packet.count 4
    return if pos = 0 then none else some { self with senderSsrc, reports }

end ReceiverReport

/-! ### Reads within the payload -/

/-- A header that was accepted announces no more than there is. -/
def RtcpCommonHeader.Inside (h : RtcpCommonHeader) : Prop := h.payloadSize ≤ h.payload.length

theorem RtcpCommonHeader.Inside.region_length {h : RtcpCommonHeader} (inside : h.Inside) :
    h.region.length = h.payloadSize := by
  rw [region, List.length_take, Nat.min_eq_left inside]

theorem RtcpReportBlock.parse_within {buffer : Bytes} {pos : Nat} (inside : pos + kLength ≤ buffer.length) :
    ∃ b, RtcpReportBlock.parse buffer pos = some b := by
  rw [kLength] at inside
  rw [RtcpReportBlock.parse, read32_eq (by omega), read8_eq (by omega), read24_eq (by omega),
    read32_eq (by omega), read32_eq (by omega), read32_eq (by omega), read32_eq (by omega)]
  exact ⟨_, rfl⟩

theorem readBlocks_within {payload : Bytes} {count pos : Nat}
    (inside : pos + RtcpReportBlock.kLength * count ≤ payload.length) :
    ∃ reports, readBlocks payload count pos = some (reports, pos + RtcpReportBlock.kLength * count) := by
  induction count generalizing pos with
  | zero => exact ⟨[], rfl⟩
  | succ count ih =>
    rw [Nat.mul_succ] at inside ⊢
    obtain ⟨report, first⟩ := RtcpReportBlock.parse_within (show pos + RtcpReportBlock.kLength ≤ payload.length by omega)
    have rest : pos + RtcpReportBlock.kLength + RtcpReportBlock.kLength * count ≤ payload.length := by omega
    obtain ⟨reports, later⟩ := ih rest
    refine ⟨report :: reports, ?_⟩
    simp only [readBlocks, first, later, Option.bind_eq_bind, Option.bind_some]
    rw [Nat.add_assoc, Nat.add_comm RtcpReportBlock.kLength]
    rfl

theorem SenderReport.parse_within (self : SenderReport) {packet : RtcpCommonHeader}
    (inside : packet.Inside) : ∃ result, self.parse packet = some result := by
  unfold SenderReport.parse
  simp only
  split
  · exact ⟨none, rfl⟩
  rename_i long
  have size := inside.region_length
  rw [DEFAULT_SR_SIZE] at long
  obtain ⟨reports, blocks⟩ := readBlocks_within
    (show 24 + RtcpReportBlock.kLength * packet.count ≤ packet.region.length by
      rw [Nat.mul_comm]
      omega)
  rw [read32_eq (by omega), read32_eq (by omega), read32_eq (by omega), read32_eq (by omega),
    read32_eq (by omega), read32_eq (by omega), blocks]
  exact ⟨_, rfl⟩

theorem ReceiverReport.parse_within (self : ReceiverReport) {packet : RtcpCommonHeader}
    (inside : packet.Inside) : ∃ result, self.parse packet = some result := by
  unfold ReceiverReport.parse
  simp only
  split
  · exact ⟨none, rfl⟩
  rename_i long
  have size := inside.region_length
  rw [DEFAULT_RR_SIZE] at long
  obtain ⟨reports, blocks⟩ := readBlocks_within
    (show 4 + RtcpReportBlock.kLength * packet.count ≤ packet.region.length by
      rw [Nat.mul_comm]
      omega)
  rw [read32_eq (by omega), blocks]
  exact ⟨_, rfl⟩

/-! ### The octets of a report -/

/-- What the wire carries of a block. -/
def RtcpReportBlock.wire (b : RtcpReportBlock) : RtcpReportBlock where
  sourceSsrc := b.sourceSsrc
  fractionLost := b.fractionLost
  cumulativeLost := b.cumulativeLost
  extendedHighSeqNum := b.extendedHighSeqNum
  jitter := b.jitter
  lastSr := b.lastSr
  delaySinceLastSr := b.delaySinceLastSr

/-- The cumulative loss is a number of 24 bits. -/
def RtcpReportBlock.LossFits (b : RtcpReportBlock) : Prop :=
  -2 ^ 23 ≤ b.cumulativeLost.toInt ∧ b.cumulativeLost.toInt < 2 ^ 23

instance (b : RtcpReportBlock) : Decidable b.LossFits := inferInstanceAs (Decidable (_ ∧ _))

@[simp] theorem RtcpReportBlock.create_length (b : RtcpReportBlock) : b.create.length = kLength := rfl

def blockOctets (reports : List RtcpReportBlock) : Bytes := reports.flatMap RtcpReportBlock.create

@[simp] theorem blockOctets_cons (report : RtcpReportBlock) (rest : List RtcpReportBlock) :
    blockOctets (report :: rest) = report.create ++ blockOctets rest := rfl

@[simp] theorem blockOctets_length (reports : List RtcpReportBlock) :
    (blockOctets reports).length = 24 * reports.length := by
  induction reports with
  | nil => rfl
  | cons report rest ih =>
    rw [blockOctets_cons, List.length_append, ih, RtcpReportBlock.create_length, List.length_cons,
      RtcpReportBlock.kLength]
    omega

theorem freshBuffer_length (buffer : Bytes) (bufferSize : Nat) :
    (freshBuffer buffer bufferSize).length = bufferSize := by
  unfold freshBuffer
  split
  · exact List.length_replicate
  · rename_i same
    exact (not_not.mp same).symm

/-- The blocks are written one behind the other. -/
theorem writeBlocks_eq (buffer done : Bytes) (reports : List RtcpReportBlock)
    (fits : done.length + 24 * reports.length ≤ buffer.length) :
    writeBlocks (overwrite buffer 0 done) done.length reports =
      some (overwrite buffer 0 (done ++ blockOctets reports)) := by
  induction reports generalizing done with
  | nil => simp [writeBlocks, blockOctets]
  | cons report rest ih =>
    rw [List.length_cons] at fits
    have first := put_behind buffer done report.create 0 (by
      rw [RtcpReportBlock.create_length, RtcpReportBlock.kLength]
      omega)
    rw [Nat.zero_add] at first
    have size : (done ++ report.create).length = done.length + RtcpReportBlock.kLength := by
      rw [List.length_append, RtcpReportBlock.create_length]
    have later := ih (done ++ report.create) (by
      rw [size, RtcpReportBlock.kLength]
      omega)
    rw [size] at later
    rw [writeBlocks, first, Option.bind_eq_bind, Option.bind_some, later, blockOctets_cons,
      List.append_assoc]

/-- The header of a packet without padding. -/
theorem parse_create {count : Nat} (few : count < 32) (payloadType : Byte) {words : Nat} {body : Bytes}
    (aligned : body.length = 4 * words) (short : words < 2 ^ 16) :
    RtcpCommonHeader.parse (RtcpCommonHeader.create DEFAULT_RTCP_VERSION 0 (BitVec.ofNat 8 count)
        payloadType (BitVec.ofNat 16 words) ++ body) =
      some { packetType := payloadType
             countOrFormat := BitVec.ofNat 8 count
             payloadSize := body.length
             payload := body } := by
  have first : ∀ count : Fin 32,
      (DEFAULT_RTCP_VERSION <<< 6 ||| (0 : Byte) <<< 5 ||| BitVec.ofNat 8 count.val) >>> 6 = 2 ∧
      (DEFAULT_RTCP_VERSION <<< 6 ||| (0 : Byte) <<< 5 ||| BitVec.ofNat 8 count.val) &&& 0x20 = 0 ∧
      (DEFAULT_RTCP_VERSION <<< 6 ||| (0 : Byte) <<< 5 ||| BitVec.ofNat 8 count.val) &&& 0x1F =
        BitVec.ofNat 8 count.val := by decide
  obtain ⟨version, padding, low⟩ := first ⟨count, few⟩
  generalize head : DEFAULT_RTCP_VERSION <<< 6 ||| (0 : Byte) <<< 5 ||| BitVec.ofNat 8 count = octet
    at version padding low
  have shape : RtcpCommonHeader.create DEFAULT_RTCP_VERSION 0 (BitVec.ofNat 8 count) payloadType
      (BitVec.ofNat 16 words) ++ body =
        [octet, payloadType] ++ (put16 (BitVec.ofNat 16 words) ++ body) := by
    rw [RtcpCommonHeader.create, head, List.append_assoc]
  rw [shape]
  generalize whole : [octet, payloadType] ++ (put16 (BitVec.ofNat 16 words) ++ body) = packet
  have zero : byteAt packet 0 = octet := by
    rw [← whole]
    rfl
  have one : byteAt packet 1 = payloadType := by
    rw [← whole]
    rfl
  have payload : packet.drop 4 = body := by
    rw [← whole]
    rfl
  have size : packet.length = 4 + body.length := by
    rw [← whole, List.length_append, List.length_append, put16_length]
    simp only [List.length_cons, List.length_nil]
    omega
  have field : get16 packet 2 = BitVec.ofNat 16 words := by
    rw [← whole]
    exact get16_put16 _ _ _ _ rfl
  have octets : (get16 packet 2).toNat * 4 = body.length := by
    rw [field, BitVec.toNat_ofNat, Nat.mod_eq_of_lt short]
    omega
  simp only [RtcpCommonHeader.parse, zero, one, payload, octets, size, version, padding, low]
  rw [if_neg (by omega), if_neg (by simp), if_neg (by omega), if_neg (by simp)]

/-- A number of 24 bits comes back with its sign. -/
theorem signExtended_eq {v : BitVec 32} (low : -2 ^ 23 ≤ v.toInt) (high : v.toInt < 2 ^ 23) :
    RtcpReportBlock.signExtended (BitVec.ofNat 32 (v.toNat % 2 ^ 24)) = v := by
  have value := v.toInt_eq_toNat_cond
  have wide := v.isLt
  have bit : (BitVec.ofNat 32 (v.toNat % 2 ^ 24) &&& 0x800000 = 0) ↔ v.toNat % 2 ^ 24 < 2 ^ 23 := by
    rw [← BitVec.toNat_inj, BitVec.toNat_and, BitVec.toNat_ofNat, Nat.mod_eq_of_lt (by omega)]
    rw [show (0x800000 : BitVec 32).toNat = 2 ^ 23 from rfl, Nat.and_two_pow, Nat.testBit_eq_decide_div_mod_eq]
    by_cases small : v.toNat % 2 ^ 24 < 2 ^ 23
    · rw [Nat.div_eq_of_lt small]
      exact iff_of_true (by simp) small
    · have one : v.toNat % 2 ^ 24 / 2 ^ 23 = 1 := by omega
      rw [one]
      exact iff_of_false (by simp) small
  unfold RtcpReportBlock.signExtended
  by_cases positive : v.toNat % 2 ^ 24 < 2 ^ 23
  · rw [if_neg (not_not.mpr (bit.mpr positive))]
    apply BitVec.eq_of_toNat_eq
    rw [BitVec.toNat_ofNat]
    split at value <;> omega
  · rw [if_pos (fun zero => positive (bit.mp zero))]
    apply BitVec.eq_of_toNat_eq
    rw [BitVec.toNat_or, BitVec.toNat_ofNat, Nat.mod_eq_of_lt (by omega), Nat.or_comm,
      show (0xFF000000 : BitVec 32).toNat = 2 ^ 24 * 255 from rfl,
      ← Nat.two_pow_add_eq_or_of_lt (by omega)]
    split at value <;> omega

/-- A block is read where it was written. -/
theorem parse_block (front back : Bytes) {b : RtcpReportBlock} (fits : b.LossFits) :
    RtcpReportBlock.parse (front ++ (b.create ++ back)) front.length = some b.wire := by
  obtain ⟨sender, source, fraction, lost, high, jitter, lastSr, delay, _, _, _, _, _⟩ := b
  have first := read32_put32 front (fraction :: (put24 lost ++ (put32 high ++ (put32 jitter ++
    (put32 lastSr ++ (put32 delay ++ back)))))) source
  have second := read8_cons (front ++ put32 source) (put24 lost ++ (put32 high ++ (put32 jitter ++
    (put32 lastSr ++ (put32 delay ++ back))))) fraction
  have third := read24_put24 (front ++ put32 source ++ [fraction]) (put32 high ++ (put32 jitter ++
    (put32 lastSr ++ (put32 delay ++ back)))) lost
  have fourth := read32_put32 (front ++ put32 source ++ [fraction] ++ put24 lost) (put32 jitter ++
    (put32 lastSr ++ (put32 delay ++ back))) high
  have fifth := read32_put32 (front ++ put32 source ++ [fraction] ++ put24 lost ++ put32 high)
    (put32 lastSr ++ (put32 delay ++ back)) jitter
  have sixth := read32_put32 (front ++ put32 source ++ [fraction] ++ put24 lost ++ put32 high ++
    put32 jitter) (put32 delay ++ back) lastSr
  have seventh := read32_put32 (front ++ put32 source ++ [fraction] ++ put24 lost ++ put32 high ++
    put32 jitter ++ put32 lastSr) back delay
  simp only [List.length_append, put32_length, put24_length, List.length_cons, List.length_nil,
    List.append_assoc, List.cons_append, List.nil_append, Nat.reduceAdd]
    at first second third fourth fifth sixth seventh
  simp only [RtcpReportBlock.parse, RtcpReportBlock.create, List.append_assoc, List.cons_append,
    first, second, third, fourth, fifth, sixth, seventh, Option.bind_eq_bind, Option.bind_some,
    RtcpReportBlock.wire, signExtended_eq fits.1 fits.2]
  rfl

/-- The loop reads the blocks that were written, in order. -/
theorem readBlocks_eq (front back : Bytes) (reports : List RtcpReportBlock)
    (fit : ∀ r ∈ reports, r.LossFits) :
    readBlocks (front ++ (blockOctets reports ++ back)) reports.length front.length =
      some (reports.map RtcpReportBlock.wire, front.length + 24 * reports.length) := by
  induction reports generalizing front with
  | nil => rfl
  | cons report rest ih =>
    have later := ih (front ++ report.create) fun r member => fit r (List.mem_cons_of_mem _ member)
    rw [List.length_append, RtcpReportBlock.create_length, List.append_assoc] at later
    have first := parse_block front (blockOctets rest ++ back) (fit report List.mem_cons_self)
    simp only [blockOctets_cons, List.append_assoc, List.length_cons, readBlocks, first, later,
      Option.bind_eq_bind, Option.bind_some, List.map_cons]
    rw [RtcpReportBlock.kLength, Nat.add_assoc, Nat.mul_succ, Nat.add_comm 24]
    rfl

/-! ### What is written is read -/

def SenderInfo.octets (i : SenderInfo) : Bytes :=
  put32 i.senderSsrc ++ (put32 i.ntpTsMsw ++ (put32 i.ntpTsLsw ++ (put32 i.rtpTs ++
    (put32 i.senderPacketCount ++ put32 i.senderOctetCount))))

@[simp] theorem SenderInfo.octets_length (i : SenderInfo) : i.octets.length = 24 := rfl

/-- The header of a report that has octets of its own before the blocks. -/
def packetHeader (type : Byte) (own : Bytes) (reports : List RtcpReportBlock) : Bytes :=
  RtcpCommonHeader.create DEFAULT_RTCP_VERSION 0 (BitVec.ofNat 8 reports.length) type
    (BitVec.ofNat 16 ((own.length + 24 * reports.length) / 4))

/-- A report as it is sent. -/
def packetOctets (type : Byte) (own : Bytes) (reports : List RtcpReportBlock) : Bytes :=
  packetHeader type own reports ++ (own ++ blockOctets reports)

section Packet

variable (type : Byte) (own : Bytes) {reports : List RtcpReportBlock}

theorem packetHeader_length : (packetHeader type own reports).length = 4 := rfl

theorem packetOctets_length :
    (packetOctets type own reports).length = 4 + own.length + 24 * reports.length := by
  rw [packetOctets, List.length_append, List.length_append, blockOctets_length, packetHeader_length,
    Nat.add_assoc]

/-- The header announces the whole packet. -/
theorem parse_packetOctets (few : reports.length ≤ 31) (aligned : own.length % 4 = 0)
    (short : own.length ≤ 24) :
    RtcpCommonHeader.parse (packetOctets type own reports) =
      some { packetType := type
             countOrFormat := BitVec.ofNat 8 reports.length
             payloadSize := (own ++ blockOctets reports).length
             payload := own ++ blockOctets reports } := by
  refine parse_create (by omega) type ?_ (by omega)
  rw [List.length_append, blockOctets_length]
  omega

/-- A write behind all that is written so far. -/
theorem put_next {buffer done v : Bytes} {position : Nat} (here : done.length = position)
    (fits : position + v.length ≤ buffer.length) :
    put (overwrite buffer 0 done) position v = some (overwrite buffer 0 (done ++ v)) := by
  have behind := put_behind buffer done v 0 (by omega)
  rwa [Nat.zero_add, here] at behind

theorem overwrite_whole {buffer v : Bytes} (same : v.length = buffer.length) :
    overwrite buffer 0 v = v := by
  rw [overwrite, List.take_zero, List.nil_append, Nat.zero_add, same, List.drop_length, List.append_nil]

/-- The blocks fill the buffer. -/
theorem writeBlocks_last {buffer done : Bytes} {position : Nat}
    (before : packetHeader type own reports ++ own = done) (here : done.length = position)
    (size : buffer.length = position + 24 * reports.length) :
    writeBlocks (overwrite buffer 0 done) position reports = some (packetOctets type own reports) := by
  have blocks := writeBlocks_eq buffer done reports (by omega)
  have whole : done ++ blockOctets reports = packetOctets type own reports := by
    rw [packetOctets, ← before, List.append_assoc]
  have filled : overwrite buffer 0 (done ++ blockOctets reports) = done ++ blockOctets reports :=
    overwrite_whole (by rw [List.length_append, blockOctets_length, here, size])
  rwa [here, filled, whole] at blocks

end Packet

theorem SenderReport.build_eq {self : SenderReport} (few : self.reports.length ≤ 31) :
    self.build = some { self with buffer := packetOctets SR self.senderInfo.octets self.reports } := by
  have size := freshBuffer_length self.buffer (28 + self.reports.length * 24)
  have words : (28 + self.reports.length * 24 - 4) / 4 =
      (self.senderInfo.octets.length + 24 * self.reports.length) / 4 := by
    rw [SenderInfo.octets_length]
    omega
  simp only [SenderReport.build, RtcpReportBlock.kLength, DEFAULT_SR_SIZE, DEFAULT_RTCP_HEADER_SIZE,
    Nat.reduceAdd]
  rw [if_neg (by omega), words]
  generalize freshBuffer self.buffer _ = buffer at size ⊢
  generalize header : RtcpCommonHeader.create DEFAULT_RTCP_VERSION 0 _ SR _ = head
  have four : head.length = 4 := by
    rw [← header]
    rfl
  have start : put buffer 0 head = some (overwrite buffer 0 head) := put_eq (by omega)
  simp only [start, Option.bind_eq_bind, Option.bind_some]
  rw [put_next four (by rw [put32_length]; omega), Option.bind_some,
    put_next (by simp [four]) (by rw [put32_length]; omega), Option.bind_some,
    put_next (by simp [four]) (by rw [put32_length]; omega), Option.bind_some,
    put_next (by simp [four]) (by rw [put32_length]; omega), Option.bind_some,
    put_next (by simp [four]) (by rw [put32_length]; omega), Option.bind_some,
    put_next (by simp [four]) (by rw [put32_length]; omega), Option.bind_some,
    writeBlocks_last SR self.senderInfo.octets ?_ (by simp [four]) (by omega)]
  · rfl
  · rw [packetHeader, header, SenderInfo.octets]
    simp only [List.append_assoc]

theorem ReceiverReport.build_eq {self : ReceiverReport} (few : self.reports.length ≤ 31) :
    self.build = some { self with buffer := packetOctets RR (put32 self.senderSsrc) self.reports } := by
  have size := freshBuffer_length self.buffer (8 + self.reports.length * 24)
  have words : (8 + self.reports.length * 24 - 4) / 4 =
      ((put32 self.senderSsrc).length + 24 * self.reports.length) / 4 := by
    rw [put32_length]
    omega
  simp only [ReceiverReport.build, RtcpReportBlock.kLength, DEFAULT_RR_SIZE, DEFAULT_RTCP_HEADER_SIZE,
    Nat.reduceAdd]
  rw [if_neg (by omega), words]
  generalize freshBuffer self.buffer _ = buffer at size ⊢
  generalize header : RtcpCommonHeader.create DEFAULT_RTCP_VERSION 0 _ RR _ = head
  have four : head.length = 4 := by
    rw [← header]
    rfl
  have start : put buffer 0 head = some (overwrite buffer 0 head) := put_eq (by omega)
  simp only [start, Option.bind_eq_bind, Option.bind_some]
  rw [put_next four (by rw [put32_length]; omega), Option.bind_some,
    writeBlocks_last RR (put32 self.senderSsrc) ?_ (by simp [four]) (by omega)]
  · rfl
  · rw [packetHeader, header]

/-- The packet that both kinds of report are read from. -/
def packetOf (type : Byte) (own : Bytes) (reports : List RtcpReportBlock) : RtcpCommonHeader where
  packetType := type
  countOrFormat := BitVec.ofNat 8 reports.length
  payloadSize := (own ++ blockOctets reports).length
  payload := own ++ blockOctets reports

section Reading

variable (type : Byte) (own : Bytes) {reports : List RtcpReportBlock}

theorem packetOf_count (few : reports.length ≤ 31) : (packetOf type own reports).count = reports.length := by
  show (BitVec.ofNat 8 reports.length).toNat = _
  rw [BitVec.toNat_ofNat, Nat.mod_eq_of_lt (by omega)]

theorem packetOf_region : (packetOf type own reports).region = own ++ blockOctets reports :=
  List.take_length

theorem readBlocks_packetOf (fit : ∀ r ∈ reports, r.LossFits) :
    readBlocks (own ++ blockOctets reports) reports.length own.length =
      some (reports.map RtcpReportBlock.wire, own.length + 24 * reports.length) := by
  have read := readBlocks_eq own [] reports fit
  rwa [List.append_nil] at read

end Reading

theorem SenderReport.parse_eq (self : SenderReport) (info : SenderInfo) {reports : List RtcpReportBlock}
    (few : reports.length ≤ 31) (fit : ∀ r ∈ reports, r.LossFits) :
    self.parse (packetOf SR info.octets reports) = some (some { self with
      senderSsrc := info.senderSsrc
      senderInfo := info
      reports := reports.map RtcpReportBlock.wire }) := by
  have blocks := readBlocks_packetOf info.octets fit
  obtain ⟨ssrc, msw, lsw, rtp, packets, octets⟩ := info
  have first := read32_put32 [] (put32 msw ++ (put32 lsw ++ (put32 rtp ++ (put32 packets ++
    (put32 octets ++ blockOctets reports))))) ssrc
  have second := read32_put32 (put32 ssrc) (put32 lsw ++ (put32 rtp ++ (put32 packets ++
    (put32 octets ++ blockOctets reports)))) msw
  have third := read32_put32 (put32 ssrc ++ put32 msw) (put32 rtp ++ (put32 packets ++
    (put32 octets ++ blockOctets reports))) lsw
  have fourth := read32_put32 (put32 ssrc ++ put32 msw ++ put32 lsw) (put32 packets ++
    (put32 octets ++ blockOctets reports)) rtp
  have fifth := read32_put32 (put32 ssrc ++ put32 msw ++ put32 lsw ++ put32 rtp)
    (put32 octets ++ blockOctets reports) packets
  have sixth := read32_put32 (put32 ssrc ++ put32 msw ++ put32 lsw ++ put32 rtp ++ put32 packets)
    (blockOctets reports) octets
  have short : ¬ (packetOf SR (SenderInfo.octets ⟨ssrc, msw, lsw, rtp, packets, octets⟩) reports).payloadSize <
      DEFAULT_SR_SIZE + reports.length * RtcpReportBlock.kLength := by
    simp only [packetOf, List.length_append, blockOctets_length, SenderInfo.octets_length,
      DEFAULT_SR_SIZE, RtcpReportBlock.kLength]
    omega
  simp only [SenderReport.parse, packetOf_count _ _ few, packetOf_region, if_neg short]
  simp only [SenderInfo.octets, List.append_assoc, List.nil_append, List.length_nil, List.length_append,
    put32_length, Nat.reduceAdd] at first second third fourth fifth sixth blocks ⊢
  simp only [first, second, third, fourth, fifth, sixth, blocks, Option.bind_eq_bind, Option.bind_some]
  rw [if_pos (by rw [DEFAULT_SR_SIZE, RtcpReportBlock.kLength]; omega)]
  rfl

theorem ReceiverReport.parse_eq (self : ReceiverReport) (ssrc : BitVec 32) {reports : List RtcpReportBlock}
    (few : reports.length ≤ 31) (fit : ∀ r ∈ reports, r.LossFits) :
    self.parse (packetOf RR (put32 ssrc) reports) =
      some (some { self with senderSsrc := ssrc, reports := reports.map RtcpReportBlock.wire }) := by
  have blocks := readBlocks_packetOf (put32 ssrc) fit
  have first := read32_put32 [] (blockOctets reports) ssrc
  have short : ¬ (packetOf RR (put32 ssrc) reports).payloadSize <
      DEFAULT_RR_SIZE + reports.length * RtcpReportBlock.kLength := by
    simp only [packetOf, List.length_append, blockOctets_length, put32_length, DEFAULT_RR_SIZE,
      RtcpReportBlock.kLength]
    omega
  rw [put32_length] at blocks
  rw [List.nil_append, List.length_nil] at first
  simp only [ReceiverReport.parse, packetOf_count _ _ few, packetOf_region, if_neg short, first, blocks,
    Option.bind_eq_bind, Option.bind_some]
  rw [if_neg (by omega)]
  rfl

/-- The octets are whole words, and the header that is read from them announces all of them. -/
structure Announces (buffer : Bytes) (type : Byte) (packet : RtcpCommonHeader) : Prop where
  words : buffer.length % 4 = 0
  parsed : RtcpCommonHeader.parse buffer = some packet
  type : packet.packetType = type
  size : packet.packetSize = buffer.length

theorem announces_packetOctets (type : Byte) (own : Bytes) {reports : List RtcpReportBlock}
    (few : reports.length ≤ 31) (aligned : own.length % 4 = 0) (short : own.length ≤ 24) :
    Announces (packetOctets type own reports) type (packetOf type own reports) := by
  constructor
  · rw [packetOctets_length]
    omega
  · exact parse_packetOctets type own few aligned short
  · rfl
  · rw [packetOctets_length]
    simp only [RtcpCommonHeader.packetSize, packetOf, List.length_append, blockOctets_length]
    omega

/-- Every field of a report comes back, and the blocks in their order. -/
theorem report_round_trip (reports : List RtcpReportBlock) (few : reports.length ≤ 31)
    (fit : ∀ r ∈ reports, r.LossFits) :
    (∀ self fresh : SenderReport, self.reports = reports → ∃ built packet parsed,
      self.build = some built ∧ Announces built.buffer SR packet ∧
      fresh.parse packet = some (some parsed) ∧ parsed.senderInfo = self.senderInfo ∧
      parsed.senderSsrc = self.senderInfo.senderSsrc ∧
      parsed.reports = reports.map RtcpReportBlock.wire) ∧
    (∀ self fresh : ReceiverReport, self.reports = reports → ∃ built packet parsed,
      self.build = some built ∧ Announces built.buffer RR packet ∧
      fresh.parse packet = some (some parsed) ∧ parsed.senderSsrc = self.senderSsrc ∧
      parsed.reports = reports.map RtcpReportBlock.wire) := by
  constructor
  · rintro self fresh rfl
    exact ⟨_, _, _, SenderReport.build_eq few, announces_packetOctets SR _ few (by simp) (by simp),
      fresh.parse_eq self.senderInfo few fit, rfl, rfl, rfl⟩
  · rintro self fresh rfl
    exact ⟨_, _, _, ReceiverReport.build_eq few, announces_packetOctets RR _ few (by simp) (by simp),
      fresh.parse_eq self.senderSsrc few fit, rfl, rfl⟩

/-- Two blocks, one with the least loss. -/
def twoBlocks : List RtcpReportBlock :=
  [{ sourceSsrc := 7, fractionLost := 255, cumulativeLost := BitVec.ofInt 32 (-2 ^ 23), lastSr := 9 },
    { sourceSsrc := 8, cumulativeLost := 2 ^ 23 - 1, extendedHighSeqNum := 70000, jitter := 3 }]

theorem report_round_trip_two :
    (∀ self fresh : SenderReport, self.reports = twoBlocks → ∃ built packet parsed,
      self.build = some built ∧ Announces built.buffer SR packet ∧
      fresh.parse packet = some (some parsed) ∧ parsed.senderInfo = self.senderInfo ∧
      parsed.senderSsrc = self.senderInfo.senderSsrc ∧
      parsed.reports = twoBlocks.map RtcpReportBlock.wire) ∧
    (∀ self fresh : ReceiverReport, self.reports = twoBlocks → ∃ built packet parsed,
      self.build = some built ∧ Announces built.buffer RR packet ∧
      fresh.parse packet = some (some parsed) ∧ parsed.senderSsrc = self.senderSsrc ∧
      parsed.reports = twoBlocks.map RtcpReportBlock.wire) :=
  report_round_trip twoBlocks (by decide) (by decide)

end MiniRtc.Rtcp
