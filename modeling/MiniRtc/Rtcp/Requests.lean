import MiniRtc.Rtcp.Reports

/-! The other RTCP blocks that are read: NACK (nack.cpp), FIR (fir.cpp), the extended report
(receiver_rtt.h), and the congestion control feedback once more with checked reads.
The outer `none` is a read beyond the payload of the block, or a loop that its turns do not
suffice for; the inner one is a refusal. -/
namespace MiniRtc.Rtcp
open Wire

def kCommonFeedbackLength : Nat := 8

/-! ### The common header, with checked reads -/

namespace RtcpCommonHeader

/-- `Parse`, reading nothing but what is left of the compound packet. -/
def parseChecked (buffer : Bytes) : Option (Option RtcpCommonHeader) :=
  if buffer.length < 4 then some none
  else do
    let first ← read8 buffer 0
    if first >>> 6 ≠ 2 then return none
    else
      let hasPadding := first &&& 0x20 ≠ 0
      let packetType ← read8 buffer 1
      let words ← read16 buffer 2
      let h : RtcpCommonHeader :=
        { countOrFormat := first &&& 0x1F
          packetType
          payloadSize := words.toNat * 4
          payload := buffer.drop 4 }
      if buffer.length < 4 + h.payloadSize then return none
      else if hasPadding then
        if h.payloadSize = 0 then return none
        else
          let last ← read8 buffer (4 + (h.payloadSize - 1))
          let paddingSize := last.toNat
          if paddingSize = 0 ∨ h.payloadSize < paddingSize then return none
          else return some { h with paddingSize, payloadSize := h.payloadSize - paddingSize }
      else return some h

theorem parseChecked_eq (buffer : Bytes) : parseChecked buffer = some (parse buffer) := by
  unfold parseChecked parse
  by_cases short : buffer.length < 4
  · rw [if_pos short, if_pos short]
  rw [if_neg short, if_neg short, read8_eq (by omega), read8_eq (by omega), read16_eq (by omega)]
  simp only [Option.bind_eq_bind, Option.bind_some]
  by_cases version : byteAt buffer 0 >>> 6 ≠ 2
  · rw [if_pos version, if_pos version]
    rfl
  rw [if_neg version, if_neg version]
  generalize (get16 buffer 2).toNat * 4 = payloadSize
  by_cases long : buffer.length < 4 + payloadSize
  · rw [if_pos long, if_pos long]
    rfl
  rw [if_neg long, if_neg long]
  by_cases padded : byteAt buffer 0 &&& 0x20 ≠ 0
  · rw [if_pos padded, if_pos padded]
    by_cases empty : payloadSize = 0
    · rw [if_pos empty, if_pos empty]
      rfl
    rw [if_neg empty, if_neg empty, read8_eq (by omega), Option.bind_some, byteAt_drop]
    split <;> rfl
  · rw [if_neg padded, if_neg padded]
    rfl

/-- An accepted header: four octets, the payload, and the padding. -/
theorem parse_inside {buffer : Bytes} {h : RtcpCommonHeader} (parsed : parse buffer = some h) :
    h.payload = buffer.drop 4 ∧ h.packetSize ≤ buffer.length ∧ h.Inside := by
  unfold parse at parsed
  split at parsed
  · cases parsed
  rename_i four
  split at parsed
  · cases parsed
  simp only at parsed
  split at parsed
  · cases parsed
  rename_i long
  split at parsed
  · split at parsed
    · cases parsed
    split at parsed
    · cases parsed
    rename_i room
    cases parsed
    refine ⟨rfl, ?_, ?_⟩
    · simp only [packetSize]
      omega
    · simp only [Inside, List.length_drop]
      omega
  · cases parsed
    refine ⟨rfl, ?_, ?_⟩
    · simp only [packetSize]
      omega
    · simp only [Inside, List.length_drop]
      omega

end RtcpCommonHeader

/-! ### NACK -/

namespace Nack

def kNackItemLength : Nat := 4
def kFeedbackMessageType : Byte := 1

end Nack

structure PackedNack where
  firstPid : BitVec 16
  bitmask : BitVec 16
deriving DecidableEq, Repr

structure Nack where
  senderSsrc : BitVec 32 := 0
  mediaSsrc : BitVec 32 := 0
  packed : List PackedNack := []
  packetIds : List (BitVec 16) := []
deriving DecidableEq, Repr

namespace Nack

/-- The loop over the bits of a mask. Sixteen shifts leave nothing of it. -/
def unpackBits : Nat → BitVec 16 → BitVec 16 → List (BitVec 16)
  | 0, _, _ => []
  | turns + 1, bitmask, pid =>
    if bitmask = 0 then []
    else
      let later := unpackBits turns (bitmask >>> 1) (pid + 1)
      if bitmask &&& 1 ≠ 0 then pid :: later else later

def unpack (packed : List PackedNack) : List (BitVec 16) :=
  packed.flatMap fun item => item.firstPid :: unpackBits 16 item.bitmask (item.firstPid + 1)

def readItems (payload : Bytes) : Nat → Nat → Option (List PackedNack)
  | 0, _ => some []
  | count + 1, pos => do
    let firstPid ← read16 payload pos
    let bitmask ← read16 payload (pos + 2)
    let later ← readItems payload count (pos + kNackItemLength)
    return ⟨firstPid, bitmask⟩ :: later

/-- `Parse` into a fresh object. -/
def parse (packet : RtcpCommonHeader) : Option (Option Nack) :=
  if packet.payloadSize < kCommonFeedbackLength + kNackItemLength then some none
  else do
    let payload := packet.region
    let nackItems := (packet.payloadSize - kCommonFeedbackLength) / kNackItemLength
    let senderSsrc ← read32 payload 0
    let mediaSsrc ← read32 payload 4
    let packed ← readItems payload nackItems kCommonFeedbackLength
    return some { senderSsrc, mediaSsrc, packed, packetIds := unpack packed }

theorem readItems_within {payload : Bytes} {count pos : Nat}
    (inside : pos + kNackItemLength * count ≤ payload.length) :
    ∃ items, readItems payload count pos = some items := by
  induction count generalizing pos with
  | zero => exact ⟨[], rfl⟩
  | succ count ih =>
    rw [Nat.mul_succ, kNackItemLength] at inside
    obtain ⟨later, read⟩ := @ih (pos + kNackItemLength) (by
      rw [kNackItemLength]
      omega)
    rw [readItems, read16_eq (by omega), read16_eq (by omega), read]
    exact ⟨_, rfl⟩

theorem parse_within {packet : RtcpCommonHeader} (inside : packet.Inside) :
    ∃ result, parse packet = some result := by
  unfold parse
  split
  · exact ⟨none, rfl⟩
  rename_i long
  have size := inside.region_length
  rw [kCommonFeedbackLength, kNackItemLength] at long
  obtain ⟨items, read⟩ := @readItems_within packet.region
    ((packet.payloadSize - kCommonFeedbackLength) / kNackItemLength) kCommonFeedbackLength (by
      rw [kCommonFeedbackLength, kNackItemLength]
      omega)
  simp only
  rw [read32_eq (by omega), read32_eq (by omega), read]
  exact ⟨_, rfl⟩

end Nack

/-! ### FIR -/

structure Fir where
  senderSsrc : BitVec 32 := 0
  mediaSsrc : BitVec 32 := 0
  requests : List (BitVec 32 × Byte) := []
deriving DecidableEq, Repr

namespace Fir

def kPacketType : Byte := 206
def kFeedbackMessageType : Byte := 4
def kFciLength : Nat := 8

def readRequests (payload : Bytes) : Nat → Nat → Option (List (BitVec 32 × Byte))
  | 0, _ => some []
  | count + 1, pos => do
    let ssrc ← read32 payload pos
    let seqNr ← read8 payload (pos + 4)
    let later ← readRequests payload count (pos + kFciLength)
    return (ssrc, seqNr) :: later

def parse (packet : RtcpCommonHeader) : Option (Option Fir) :=
  if packet.payloadSize < kCommonFeedbackLength + kFciLength then some none
  else if (packet.payloadSize - kCommonFeedbackLength) % kFciLength ≠ 0 then some none
  else do
    let payload := packet.region
    let senderSsrc ← read32 payload 0
    let mediaSsrc ← read32 payload 4
    let requests ← readRequests payload ((packet.payloadSize - kCommonFeedbackLength) / kFciLength)
      kCommonFeedbackLength
    return some { senderSsrc, mediaSsrc, requests }

theorem readRequests_within {payload : Bytes} {count pos : Nat}
    (inside : pos + kFciLength * count ≤ payload.length) :
    ∃ requests, readRequests payload count pos = some requests := by
  induction count generalizing pos with
  | zero => exact ⟨[], rfl⟩
  | succ count ih =>
    rw [Nat.mul_succ, kFciLength] at inside
    obtain ⟨later, read⟩ := @ih (pos + kFciLength) (by
      rw [kFciLength]
      omega)
    rw [readRequests, read32_eq (by omega), read8_eq (by omega), read]
    exact ⟨_, rfl⟩

theorem parse_within {packet : RtcpCommonHeader} (inside : packet.Inside) :
    ∃ result, parse packet = some result := by
  unfold parse
  split
  · exact ⟨none, rfl⟩
  split
  · exact ⟨none, rfl⟩
  rename_i long whole
  have size := inside.region_length
  rw [kCommonFeedbackLength, kFciLength] at long
  obtain ⟨requests, read⟩ := @readRequests_within packet.region
    ((packet.payloadSize - kCommonFeedbackLength) / kFciLength) kCommonFeedbackLength (by
      rw [kCommonFeedbackLength, kFciLength]
      omega)
  simp only
  rw [read32_eq (by omega), read32_eq (by omega), read]
  exact ⟨_, rfl⟩

end Fir

/-! ### The extended report -/

structure Dlrr where
  ssrc : BitVec 32
  lastRr : BitVec 32
  delay : BitVec 32
deriving DecidableEq, Repr

/-- `ReceiverRtt::Report`. -/
structure RttReport where
  senderSsrc : BitVec 32 := 0
  referenceTime : Option (BitVec 64) := none
  replies : List Dlrr := []
deriving DecidableEq, Repr

namespace RttReport

/-- A reference time on a reply does not start another exchange. -/
def needsReply (report : RttReport) : Bool :=
  report.referenceTime.any (fun time => time ≠ 0) && report.replies.isEmpty

def readReplies (payload : Bytes) : Nat → Nat → Option (List Dlrr)
  | 0, _ => some []
  | count + 1, pos => do
    let ssrc ← read32 payload pos
    let lastRr ← read32 payload (pos + 4)
    let delay ← read32 payload (pos + 8)
    let later ← readReplies payload count (pos + 12)
    return ⟨ssrc, lastRr, delay⟩ :: later

/-- The length of a block from its two octets. -/
def blockLength (payload : Bytes) (pos : Nat) : Option Nat := do
  let high ← read8 payload (pos + 2)
  let low ← read8 payload (pos + 3)
  return (high.toNat * 256 + low.toNat + 1) * 4

/-- One block of a known length. -/
def parseBlock (payload : Bytes) (pos length : Nat) (report : RttReport) : Option (Option RttReport) := do
  let blockType ← read8 payload pos
  if blockType = 4 then
    if length ≠ 12 ∨ report.referenceTime.isSome then return none
    else
      let high ← read32 payload (pos + 4)
      let low ← read32 payload (pos + 8)
      return some { report with referenceTime := some (high ++ low) }
  else if blockType = 5 then
    if (length - 4) % 12 ≠ 0 then return none
    else
      let replies ← readReplies payload ((length - 4) / 12) (pos + 4)
      return some { report with replies := report.replies ++ replies }
  else return some report

/-- The loop over the blocks; every one of them has four octets at least. -/
def parseBlocks (payload : Bytes) : Nat → Nat → RttReport → Option (Option RttReport)
  | 0, _, _ => none
  | turns + 1, pos, report =>
    if payload.length ≤ pos then some (some report)
    else if payload.length - pos < 4 then some none
    else do
      let length ← blockLength payload pos
      if payload.length - pos < length then return none
      else
        match ← parseBlock payload pos length report with
        | none => return none
        | some report => parseBlocks payload turns (pos + length) report

/-- `ReceiverRtt::Parse`. -/
def parse (payload : Bytes) : Option (Option RttReport) :=
  if payload.length < 4 then some none
  else do
    let senderSsrc ← read32 payload 0
    parseBlocks payload payload.length 4 { senderSsrc }

theorem readReplies_within {payload : Bytes} {count pos : Nat}
    (inside : pos + 12 * count ≤ payload.length) :
    ∃ replies, readReplies payload count pos = some replies := by
  induction count generalizing pos with
  | zero => exact ⟨[], rfl⟩
  | succ count ih =>
    obtain ⟨later, read⟩ := @ih (pos + 12) (by omega)
    rw [readReplies, read32_eq (by omega), read32_eq (by omega), read32_eq (by omega), read]
    exact ⟨_, rfl⟩

theorem blockLength_within {payload : Bytes} {pos : Nat} (inside : pos + 4 ≤ payload.length) :
    ∃ length, blockLength payload pos = some length ∧ 4 ≤ length := by
  rw [blockLength, read8_eq (by omega), read8_eq (by omega)]
  exact ⟨_, rfl, by omega⟩

theorem parseBlock_within {payload : Bytes} {pos length : Nat} (least : 4 ≤ length)
    (inside : pos + length ≤ payload.length) (report : RttReport) :
    ∃ result, parseBlock payload pos length report = some result := by
  rw [parseBlock, read8_eq (by omega)]
  simp only [Option.bind_eq_bind, Option.bind_some]
  split
  · split
    · exact ⟨_, rfl⟩
    · rename_i twelve
      rw [read32_eq (by omega), read32_eq (by omega)]
      exact ⟨_, rfl⟩
  split
  · split
    · exact ⟨_, rfl⟩
    · obtain ⟨replies, read⟩ := @readReplies_within payload ((length - 4) / 12) (pos + 4) (by omega)
      rw [read]
      exact ⟨_, rfl⟩
  · exact ⟨_, rfl⟩

theorem parseBlocks_within {payload : Bytes} {turns pos : Nat} (positive : 0 < turns)
    (enough : payload.length < turns + pos) (report : RttReport) :
    ∃ result, parseBlocks payload turns pos report = some result := by
  induction turns generalizing pos report with
  | zero => exact absurd positive (Nat.lt_irrefl 0)
  | succ turns ih =>
    rw [parseBlocks]
    split
    · exact ⟨_, rfl⟩
    split
    · exact ⟨_, rfl⟩
    obtain ⟨length, announced, least⟩ := @blockLength_within payload pos (by omega)
    rw [announced]
    simp only [Option.bind_eq_bind, Option.bind_some]
    split
    · exact ⟨_, rfl⟩
    obtain ⟨result, parsed⟩ := parseBlock_within least (show pos + length ≤ payload.length by omega) report
    rw [parsed]
    cases result with
    | none => exact ⟨_, rfl⟩
    | some report => exact ih (by omega) (by omega) report

theorem parse_within (payload : Bytes) : ∃ result, parse payload = some result := by
  unfold parse
  split
  · exact ⟨none, rfl⟩
  rw [read32_eq (by omega)]
  exact parseBlocks_within (by omega) (by omega) _

end RttReport

/-! ### The congestion control feedback, with checked reads -/

namespace CongestionControlFeedback

def readReportChecked (payload : Bytes) (position : Nat) (ssrc : BitVec 32) (baseSeqno : BitVec 16)
    (i : Nat) : Option PacketInfo := do
  let packetInfo ← read16 payload (position + 2 * i)
  return { ssrc
           sequenceNumber := baseSeqno + BitVec.ofNat 16 i
           arrivalTimeOffset :=
             if packetInfo &&& 0x8000 ≠ 0 then atoToTimeDelta packetInfo else .minusInfinity
           ecn := toEcnMarking packetInfo }

def readBlocksChecked (payload : Bytes) (payloadEnd : Nat) :
    Nat → Nat → Option (Option (List PacketInfo))
  | 0, _ => none
  | turns + 1, position =>
    if position + kHeaderPerMediaSssrcLength < payloadEnd then do
      let ssrc ← read32 payload position
      let baseSeqno ← read16 payload (position + 4)
      let numReports ← read16 payload (position + 6)
      let position := position + 8
      if payloadEnd < position + 2 * numReports.toNat then return none
      else
        let reports ← (List.range numReports.toNat).mapM (readReportChecked payload position ssrc baseSeqno)
        let position := position + 2 * numReports.toNat + if numReports.toNat % 2 ≠ 0 then 2 else 0
        let later ← readBlocksChecked payload payloadEnd turns position
        return later.map fun later => reports ++ later
    else some (if position = payloadEnd then some [] else none)

/-- `Parse`, reading nothing but the payload of the block. -/
def parseChecked (packet : RtcpCommonHeader) : Option (Option CongestionControlFeedback) :=
  if packet.payloadSize % 4 ≠ 0 ∨ packet.payloadSize < kSenderSsrcLength + kTimestampLength then
    some none
  else do
    let payload := packet.region
    let payloadEnd := packet.payloadSize - 4
    let senderSsrc ← read32 payload 0
    let reportTimestampCompactNtp ← read32 payload payloadEnd
    let packets ← readBlocksChecked payload payloadEnd packet.payloadSize 4
    return packets.map fun packets => { senderSsrc, reportTimestampCompactNtp, packets }

/-- With its turns the loop ends, within the payload, and reads what the plain one reads. -/
theorem readBlocksChecked_eq {payload : Bytes} {payloadEnd size : Nat} (within : payloadEnd ≤ size)
    (inside : size ≤ payload.length) {turns position : Nat} (positive : 0 < turns)
    (enough : payloadEnd < turns + position) :
    readBlocksChecked (payload.take size) payloadEnd turns position =
      some (readBlocks payload payloadEnd turns position) := by
  have length : (payload.take size).length = size := by
    rw [List.length_take, Nat.min_eq_left inside]
  induction turns generalizing position with
  | zero => exact absurd positive (Nat.lt_irrefl 0)
  | succ turns ih =>
    rw [readBlocksChecked, readBlocks]
    by_cases more : position + kHeaderPerMediaSssrcLength < payloadEnd
    · rw [if_pos more, if_pos more]
      rw [kHeaderPerMediaSssrcLength] at more
      rw [read32_eq (by omega), read16_eq (by omega), read16_eq (by omega), get32_take (by omega),
        get16_take (by omega), get16_take (by omega)]
      simp only [Option.bind_eq_bind, Option.bind_some]
      generalize (get16 payload (position + 6)).toNat = numReports
      by_cases long : payloadEnd < position + 8 + 2 * numReports
      · rw [if_pos long, if_pos long]
        rfl
      rw [if_neg long, if_neg long]
      have words : ∀ i ∈ List.range numReports,
          readReportChecked (payload.take size) (position + 8) (get32 payload position)
            (get16 payload (position + 4)) i =
          some (readReport payload (position + 8) (get32 payload position)
            (get16 payload (position + 4)) i) := by
        intro i member
        have less := List.mem_range.mp member
        rw [readReportChecked, read16_eq (by omega), get16_take (by omega)]
        rfl
      rw [mapM_eq_some words, Option.bind_some, ih (by omega) (by omega), Option.bind_some]
      rfl
    · rw [if_neg more, if_neg more]

theorem parseChecked_eq {packet : RtcpCommonHeader} (inside : packet.Inside) :
    parseChecked packet = some (parse packet) := by
  unfold parseChecked parse
  by_cases refused : packet.payloadSize % 4 ≠ 0 ∨ packet.payloadSize < kSenderSsrcLength + kTimestampLength
  · rw [if_pos refused, if_pos refused]
  rw [if_neg refused, if_neg refused]
  have size := inside.region_length
  rw [kSenderSsrcLength, kTimestampLength] at refused
  have long : 8 ≤ packet.payloadSize := by omega
  have blocks := readBlocksChecked_eq (Nat.sub_le packet.payloadSize 4) inside
    (show 0 < packet.payloadSize by omega)
    (show packet.payloadSize - 4 < packet.payloadSize + 4 by omega)
  simp only
  rw [read32_eq (by omega), read32_eq (by omega), RtcpCommonHeader.region, blocks,
    get32_take (by omega), get32_take (by omega)]
  rfl

end CongestionControlFeedback

end MiniRtc.Rtcp
