import MiniRtc.Rtp.Generic
import MiniRtc.Video.Receiver
import MiniRtc.Video.Reassembly

/-! H.264: `RtpPacketizerH264`, `RtpPacketH264` and the key frame test.
A payload that fits is sent as one NAL unit, any other one as FU-A fragments. -/
namespace MiniRtc.Video
open Wire Wrapping Rtp

def NAL_UNIT_TYPE_NALU : BitVec 5 := 1
def NAL_UNIT_TYPE_FU_A : BitVec 5 := 28

structure RtpPacketH264 extends RtpPacket where
  osn : BitVec 16 := 0
  forbiddenBit : Bool := false
  nalReferenceIdc : BitVec 2 := 0
  nalUnitType : BitVec 5 := 0
  fuStart : Bool := false
  fuEnd : Bool := false
  fuRemainBit : Bool := false
  fuNalUnitType : BitVec 5 := 0
deriving DecidableEq, Repr

/-- `GetFrameHeaderInfo` on a packet that was just built. -/
def getFrameHeaderInfoH264 (p : RtpPacket) : Option RtpPacketH264 :=
  let frameBuffer := p.payload
  if p.payloadType = .rtx ∧ p.payloadSize < 2 then none
  else
    let offset := if p.payloadType = .rtx then 2 else 0
    if p.payloadSize ≤ offset then none
    else
      let indicator := byteAt frameBuffer offset
      let h : RtpPacketH264 :=
        { toRtpPacket := p
          osn := if p.payloadType = .rtx then get16 frameBuffer 0 else 0
          forbiddenBit := indicator.getLsbD 7
          nalReferenceIdc := (indicator >>> 5).setWidth 2
          nalUnitType := indicator.setWidth 5 }
      if h.nalUnitType = NAL_UNIT_TYPE_NALU then
        some { h with toRtpPacket := RtpPacket.addOffsetToPayload p (1 + offset) }
      else if h.nalUnitType = NAL_UNIT_TYPE_FU_A then
        if p.payloadSize ≤ offset + 1 then none
        else
          let header := byteAt frameBuffer (1 + offset)
          some { h with
            toRtpPacket := RtpPacket.addOffsetToPayload p (2 + offset)
            fuStart := header.getLsbD 7
            fuEnd := header.getLsbD 6
            fuRemainBit := header.getLsbD 5
            fuNalUnitType := header.setWidth 5 }
      else some h

/-- `IsH264KeyFrame`. -/
def isH264KeyFrame (data : Bytes) : Bool :=
  (List.range (data.length - 3)).any fun offset =>
    let nalOffset :=
      if byteAt data offset = 0 ∧ byteAt data (offset + 1) = 0 ∧ byteAt data (offset + 2) = 1 then
        offset + 3
      else if offset + 4 < data.length ∧ byteAt data offset = 0 ∧ byteAt data (offset + 1) = 0 ∧
          byteAt data (offset + 2) = 0 ∧ byteAt data (offset + 3) = 1 then
        offset + 4
      else 0
    nalOffset ≠ 0 && decide (nalOffset < data.length) && byteAt data nalOffset &&& 0x1f = 5

/-- One octet of three fields. -/
def nalHeader (forbiddenBit : Bool) (nalReferenceIdc : BitVec 2) (nalUnitType : BitVec 5) : Byte :=
  (BitVec.ofBool forbiddenBit).setWidth 8 <<< 7 ||| nalReferenceIdc.setWidth 8 <<< 5 |||
    nalUnitType.setWidth 8

def fuHeader (start last remainBit : Bool) (nalUnitType : BitVec 5) : Byte :=
  (BitVec.ofBool start).setWidth 8 <<< 7 ||| (BitVec.ofBool last).setWidth 8 <<< 6 |||
    (BitVec.ofBool remainBit).setWidth 8 <<< 5 ||| nalUnitType.setWidth 8

def h264UnitKind (p : RtpPacketH264) : UnitKind :=
  if p.nalUnitType = NAL_UNIT_TYPE_NALU then .single
  else if p.nalUnitType = NAL_UNIT_TYPE_FU_A then .fragment
  else .other

/-- The octet before the payloads: of the unit itself, or of the fragmented unit as its first
fragment says. -/
def h264Header (p : RtpPacketH264) : Byte :=
  nalHeader p.forbiddenBit p.nalReferenceIdc
    (if p.nalUnitType = NAL_UNIT_TYPE_NALU then p.nalUnitType else p.fuNalUnitType)

def h264 : VideoCodec RtpPacketH264 where
  timestamp p := p.timestamp
  sequenceNumber p := p.sequenceNumber
  payload p := p.payload
  isStart p := p.fuStart
  isEnd p := p.fuEnd
  header p := [h264Header p]
  isKeyFrame _ frame := isH264KeyFrame frame
  payloadType := .h264
  depacketize p :=
    match ({} : RtpPacket).build p.buffer with
    | .ok q => getFrameHeaderInfoH264 q
    | .error _ => none
  unitKind := h264UnitKind

/-- A packet of the packetizer on its way, in the first cycle of both numbers. -/
def MediaPacket.sent (self : RtpPacketizer) (marker : Bool) (timestamp : BitVec 32) (body : Bytes) :
    MediaPacket where
  packet := self.sent marker timestamp body
  stamp := timestamp.toNat
  number := self.sequenceNumber.toNat
  built := RtpPacketizer.build_packetFrame ..
  stamp_eq := by
    rw [RtpPacketizer.sent_timestamp, rtp, BitVec.ofInt_natCast, BitVec.ofNat_toNat, BitVec.setWidth_eq]
  number_eq := by
    rw [RtpPacketizer.sent_sequenceNumber, seq, BitVec.ofInt_natCast, BitVec.ofNat_toNat, BitVec.setWidth_eq]

namespace RtpPacketizerH264

/-- Packets are handed out only if they can be parsed. -/
def emitBuilt (self : RtpPacketizer) (timestamp : BitVec 32) :
    List (Bool × Bytes) → List RtpPacket × RtpPacketizer
  | [] => ([], self)
  | (marker, body) :: rest =>
    let self := self.advance
    let built := match ({} : RtpPacket).build (self.packetFrame marker timestamp body) with
      | .ok p => [p]
      | .error _ => []
    let (packets, self) := emitBuilt self timestamp rest
    (built ++ packets, self)

def naluBody (payload : Bytes) : Bytes := nalHeader false 1 NAL_UNIT_TYPE_NALU :: payload

/-- One turn of the loop in `BuildFua`: the marker and the octets after the RTP header. -/
def fragment (maxPayloadSize : Nat) (payload : Bytes) (index : Nat) : Bool × Bytes :=
  let lastPacketSize := payload.length % maxPayloadSize
  let packetNum := packetCount payload.length maxPayloadSize
  (decide (index = packetNum - 1),
    nalHeader false 0 NAL_UNIT_TYPE_FU_A ::
      fuHeader (decide (index = 0)) (decide (index = packetNum - 1)) false NAL_UNIT_TYPE_FU_A ::
        slice payload (index * maxPayloadSize)
          (if index = packetNum - 1 ∧ 0 < lastPacketSize then lastPacketSize else maxPayloadSize))

def buildNalu (self : RtpPacketizer) (payload : Bytes) (timestamp : BitVec 32) :
    List RtpPacket × RtpPacketizer :=
  emitBuilt self timestamp [(true, naluBody payload)]

def buildFua (self : RtpPacketizer) (payload : Bytes) (timestamp : BitVec 32) :
    List RtpPacket × RtpPacketizer :=
  emitBuilt self timestamp ((List.range (packetCount payload.length self.maxPayloadSize)).map
    (fragment self.maxPayloadSize payload))

/-- `RtpPacketizerH264::Build`. -/
def build (self : RtpPacketizer) (payload : Bytes) (timestamp : BitVec 32) :
    List RtpPacket × RtpPacketizer :=
  if payload.length ≤ self.maxPayloadSize then buildNalu self payload timestamp
  else buildFua self payload timestamp

theorem emitBuilt_eq_emit (self : RtpPacketizer) (timestamp : BitVec 32)
    (fragments : List (Bool × Bytes)) :
    emitBuilt self timestamp fragments = self.emit timestamp fragments := by
  induction fragments generalizing self with
  | nil => rfl
  | cons f rest ih =>
    obtain ⟨marker, body⟩ := f
    simp only [emitBuilt, RtpPacketizer.emit, RtpPacketizer.build_packetFrame, RtpPacket.afterBuild, ih]
    rfl

end RtpPacketizerH264

/-! ### The key frame test -/

/-- A start code of three octets and a NAL octet of type 5. -/
def ContainsIdr (payload : Bytes) : Prop :=
  ∃ i, i + 3 < payload.length ∧ byteAt payload i = 0 ∧ byteAt payload (i + 1) = 0 ∧
    byteAt payload (i + 2) = 1 ∧ byteAt payload (i + 3) &&& 0x1f = 5

theorem isH264KeyFrame_iff (data : Bytes) : isH264KeyFrame data = true ↔ ContainsIdr data := by
  unfold isH264KeyFrame ContainsIdr
  simp only [List.any_eq_true, List.mem_range, Bool.and_eq_true, decide_eq_true_eq]
  constructor
  · rintro ⟨offset, inside, ⟨found, within⟩, type⟩
    split at found
    · rename_i code
      rw [if_pos code] at type within
      exact ⟨offset, by omega, code.1, code.2.1, code.2.2, type⟩
    · rename_i short
      rw [if_neg short] at type within
      split at found
      · rename_i code
        rw [if_pos code] at type within
        exact ⟨offset + 1, by omega, code.2.2.1, code.2.2.2.1, code.2.2.2.2, type⟩
      · exact absurd rfl found
  · rintro ⟨i, inside, zero, zero', one, type⟩
    refine ⟨i, by omega, ?_⟩
    rw [if_pos ⟨zero, zero', one⟩]
    exact ⟨⟨by omega, inside⟩, type⟩

/-- An octet other than zero in front starts no start code. -/
theorem containsIdr_cons {header : Byte} (payload : Bytes) (nonzero : header ≠ 0) :
    ContainsIdr (header :: payload) ↔ ContainsIdr payload := by
  constructor
  · rintro ⟨i, inside, zero, zero', one, type⟩
    cases i with
    | zero => exact absurd zero nonzero
    | succ i => exact ⟨i, by simp only [List.length_cons] at inside; omega, zero, zero', one, type⟩
  · rintro ⟨i, inside, zero, zero', one, type⟩
    exact ⟨i + 1, by simp only [List.length_cons]; omega, zero, zero', one, type⟩

end MiniRtc.Video
