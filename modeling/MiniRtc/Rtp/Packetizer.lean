import MiniRtc.Rtp.Packet

/-! The packetizers' common part (rtp_packetizer.cpp) and the generic one.
Every packetizer numbers, marks and serializes a list of fragments in the same way;
they differ in how a payload is cut. Whether the packets are built as `RtpPacket`
or as `RtpPacketToSend` changes nothing in the fields and octets modelled here. -/
namespace MiniRtc.Rtp
open Wire

/-- RFC 8285 reserves 0 and 15; `SetAbsoluteSendTimeExtensionId` refuses them. -/
def OneByteExtensionId : Type := { id : Byte // 1 ≤ id ∧ id ≤ 14 }
deriving DecidableEq

structure RtpPacketizer where
  payloadType : PayloadType
  ssrc : BitVec 32
  sequenceNumber : BitVec 16 := 0
  csrcs : List (BitVec 32) := []
  maxPayloadSize : Nat := MAX_NALU_LEN
  absSendTimeExtId : Option OneByteExtensionId := none
deriving DecidableEq

def firstByte (version : Byte) (padding extension : Bool) (csrcCount : Nat) : Byte :=
  version <<< 6 ||| (BitVec.ofBool padding).setWidth 8 <<< 5 |||
    (BitVec.ofBool extension).setWidth 8 <<< 4 ||| BitVec.ofNat 8 csrcCount

/-- The twelve octets that every writer of an RTP header pushes first. -/
def fixedHeader (version : Byte) (padding extension : Bool) (csrcCount : Nat) (marker : Bool)
    (pt : PayloadType) (sequenceNumber : BitVec 16) (timestamp ssrc : BitVec 32) : Bytes :=
  [firstByte version padding extension csrcCount, BitVec.cons marker pt] ++ put16 sequenceNumber ++
    put32 timestamp ++ put32 ssrc

/-- The fixed header of version 2 without padding. -/
abbrev plainHeader : Bool → Nat → Bool → PayloadType → BitVec 16 → BitVec 32 → BitVec 32 → Bytes :=
  fixedHeader kRtpVersion false

def absoluteSendTimeExtension : Option OneByteExtensionId → Bytes
  | none => []
  | some id => put16 kOneByteExtensionProfileId ++ ([0, 1, id.val <<< 4 ||| 2, 0, 0, 0] : Bytes)

namespace RtpPacketizer

/-- `rtp_packet_frame_` for one fragment. `csrc_count_` is always reset to zero before. -/
def packetFrame (self : RtpPacketizer) (marker : Bool) (timestamp : BitVec 32) (body : Bytes) :
    Bytes :=
  plainHeader self.absSendTimeExtId.isSome 0 marker self.payloadType self.sequenceNumber
    timestamp self.ssrc ++ (self.csrcs.take 0).flatMap put32 ++
      absoluteSendTimeExtension self.absSendTimeExtId ++ body

def advance (self : RtpPacketizer) : RtpPacketizer :=
  { self with sequenceNumber := self.sequenceNumber + 1 }

/-- Number and build one packet for each fragment; the result of `Build` is ignored. -/
def emit (self : RtpPacketizer) (timestamp : BitVec 32) :
    List (Bool × Bytes) → List RtpPacket × RtpPacketizer
  | [] => ([], self)
  | (marker, body) :: rest =>
    let self := self.advance
    let packet := ({} : RtpPacket).afterBuild (self.packetFrame marker timestamp body)
    let (packets, self) := self.emit timestamp rest
    (packet :: packets, self)

end RtpPacketizer

/-! ### The header that is written is the header that is read -/

theorem firstByte_read : ∀ (padding extension : Bool) (cc : Fin 16),
    (firstByte kRtpVersion padding extension cc.val >>> 6) &&& 0x03 = kRtpVersion ∧
      (firstByte kRtpVersion padding extension cc.val).getLsbD 5 = padding ∧
      (firstByte kRtpVersion padding extension cc.val).getLsbD 4 = extension ∧
      (firstByte kRtpVersion padding extension cc.val &&& 0x0f).toNat = cc.val := by decide

/-- Every octet of a first byte is in one of its fields. -/
theorem firstByte_write : ∀ b : Byte, (b >>> 6) &&& 0x03 = kRtpVersion → b.getLsbD 5 = false →
    firstByte kRtpVersion false (b.getLsbD 4) (b &&& 0x0f).toNat = b := by decide

@[simp] theorem fixedHeader_length (version : Byte) (padding extension : Bool) (cc : Nat)
    (marker : Bool) (pt : PayloadType) (seq : BitVec 16) (ts ssrc : BitVec 32) :
    (fixedHeader version padding extension cc marker pt seq ts ssrc).length = 12 := rfl

section PlainHeader

variable (extension : Bool) (cc : Nat) (marker : Bool) (pt : PayloadType) (seq : BitVec 16)
  (ts ssrc : BitVec 32) (rest : Bytes)

theorem plainHeader_first : byteAt (plainHeader extension cc marker pt seq ts ssrc ++ rest) 0 =
    firstByte kRtpVersion false extension cc := rfl

theorem plainHeader_second : byteAt (plainHeader extension cc marker pt seq ts ssrc ++ rest) 1 =
    BitVec.cons marker pt := rfl

theorem plainHeader_sequence :
    get16 (plainHeader extension cc marker pt seq ts ssrc ++ rest) 2 = seq := by
  simp only [fixedHeader, List.append_assoc]
  exact get16_put16 _ _ seq 2 rfl

theorem plainHeader_timestamp :
    get32 (plainHeader extension cc marker pt seq ts ssrc ++ rest) 4 = ts := by
  simp only [fixedHeader]
  rw [List.append_assoc, List.append_assoc]
  exact get32_put32 _ _ ts 4 rfl

theorem plainHeader_ssrc :
    get32 (plainHeader extension cc marker pt seq ts ssrc ++ rest) 8 = ssrc := by
  simp only [fixedHeader]
  rw [List.append_assoc]
  exact get32_put32 _ _ ssrc 8 rfl

theorem plainHeader_clear (small : cc ≤ 15) :
    hasPaddingOf (plainHeader extension cc marker pt seq ts ssrc ++ rest) = false :=
  (firstByte_read false extension ⟨cc, by omega⟩).2.1

theorem plainHeader_extension (small : cc ≤ 15) :
    hasExtensionOf (plainHeader extension cc marker pt seq ts ssrc ++ rest) = extension :=
  (firstByte_read false extension ⟨cc, by omega⟩).2.2.1

theorem plainHeader_csrcCount (small : cc ≤ 15) :
    csrcCountOf (plainHeader extension cc marker pt seq ts ssrc ++ rest) = cc :=
  (firstByte_read false extension ⟨cc, by omega⟩).2.2.2

theorem plainHeader_version (small : cc ≤ 15) :
    (byteAt (plainHeader extension cc marker pt seq ts ssrc ++ rest) 0 >>> 6) &&& 0x03 =
      kRtpVersion :=
  (firstByte_read false extension ⟨cc, by omega⟩).1

end PlainHeader

/-- The packetizer when it writes the packet at an index. -/
def numbered (self : RtpPacketizer) (i : Nat) : RtpPacketizer :=
  { self with sequenceNumber := self.sequenceNumber + BitVec.ofNat 16 (i + 1) }

/-- The object that a packetizer hands out for one fragment. -/
def RtpPacketizer.sent (self : RtpPacketizer) (marker : Bool) (timestamp : BitVec 32) (body : Bytes) :
    RtpPacket :=
  parsed {} (self.packetFrame marker timestamp body)
    (match self.absSendTimeExtId with
    | none => []
    | some id => [⟨id.val, 3, 17, [0, 0, 0]⟩])

namespace RtpPacketizer

variable (self : RtpPacketizer) (marker : Bool) (timestamp : BitVec 32) (body : Bytes)

theorem packetFrame_eq : self.packetFrame marker timestamp body =
    plainHeader self.absSendTimeExtId.isSome 0 marker self.payloadType self.sequenceNumber
      timestamp self.ssrc ++ (absoluteSendTimeExtension self.absSendTimeExtId ++ body) := by
  simp [packetFrame]

theorem csrcEndOf_packetFrame : csrcEndOf (self.packetFrame marker timestamp body) = 12 := by
  rw [csrcEndOf, packetFrame_eq, plainHeader_csrcCount _ _ _ _ _ _ _ _ (Nat.zero_le _)]
  rfl

theorem extension_words (id : OneByteExtensionId) :
    (get16 (plainHeader true 0 marker self.payloadType self.sequenceNumber timestamp self.ssrc ++
      (absoluteSendTimeExtension (some id) ++ body)) 14).toNat = 1 := by
  have high : byteAt (plainHeader true 0 marker self.payloadType self.sequenceNumber timestamp
    self.ssrc ++ (absoluteSendTimeExtension (some id) ++ body)) 14 = 0 := rfl
  have low : byteAt (plainHeader true 0 marker self.payloadType self.sequenceNumber timestamp
    self.ssrc ++ (absoluteSendTimeExtension (some id) ++ body)) (14 + 1) = 1 := rfl
  rw [get16_toNat, high, low]
  rfl

theorem headerEndOf_packetFrame : headerEndOf (self.packetFrame marker timestamp body) =
    12 + (absoluteSendTimeExtension self.absSendTimeExtId).length := by
  rw [headerEndOf, extensionWordsOf, csrcEndOf_packetFrame, packetFrame_eq,
    plainHeader_extension _ _ _ _ _ _ _ _ (Nat.zero_le _)]
  cases h : self.absSendTimeExtId with
  | none => rfl
  | some id =>
    simp only [Option.isSome_some, if_true, Nat.reduceAdd, extension_words]
    rfl

theorem extension_element : ∀ id : Byte, 1 ≤ id → id ≤ 14 →
    (id <<< 4 ||| 2) >>> 4 = id ∧ id ≠ 0 ∧ id ≠ 15 ∧ ((id <<< 4 ||| 2) &&& 0x0F).toNat + 1 = 3 := by
  decide

/-- A block of one word that holds one element of three octets. -/
theorem parseOneByteExtensions_single (buffer : Bytes) (offset : Nat) (id : OneByteExtensionId)
    (element : byteAt buffer offset = id.val <<< 4 ||| 2) :
    parseOneByteExtensions buffer (offset + 4) 4 offset [] =
      .ok [⟨id.val, 3, offset + 1, slice buffer (offset + 1) 3⟩] := by
  obtain ⟨read, nonzero, reserved, len⟩ := extension_element id.val id.property.1 id.property.2
  unfold parseOneByteExtensions
  rw [element, read, len, if_pos (by omega), if_neg nonzero, if_neg reserved, if_neg (by omega)]
  unfold parseOneByteExtensions
  rw [if_neg (by omega)]
  rfl

theorem extensionsOf_packetFrame : extensionsOf (self.packetFrame marker timestamp body) =
    .ok (match self.absSendTimeExtId with
      | none => []
      | some id => [⟨id.val, 3, 17, [0, 0, 0]⟩]) := by
  rw [extensionsOf, headerEndOf_packetFrame, extensionWordsOf, csrcEndOf_packetFrame, packetFrame_eq,
    plainHeader_extension _ _ _ _ _ _ _ _ (Nat.zero_le _)]
  cases h : self.absSendTimeExtId with
  | none => rfl
  | some id =>
    have profile : get16 (plainHeader true 0 marker self.payloadType self.sequenceNumber
        timestamp self.ssrc ++ (absoluteSendTimeExtension (some id) ++ body)) 12 =
          kOneByteExtensionProfileId := by
      rw [absoluteSendTimeExtension, List.append_assoc]
      exact get16_put16 _ _ _ 12 rfl
    simp only [Option.isSome_some, profile, and_self, if_true, Nat.reduceAdd, extension_words]
    refine parseOneByteExtensions_single _ 16 id ?_
    rfl

theorem accepts_packetFrame : Accepts (self.packetFrame marker timestamp body)
    (match self.absSendTimeExtId with
    | none => []
    | some id => [⟨id.val, 3, 17, [0, 0, 0]⟩]) where
  version := by rw [packetFrame_eq]; exact plainHeader_version _ _ _ _ _ _ _ _ (Nat.zero_le _)
  fixed := by rw [packetFrame_eq, List.length_append, fixedHeader_length]; exact Nat.le_add_right _ _
  header := by
    rw [headerEndOf_packetFrame, packetFrame_eq]
    simp only [List.length_append, fixedHeader_length]
    omega
  extensions := self.extensionsOf_packetFrame marker timestamp body

/-- What a packetizer builds is always accepted. -/
theorem build_packetFrame : ({} : RtpPacket).build (self.packetFrame marker timestamp body) =
    .ok (self.sent marker timestamp body) := by
  apply build_parsed _ _ (self.accepts_packetFrame marker timestamp body)
  rw [packetFrame_eq]
  exact plainHeader_clear _ _ _ _ _ _ _ _ (Nat.zero_le _)

@[simp] theorem sent_marker : (self.sent marker timestamp body).marker = marker := by
  show (byteAt (self.packetFrame marker timestamp body) 1).msb = marker
  rw [packetFrame_eq, plainHeader_second, BitVec.msb_cons]

@[simp] theorem sent_payloadType :
    (self.sent marker timestamp body).payloadType = self.payloadType := by
  show (byteAt (self.packetFrame marker timestamp body) 1).setWidth 7 = self.payloadType
  rw [packetFrame_eq, plainHeader_second, BitVec.setWidth_cons]

@[simp] theorem sent_sequenceNumber :
    (self.sent marker timestamp body).sequenceNumber = self.sequenceNumber := by
  show get16 (self.packetFrame marker timestamp body) 2 = self.sequenceNumber
  rw [packetFrame_eq, plainHeader_sequence]

@[simp] theorem sent_timestamp : (self.sent marker timestamp body).timestamp = timestamp := by
  show get32 (self.packetFrame marker timestamp body) 4 = timestamp
  rw [packetFrame_eq, plainHeader_timestamp]

@[simp] theorem sent_ssrc : (self.sent marker timestamp body).ssrc = self.ssrc := by
  show get32 (self.packetFrame marker timestamp body) 8 = self.ssrc
  rw [packetFrame_eq, plainHeader_ssrc]

/-- The RTP payload of a packet is the fragment it was built from. -/
@[simp] theorem sent_payload : (self.sent marker timestamp body).payload = body := by
  show slice (self.packetFrame marker timestamp body) (headerEndOf (self.packetFrame marker timestamp body))
    ((self.packetFrame marker timestamp body).length -
      headerEndOf (self.packetFrame marker timestamp body)) = body
  rw [headerEndOf_packetFrame, packetFrame_eq, ← List.append_assoc, slice, List.drop_left']
  · rw [List.take_of_length_le]
    simp only [List.length_append, fixedHeader_length]
    omega
  · simp only [List.length_append, fixedHeader_length]

theorem sent_payloadSize : (self.sent marker timestamp body).payloadSize = body.length := by
  show (self.packetFrame marker timestamp body).length -
    headerEndOf (self.packetFrame marker timestamp body) = _
  rw [headerEndOf_packetFrame, packetFrame_eq]
  simp only [List.length_append, fixedHeader_length]
  omega

/-- The packets of a list of fragments, in order, numbered from the next number on. -/
theorem emit_packets (fragments : List (Bool × Bytes)) :
    (self.emit timestamp fragments).1 = fragments.mapIdx fun i f =>
      (numbered self i).sent f.1 timestamp f.2 := by
  induction fragments generalizing self with
  | nil => rfl
  | cons f rest ih =>
    have number : ∀ i : Nat, self.sequenceNumber + 1 + BitVec.ofNat 16 (i + 1) =
        self.sequenceNumber + BitVec.ofNat 16 (i + 1 + 1) := by
      intro i
      rw [BitVec.add_assoc]
      congr 1
      apply BitVec.eq_of_toNat_eq
      simp [BitVec.toNat_add]
      omega
    simp only [emit, RtpPacket.afterBuild, build_packetFrame, ih, List.mapIdx_cons, advance, numbered, number]
    rfl

end RtpPacketizer

end MiniRtc.Rtp
