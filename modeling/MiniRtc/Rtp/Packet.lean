import MiniRtc.Lib.Bytes

/-! `RtpPacket` of rtp_packet.cpp: the parsed header fields beside the raw buffer.
`Parse` writes its fields as it goes, so a failed parse is an error that carries
the object as it was left. Ignored return values then mean what they do in C++. -/
namespace MiniRtc.Rtp
open Wire

/- rtp_defines.h, rtp_header.h and rtp_packet.h. The enumeration is cast from and to
the seven bit field of the header, so it is the type of that field here. -/
abbrev PayloadType := BitVec 7
def PayloadType.undefined : PayloadType := 0
def PayloadType.h264 : PayloadType := 96
def PayloadType.av1 : PayloadType := 99
def PayloadType.rtx : PayloadType := 127
def PayloadType.rsFec : PayloadType := 122

def kRtpVersion : Byte := 2
def kMaxRtpCsrcSize : Nat := 15
def kFixedHeaderSize : Nat := 12
def kOneByteExtensionProfileId : BitVec 16 := 0xBEDE
def MAX_NALU_LEN : Nat := 1150

structure Extension where
  id : Byte
  len : Nat
  dataOffset : Nat
  data : Bytes
deriving DecidableEq, Repr

structure RtpPacket where
  version : Byte := 0
  hasPadding : Bool := false
  hasExtension : Bool := false
  csrcCount : Nat := 0
  marker : Bool := false
  payloadType : PayloadType := 0
  sequenceNumber : BitVec 16 := 1
  timestamp : BitVec 32 := 0
  ssrc : BitVec 32 := 0
  csrcs : List (BitVec 32) := []
  extensionProfile : BitVec 16 := 0
  extensionLen : BitVec 16 := 0
  extensions : List Extension := []
  payloadOffset : Nat := 0
  payloadSize : Nat := 0
  paddingSize : Nat := 0
  buffer : Bytes := []
  size : Nat := 0
deriving DecidableEq, Repr

/-- The element loop of a one-byte extension block. Every turn moves the offset, so the
length of the block bounds the number of turns. -/
def parseOneByteExtensions (buffer : Bytes) (extensionEnd : Nat) :
    Nat → Nat → List Extension → Except (List Extension) (List Extension)
  | 0, _, es => .ok es
  | turns + 1, offset, es =>
    if offset < extensionEnd then
      let id := byteAt buffer offset >>> 4
      let len := (byteAt buffer offset &&& 0x0F).toNat + 1
      if id = 0 then parseOneByteExtensions buffer extensionEnd turns (offset + 1) es
      else if id = 15 then .ok es
      else if extensionEnd < offset + 1 + len then .error es
      else parseOneByteExtensions buffer extensionEnd turns (offset + 1 + len)
        (es ++ [⟨id, len, offset + 1, slice buffer (offset + 1) len⟩])
    else .ok es

namespace RtpPacket

/-- Bytes 1 to 11, and the bits of byte 0 after the version. -/
def readFixedHeader (p : RtpPacket) (buffer : Bytes) : RtpPacket :=
  { p with
    marker := (byteAt buffer 1).msb
    payloadType := (byteAt buffer 1).setWidth 7
    sequenceNumber := get16 buffer 2
    timestamp := get32 buffer 4
    ssrc := get32 buffer 8
    payloadOffset := kFixedHeaderSize }

def readCsrcs (p : RtpPacket) (buffer : Bytes) : RtpPacket :=
  { p with
    csrcs := (List.range p.csrcCount).map fun i => get32 buffer (kFixedHeaderSize + i * 4)
    payloadOffset := kFixedHeaderSize + p.csrcCount * 4 }

def parseExtensions (p : RtpPacket) (buffer : Bytes) : Except RtpPacket RtpPacket :=
  if p.hasExtension then
    if buffer.length < p.payloadOffset + 4 then .error p
    else
      let p := { p with
        extensionProfile := get16 buffer p.payloadOffset
        extensionLen := get16 buffer (p.payloadOffset + 2)
        payloadOffset := p.payloadOffset + 4 }
      let total := p.extensionLen.toNat * 4
      if buffer.length < p.payloadOffset + total then .error p
      else if p.extensionProfile = kOneByteExtensionProfileId then
        match parseOneByteExtensions buffer (p.payloadOffset + total) total p.payloadOffset [] with
        | .error es => .error { p with extensions := es }
        | .ok es => .ok { p with extensions := es, payloadOffset := p.payloadOffset + total }
      else .ok { p with payloadOffset := p.payloadOffset + total }
  else .ok p

def parsePayload (p : RtpPacket) (buffer : Bytes) : Except RtpPacket RtpPacket :=
  let p :=
    if p.hasPadding ∧ p.payloadOffset < buffer.length then
      let n := (byteAt buffer (buffer.length - 1)).toNat
      if n = 0 then { p with hasPadding := false, paddingSize := 0 } else { p with paddingSize := n }
    else { p with paddingSize := 0 }
  if buffer.length < p.payloadOffset + p.paddingSize then .error p
  else .ok { p with payloadSize := buffer.length - p.payloadOffset - p.paddingSize }

/-- The fixed header and the CSRC list. A CSRC count of four bits is never above the limit. -/
def parseHeader (self : RtpPacket) (buffer : Bytes) : Except RtpPacket RtpPacket :=
  let p := { self with payloadOffset := 0, csrcs := [], extensions := [] }
  if buffer.length < kFixedHeaderSize then .error p
  else
    let p := { p with version := (byteAt buffer 0 >>> 6) &&& 0x03 }
    if p.version ≠ kRtpVersion then .error p
    else
      let p := { p with
        hasPadding := (byteAt buffer 0).getLsbD 5
        hasExtension := (byteAt buffer 0).getLsbD 4
        csrcCount := (byteAt buffer 0 &&& 0x0f).toNat }
      if kMaxRtpCsrcSize < p.csrcCount then .error p
      else
        let p := p.readFixedHeader buffer
        if buffer.length < kFixedHeaderSize + p.csrcCount * 4 then .error p
        else .ok (p.readCsrcs buffer)

/-- `RtpPacket::Parse`. -/
def parse (self : RtpPacket) (buffer : Bytes) : Except RtpPacket RtpPacket :=
  self.parseHeader buffer >>= fun p => p.parseExtensions buffer >>= fun p => p.parsePayload buffer

/-- `RtpPacket::Build`. -/
def build (self : RtpPacket) (buffer : Bytes) : Except RtpPacket RtpPacket :=
  self.parse buffer >>= fun p => .ok { p with buffer := buffer, size := buffer.length }

/-- The object after a call of `Build` whose result is ignored. -/
def afterBuild (self : RtpPacket) (buffer : Bytes) : RtpPacket :=
  match self.build buffer with
  | .ok p => p
  | .error p => p

/-- `Payload()` up to `PayloadSize()`. -/
def payload (p : RtpPacket) : Bytes := slice p.buffer p.payloadOffset p.payloadSize

def addOffsetToPayload (p : RtpPacket) (offset : Nat) : RtpPacket :=
  { p with payloadOffset := p.payloadOffset + offset, payloadSize := p.payloadSize - offset }

theorem addOffsetToPayload_payload (p : RtpPacket) (offset : Nat) :
    (p.addOffsetToPayload offset).payload = p.payload.drop offset :=
  slice_drop ..

end RtpPacket

/-! ### What an accepted packet without padding looks like -/

def csrcCountOf (buffer : Bytes) : Nat := (byteAt buffer 0 &&& 0x0f).toNat
def hasExtensionOf (buffer : Bytes) : Bool := (byteAt buffer 0).getLsbD 4
def hasPaddingOf (buffer : Bytes) : Bool := (byteAt buffer 0).getLsbD 5
def csrcEndOf (buffer : Bytes) : Nat := kFixedHeaderSize + csrcCountOf buffer * 4
def extensionWordsOf (buffer : Bytes) : Nat := (get16 buffer (csrcEndOf buffer + 2)).toNat
def headerEndOf (buffer : Bytes) : Nat :=
  if hasExtensionOf buffer then csrcEndOf buffer + 4 + extensionWordsOf buffer * 4
  else csrcEndOf buffer

/-- The elements that `Parse` leaves in `extensions_`, or its failure. -/
def extensionsOf (buffer : Bytes) : Except (List Extension) (List Extension) :=
  if hasExtensionOf buffer ∧ get16 buffer (csrcEndOf buffer) = kOneByteExtensionProfileId then
    parseOneByteExtensions buffer (headerEndOf buffer) (extensionWordsOf buffer * 4)
      (csrcEndOf buffer + 4) []
  else .ok []

structure Accepts (buffer : Bytes) (es : List Extension) : Prop where
  version : (byteAt buffer 0 >>> 6) &&& 0x03 = kRtpVersion
  fixed : kFixedHeaderSize ≤ buffer.length
  header : headerEndOf buffer ≤ buffer.length
  extensions : extensionsOf buffer = .ok es

/-- The object after a successful `Build` of a packet whose padding bit is clear. -/
def parsed (self : RtpPacket) (buffer : Bytes) (es : List Extension) : RtpPacket where
  version := kRtpVersion
  hasPadding := false
  hasExtension := hasExtensionOf buffer
  csrcCount := csrcCountOf buffer
  marker := (byteAt buffer 1).msb
  payloadType := (byteAt buffer 1).setWidth 7
  sequenceNumber := get16 buffer 2
  timestamp := get32 buffer 4
  ssrc := get32 buffer 8
  csrcs := (List.range (csrcCountOf buffer)).map fun i => get32 buffer (kFixedHeaderSize + i * 4)
  extensionProfile :=
    if hasExtensionOf buffer then get16 buffer (csrcEndOf buffer) else self.extensionProfile
  extensionLen :=
    if hasExtensionOf buffer then get16 buffer (csrcEndOf buffer + 2) else self.extensionLen
  extensions := es
  payloadOffset := headerEndOf buffer
  payloadSize := buffer.length - headerEndOf buffer
  paddingSize := 0
  buffer := buffer
  size := buffer.length

theorem csrcCountOf_le (buffer : Bytes) : csrcCountOf buffer ≤ kMaxRtpCsrcSize := by
  have h : ∀ b : Byte, (b &&& 0x0f).toNat ≤ 15 := by decide
  exact h _

theorem csrcEndOf_le_headerEndOf (buffer : Bytes) : csrcEndOf buffer ≤ headerEndOf buffer := by
  unfold headerEndOf
  split <;> omega

/-- The extension block in terms of the buffer alone. -/
theorem parseExtensions_eq_ok_iff (p q : RtpPacket) (buffer : Bytes)
    (bit : p.hasExtension = hasExtensionOf buffer) (at_csrc : p.payloadOffset = csrcEndOf buffer)
    (none : p.extensions = []) (fits : csrcEndOf buffer ≤ buffer.length) :
    p.parseExtensions buffer = .ok q ↔
      headerEndOf buffer ≤ buffer.length ∧ ∃ es, extensionsOf buffer = .ok es ∧
        q = { p with
          extensionProfile :=
            if hasExtensionOf buffer then get16 buffer (csrcEndOf buffer) else p.extensionProfile
          extensionLen :=
            if hasExtensionOf buffer then get16 buffer (csrcEndOf buffer + 2) else p.extensionLen
          extensions := es
          payloadOffset := headerEndOf buffer } := by
  unfold RtpPacket.parseExtensions extensionsOf
  cases x : hasExtensionOf buffer with
  | false =>
    have e : headerEndOf buffer = csrcEndOf buffer := by simp [headerEndOf, x]
    have own : p = { p with extensions := [], payloadOffset := csrcEndOf buffer } := by
      rw [← none, ← at_csrc]
    rw [if_neg (by simp [bit, x])]
    simp only [e, Bool.false_eq_true, if_false, false_and, Except.ok.injEq, fits, true_and]
    constructor
    · rintro rfl
      exact ⟨[], rfl, own⟩
    · rintro ⟨es, rfl, rfl⟩
      exact own
  | true =>
    have e : headerEndOf buffer = csrcEndOf buffer + 4 + extensionWordsOf buffer * 4 := by
      simp [headerEndOf, x]
    rw [if_pos (by simp [bit, x])]
    simp only [at_csrc, if_true, true_and]
    by_cases room : buffer.length < csrcEndOf buffer + 4
    · have past : ¬ headerEndOf buffer ≤ buffer.length := by omega
      simp [room, past]
    rw [if_neg room]
    by_cases block : buffer.length < csrcEndOf buffer + 4 + extensionWordsOf buffer * 4
    · have past : ¬ headerEndOf buffer ≤ buffer.length := by omega
      simp only [extensionWordsOf] at block
      simp [block, past]
    have within : headerEndOf buffer ≤ buffer.length := by omega
    rw [← e] at block
    simp only [← extensionWordsOf.eq_1, ← e, if_neg block, within, true_and]
    by_cases profile : get16 buffer (csrcEndOf buffer) = kOneByteExtensionProfileId
    · rw [if_pos profile, if_pos profile]
      cases parseOneByteExtensions buffer (headerEndOf buffer) (extensionWordsOf buffer * 4)
        (csrcEndOf buffer + 4) [] with
      | error es => simp
      | ok es => simp [eq_comm]
    · rw [if_neg profile, if_neg profile]
      simp [none, eq_comm]

theorem parsePayload_eq_ok_iff (p q : RtpPacket) (buffer : Bytes) (clear : p.hasPadding = false) :
    p.parsePayload buffer = .ok q ↔ p.payloadOffset ≤ buffer.length ∧
      q = { p with paddingSize := 0, payloadSize := buffer.length - p.payloadOffset } := by
  simp only [RtpPacket.parsePayload, clear, Bool.false_eq_true, false_and, if_false, Nat.add_zero,
    Nat.sub_zero]
  by_cases past : buffer.length < p.payloadOffset
  · have h : ¬ p.payloadOffset ≤ buffer.length := by omega
    simp [past, h]
  · have h : p.payloadOffset ≤ buffer.length := by omega
    simp [past, h, eq_comm]

/-- The object after the fixed header and the CSRC list of a packet without padding. -/
def headed (self : RtpPacket) (buffer : Bytes) : RtpPacket :=
  { self with
    version := kRtpVersion
    hasPadding := false
    hasExtension := hasExtensionOf buffer
    csrcCount := csrcCountOf buffer
    marker := (byteAt buffer 1).msb
    payloadType := (byteAt buffer 1).setWidth 7
    sequenceNumber := get16 buffer 2
    timestamp := get32 buffer 4
    ssrc := get32 buffer 8
    csrcs := (List.range (csrcCountOf buffer)).map fun i => get32 buffer (kFixedHeaderSize + i * 4)
    extensions := []
    payloadOffset := csrcEndOf buffer }

theorem parseHeader_eq_ok_iff (self p : RtpPacket) (buffer : Bytes)
    (clear : hasPaddingOf buffer = false) :
    self.parseHeader buffer = .ok p ↔
      kFixedHeaderSize ≤ buffer.length ∧ (byteAt buffer 0 >>> 6) &&& 0x03 = kRtpVersion ∧
        csrcEndOf buffer ≤ buffer.length ∧ p = headed self buffer := by
  have small : ¬ kMaxRtpCsrcSize < (byteAt buffer 0 &&& 0x0f).toNat :=
    Nat.not_lt.mpr (csrcCountOf_le buffer)
  have pad : (byteAt buffer 0).getLsbD 5 = false := clear
  simp only [RtpPacket.parseHeader, guard_eq_ok_iff, Nat.not_lt, ne_eq, Decidable.not_not]
  constructor
  · rintro ⟨fixed, version, _, fits, result⟩
    refine ⟨fixed, version, fits, ?_⟩
    rw [← Except.ok.inj result]
    simp only [RtpPacket.readCsrcs, RtpPacket.readFixedHeader, version, pad]
    rfl
  · rintro ⟨fixed, version, fits, rfl⟩
    refine ⟨fixed, version, Nat.not_lt.mp small, fits, ?_⟩
    simp only [RtpPacket.readCsrcs, RtpPacket.readFixedHeader, version, pad]
    rfl

/-- `Build` succeeds exactly on the accepted packets, and reads these fields. -/
theorem build_eq_ok_iff (self p : RtpPacket) (buffer : Bytes) (clear : hasPaddingOf buffer = false) :
    self.build buffer = .ok p ↔ ∃ es, Accepts buffer es ∧ p = parsed self buffer es := by
  have bound := csrcEndOf_le_headerEndOf buffer
  simp only [RtpPacket.build, RtpPacket.parse, bind_eq_ok_iff]
  constructor
  · rintro ⟨t, ⟨q, header, r, block, payload⟩, result⟩
    obtain ⟨fixed, version, fits, rfl⟩ := (parseHeader_eq_ok_iff self q buffer clear).mp header
    obtain ⟨room, es, elements, rfl⟩ :=
      (parseExtensions_eq_ok_iff _ r buffer rfl rfl rfl fits).mp block
    obtain ⟨_, rfl⟩ := (parsePayload_eq_ok_iff _ t buffer rfl).mp payload
    exact ⟨es, ⟨version, fixed, room, elements⟩, (Except.ok.inj result).symm⟩
  · rintro ⟨es, ⟨version, fixed, room, elements⟩, rfl⟩
    have fits := Nat.le_trans bound room
    refine ⟨_, ⟨_, (parseHeader_eq_ok_iff self _ buffer clear).mpr ⟨fixed, version, fits, rfl⟩, _,
      (parseExtensions_eq_ok_iff _ _ buffer rfl rfl rfl fits).mpr ⟨room, es, elements, rfl⟩,
      (parsePayload_eq_ok_iff _ _ buffer rfl).mpr ⟨room, rfl⟩⟩, rfl⟩

theorem build_parsed (self : RtpPacket) {buffer : Bytes} {es : List Extension}
    (clear : hasPaddingOf buffer = false) (accepts : Accepts buffer es) :
    self.build buffer = .ok (parsed self buffer es) :=
  (build_eq_ok_iff self _ buffer clear).mpr ⟨es, accepts, rfl⟩

end MiniRtc.Rtp
