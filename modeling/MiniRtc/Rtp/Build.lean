import MiniRtc.Lib.Reads
import MiniRtc.Rtp.Layout

/-! `Build` of rtp_packet.cpp on any octets: what it reads, how an accepted packet divides into
header, payload and padding, and what a refused one leaves of the packet that was there.
`Parse` writes its fields as it goes, and the octets are replaced only when it succeeds. -/
namespace MiniRtc.Rtp
open Wire

/-! ### Checked reads -/

def parseOneByteExtensionsChecked (buffer : Bytes) (extensionEnd : Nat) :
    Nat → Nat → List Extension → Option (Except (List Extension) (List Extension))
  | 0, _, _ => none
  | turns + 1, offset, es =>
    if offset < extensionEnd then do
      let first ← read8 buffer offset
      let id := first >>> 4
      let len := (first &&& 0x0F).toNat + 1
      if id = 0 then parseOneByteExtensionsChecked buffer extensionEnd turns (offset + 1) es
      else if id = 15 then some (.ok es)
      else if extensionEnd < offset + 1 + len then some (.error es)
      else
        let data ← readSlice buffer (offset + 1) len
        parseOneByteExtensionsChecked buffer extensionEnd turns (offset + 1 + len)
          (es ++ [⟨id, len, offset + 1, data⟩])
    else some (.ok es)

namespace RtpPacket

def readFixedHeaderChecked (p : RtpPacket) (buffer : Bytes) : Option RtpPacket := do
  let second ← read8 buffer 1
  let sequenceNumber ← read16 buffer 2
  let timestamp ← read32 buffer 4
  let ssrc ← read32 buffer 8
  some { p with
    marker := second.msb
    payloadType := second.setWidth 7
    sequenceNumber, timestamp, ssrc
    payloadOffset := kFixedHeaderSize }

def readCsrcsChecked (p : RtpPacket) (buffer : Bytes) : Option RtpPacket := do
  let csrcs ← (List.range p.csrcCount).mapM fun i => read32 buffer (kFixedHeaderSize + i * 4)
  some { p with
    csrcs
    payloadOffset := kFixedHeaderSize + p.csrcCount * 4 }

def parseHeaderChecked (self : RtpPacket) (buffer : Bytes) : Option (Except RtpPacket RtpPacket) :=
  let p := { self with payloadOffset := 0, csrcs := [], extensions := [] }
  if buffer.length < kFixedHeaderSize then some (.error p)
  else do
    let first ← read8 buffer 0
    let p := { p with version := (first >>> 6) &&& 0x03 }
    if p.version ≠ kRtpVersion then some (.error p)
    else
      let p := { p with
        hasPadding := first.getLsbD 5
        hasExtension := first.getLsbD 4
        csrcCount := (first &&& 0x0f).toNat }
      if kMaxRtpCsrcSize < p.csrcCount then some (.error p)
      else
        let p ← p.readFixedHeaderChecked buffer
        if buffer.length < kFixedHeaderSize + p.csrcCount * 4 then some (.error p)
        else
          let p ← p.readCsrcsChecked buffer
          some (.ok p)

def parseExtensionsChecked (p : RtpPacket) (buffer : Bytes) : Option (Except RtpPacket RtpPacket) :=
  if p.hasExtension then
    if buffer.length < p.payloadOffset + 4 then some (.error p)
    else do
      let extensionProfile ← read16 buffer p.payloadOffset
      let extensionLen ← read16 buffer (p.payloadOffset + 2)
      let p := { p with extensionProfile, extensionLen, payloadOffset := p.payloadOffset + 4 }
      let total := p.extensionLen.toNat * 4
      if buffer.length < p.payloadOffset + total then some (.error p)
      else if p.extensionProfile = kOneByteExtensionProfileId then
        match ← parseOneByteExtensionsChecked buffer (p.payloadOffset + total) (total + 1)
          p.payloadOffset [] with
        | .error es => some (.error { p with extensions := es })
        | .ok es => some (.ok { p with extensions := es, payloadOffset := p.payloadOffset + total })
      else some (.ok { p with payloadOffset := p.payloadOffset + total })
  else some (.ok p)

/-- The padding count, as `Parse` leaves it before it compares it with what is left. -/
def readPadding (p : RtpPacket) (buffer : Bytes) : RtpPacket :=
  if p.hasPadding ∧ p.payloadOffset < buffer.length then
    let n := (byteAt buffer (buffer.length - 1)).toNat
    if n = 0 then { p with hasPadding := false, paddingSize := 0 } else { p with paddingSize := n }
  else { p with paddingSize := 0 }

def readPaddingChecked (p : RtpPacket) (buffer : Bytes) : Option RtpPacket :=
  if p.hasPadding ∧ p.payloadOffset < buffer.length then do
    let last ← read8 buffer (buffer.length - 1)
    let n := last.toNat
    some (if n = 0 then { p with hasPadding := false, paddingSize := 0 } else { p with paddingSize := n })
  else some { p with paddingSize := 0 }

def parsePayloadChecked (p : RtpPacket) (buffer : Bytes) : Option (Except RtpPacket RtpPacket) := do
  let p ← p.readPaddingChecked buffer
  if buffer.length < p.payloadOffset + p.paddingSize then some (.error p)
  else some (.ok { p with payloadSize := buffer.length - p.payloadOffset - p.paddingSize })

/-- `Build`, reading nothing but the octets that it is given. -/
def buildChecked (self : RtpPacket) (buffer : Bytes) : Option (Except RtpPacket RtpPacket) :=
  andThen (self.parseHeaderChecked buffer) fun p =>
    andThen (p.parseExtensionsChecked buffer) fun p =>
      andThen (p.parsePayloadChecked buffer) fun p =>
        some (.ok { p with buffer := buffer, size := buffer.length })

end RtpPacket

/-- Every turn moves the offset, so the loop ends before its turns do. -/
theorem parseOneByteExtensionsChecked_eq {buffer : Bytes} {extensionEnd : Nat}
    (inside : extensionEnd ≤ buffer.length) (turns offset : Nat) (es : List Extension)
    (enough : extensionEnd ≤ offset + turns) :
    parseOneByteExtensionsChecked buffer extensionEnd (turns + 1) offset es =
      some (parseOneByteExtensions buffer extensionEnd turns offset es) := by
  induction turns generalizing offset es with
  | zero =>
    rw [parseOneByteExtensionsChecked, if_neg (by omega)]
    rfl
  | succ turns ih =>
    rw [parseOneByteExtensionsChecked, parseOneByteExtensions]
    by_cases more : offset < extensionEnd
    · rw [if_pos more, if_pos more, read8_eq (by omega)]
      simp only [Option.bind_eq_bind, Option.bind_some]
      by_cases pad : byteAt buffer offset >>> 4 = 0
      · rw [if_pos pad, if_pos pad]
        exact ih (offset + 1) es (by omega)
      · rw [if_neg pad, if_neg pad]
        by_cases stop : byteAt buffer offset >>> 4 = 15
        · rw [if_pos stop, if_pos stop]
        · rw [if_neg stop, if_neg stop]
          by_cases long : extensionEnd < offset + 1 + ((byteAt buffer offset &&& 0x0F).toNat + 1)
          · rw [if_pos long, if_pos long]
          · rw [if_neg long, if_neg long, readSlice_eq (by omega), Option.bind_some]
            exact ih _ _ (by omega)
    · rw [if_neg more, if_neg more]

namespace RtpPacket

theorem parseHeaderChecked_eq (self : RtpPacket) (buffer : Bytes) :
    self.parseHeaderChecked buffer = some (self.parseHeader buffer) := by
  unfold parseHeaderChecked parseHeader
  simp only
  by_cases short : buffer.length < kFixedHeaderSize
  · rw [if_pos short, if_pos short]
  have twelve : 12 ≤ buffer.length := Nat.not_lt.mp short
  rw [if_neg short, if_neg short, read8_eq (by omega)]
  simp only [Option.bind_eq_bind, Option.bind_some]
  split
  · rfl
  split
  · rfl
  simp only [readFixedHeaderChecked, read8_eq (show 1 < buffer.length by omega),
    read16_eq (show 2 + 2 ≤ buffer.length by omega), read32_eq (show 4 + 4 ≤ buffer.length by omega),
    read32_eq (show 8 + 4 ≤ buffer.length by omega), Option.bind_eq_bind, Option.bind_some]
  rw [readFixedHeader]
  simp only
  split
  · rfl
  rename_i fits
  have words : ∀ i ∈ List.range (byteAt buffer 0 &&& 0x0f).toNat,
      read32 buffer (kFixedHeaderSize + i * 4) = some (get32 buffer (kFixedHeaderSize + i * 4)) := by
    intro i member
    have below := List.mem_range.mp member
    exact read32_eq (by omega)
  rw [readCsrcsChecked, mapM_eq_some words]
  rfl

theorem parseExtensionsChecked_eq (p : RtpPacket) (buffer : Bytes) :
    p.parseExtensionsChecked buffer = some (p.parseExtensions buffer) := by
  unfold parseExtensionsChecked parseExtensions
  split
  · split
    · rfl
    rename_i room
    rw [read16_eq (by omega), read16_eq (by omega)]
    simp only [Option.bind_eq_bind, Option.bind_some]
    split
    · rfl
    rename_i block
    split
    · rw [parseOneByteExtensionsChecked_eq (Nat.not_lt.mp block) _ _ _ (Nat.le_refl _), Option.bind_some]
      cases parseOneByteExtensions buffer (p.payloadOffset + 4 + (get16 buffer (p.payloadOffset + 2)).toNat * 4)
          ((get16 buffer (p.payloadOffset + 2)).toNat * 4) (p.payloadOffset + 4) [] with
      | error es => rfl
      | ok es => rfl
    · rfl
  · rfl

theorem parsePayload_eq (p : RtpPacket) (buffer : Bytes) :
    p.parsePayload buffer =
      if buffer.length < (p.readPadding buffer).payloadOffset + (p.readPadding buffer).paddingSize then
        .error (p.readPadding buffer)
      else .ok { p.readPadding buffer with payloadSize :=
        buffer.length - (p.readPadding buffer).payloadOffset - (p.readPadding buffer).paddingSize } := rfl

theorem parsePayloadChecked_eq (p : RtpPacket) (buffer : Bytes) :
    p.parsePayloadChecked buffer = some (p.parsePayload buffer) := by
  have read : p.readPaddingChecked buffer = some (p.readPadding buffer) := by
    unfold readPaddingChecked readPadding
    by_cases padded : p.hasPadding ∧ p.payloadOffset < buffer.length
    · rw [if_pos padded, if_pos padded, read8_eq (by omega)]
      rfl
    · rw [if_neg padded, if_neg padded]
  rw [parsePayloadChecked, read, parsePayload_eq]
  simp only [Option.bind_eq_bind, Option.bind_some]
  split
  · rfl
  · rfl

/-- `Build` reads nothing else. -/
theorem buildChecked_eq (self : RtpPacket) (buffer : Bytes) :
    self.buildChecked buffer = some (self.build buffer) := by
  have kept (p : RtpPacket) : andThen (p.parsePayloadChecked buffer) (fun p =>
      some (.ok { p with buffer := buffer, size := buffer.length })) =
      some (p.parsePayload buffer >>= fun p => .ok { p with buffer := buffer, size := buffer.length }) := by
    rw [parsePayloadChecked_eq]
    exact andThen_some fun _ _ => rfl
  rw [buildChecked, parseHeaderChecked_eq, build, parse, bind_assoc]
  refine andThen_some fun p _ => ?_
  rw [parseExtensionsChecked_eq, bind_assoc]
  exact andThen_some fun p _ => kept p

end RtpPacket

/-! ### What the parts of a parse leave -/

/-- The object after the fixed header and the CSRC list. -/
def headedPadded (self : RtpPacket) (buffer : Bytes) : RtpPacket :=
  { headed self buffer with hasPadding := hasPaddingOf buffer }

/-- The object when the CSRC list does not fit. -/
def cut (self : RtpPacket) (buffer : Bytes) : RtpPacket :=
  { headedPadded self buffer with csrcs := [], payloadOffset := kFixedHeaderSize }

/-- The object after the extension block. -/
def extended (self : RtpPacket) (buffer : Bytes) (es : List Extension) : RtpPacket :=
  { headedPadded self buffer with
    extensionProfile :=
      if hasExtensionOf buffer then get16 buffer (csrcEndOf buffer) else self.extensionProfile
    extensionLen :=
      if hasExtensionOf buffer then get16 buffer (csrcEndOf buffer + 2) else self.extensionLen
    extensions := es
    payloadOffset := headerEndOf buffer }

theorem parseHeader_eq (self : RtpPacket) (buffer : Bytes) :
    self.parseHeader buffer =
      if buffer.length < kFixedHeaderSize then
        .error { self with payloadOffset := 0, csrcs := [], extensions := [] }
      else if (byteAt buffer 0 >>> 6) &&& 0x03 ≠ kRtpVersion then
        .error { self with
          payloadOffset := 0
          csrcs := []
          extensions := []
          version := (byteAt buffer 0 >>> 6) &&& 0x03 }
      else if buffer.length < csrcEndOf buffer then .error (cut self buffer)
      else .ok (headedPadded self buffer) := by
  unfold RtpPacket.parseHeader
  simp only
  split
  · rfl
  split
  · rfl
  rename_i same
  have version := Decidable.not_not.mp same
  have small : ¬ kMaxRtpCsrcSize < (byteAt buffer 0 &&& 0x0f).toNat :=
    Nat.not_lt.mpr (csrcCountOf_le buffer)
  rw [if_neg small]
  simp only [RtpPacket.readFixedHeader, RtpPacket.readCsrcs, version]
  rfl

theorem parseExtensions_error {p q : RtpPacket} {buffer : Bytes}
    (refused : p.parseExtensions buffer = .error q) : q.hasExtension = true ∧ q.csrcs = p.csrcs ∧
      (q.payloadOffset = p.payloadOffset ∨
        q.payloadOffset = p.payloadOffset + 4 ∧ 0 < q.extensionLen.toNat) := by
  unfold RtpPacket.parseExtensions at refused
  split at refused
  · rename_i bit
    split at refused
    · cases refused
      exact ⟨bit, rfl, Or.inl rfl⟩
    rename_i room
    simp only at refused
    split at refused
    · rename_i long
      cases refused
      refine ⟨bit, rfl, Or.inr ⟨rfl, ?_⟩⟩
      simp only
      omega
    · split at refused
      · split at refused
        · rename_i es ran
          cases refused
          refine ⟨bit, rfl, Or.inr ⟨rfl, ?_⟩⟩
          simp only
          refine Nat.pos_of_ne_zero fun none => ?_
          rw [none] at ran
          cases ran
        · cases refused
      · cases refused
  · cases refused

/-- The padding count that octets with an extension block of this end announce. -/
def paddingOf (buffer : Bytes) : Nat :=
  if hasPaddingOf buffer ∧ headerEndOf buffer < buffer.length then
    (byteAt buffer (buffer.length - 1)).toNat
  else 0

/-- The object after the padding count. -/
def padded (self : RtpPacket) (buffer : Bytes) (es : List Extension) : RtpPacket :=
  (extended self buffer es).readPadding buffer

/-- The object after a `Build` that succeeds. -/
def built (self : RtpPacket) (buffer : Bytes) (es : List Extension) : RtpPacket :=
  { padded self buffer es with
    payloadSize := buffer.length - headerEndOf buffer - paddingOf buffer
    buffer := buffer
    size := buffer.length }

theorem padded_eq (self : RtpPacket) (buffer : Bytes) (es : List Extension) :
    padded self buffer es = { extended self buffer es with
      hasPadding := (padded self buffer es).hasPadding
      paddingSize := paddingOf buffer } := by
  unfold padded RtpPacket.readPadding paddingOf
  by_cases announced : hasPaddingOf buffer ∧ headerEndOf buffer < buffer.length
  · have same : (extended self buffer es).hasPadding ∧
        (extended self buffer es).payloadOffset < buffer.length := announced
    rw [if_pos same, if_pos announced]
    simp only
    split
    · rename_i zero
      rw [zero]
    · rfl
  · have same : ¬ ((extended self buffer es).hasPadding ∧
        (extended self buffer es).payloadOffset < buffer.length) := announced
    rw [if_neg same, if_neg announced]

theorem padded_hasPadding {self : RtpPacket} {buffer : Bytes} {es : List Extension}
    (some : 0 < paddingOf buffer) : (padded self buffer es).hasPadding = hasPaddingOf buffer := by
  unfold padded RtpPacket.readPadding
  unfold paddingOf at some
  split at some
  · rename_i announced
    have same : (extended self buffer es).hasPadding ∧
        (extended self buffer es).payloadOffset < buffer.length := announced
    rw [if_pos same]
    simp only
    rw [if_neg (Nat.ne_of_gt some)]
    rfl
  · cases some

/-- A CSRC list that ends beyond the octets. -/
def CsrcsCut (buffer : Bytes) : Prop :=
  kFixedHeaderSize ≤ buffer.length ∧ (byteAt buffer 0 >>> 6) &&& 0x03 = kRtpVersion ∧
    buffer.length < csrcEndOf buffer

/-- A failure in the extension block. -/
def BlockCut (q : RtpPacket) : Prop :=
  q.hasExtension = true ∧ (q.payloadOffset = kFixedHeaderSize + q.csrcs.length * 4 ∨
    q.payloadOffset = kFixedHeaderSize + q.csrcs.length * 4 + 4 ∧ 0 < q.extensionLen.toNat)

theorem build_cut (self : RtpPacket) {buffer : Bytes} (short : CsrcsCut buffer) :
    self.build buffer = .error (cut self buffer) := by
  obtain ⟨fixed, version, long⟩ := short
  rw [RtpPacket.build, RtpPacket.parse, parseHeader_eq, if_neg (Nat.not_lt.mpr fixed),
    if_neg (not_not_intro version), if_pos long]
  rfl

theorem build_accepts (self : RtpPacket) {buffer : Bytes} {es : List Extension}
    (accepts : Accepts buffer es) : self.build buffer =
      if buffer.length < headerEndOf buffer + paddingOf buffer then .error (padded self buffer es)
      else .ok (built self buffer es) := by
  obtain ⟨version, fixed, room, elements⟩ := accepts
  have fits := (csrcEndOf_le_headerEndOf buffer).trans room
  have block : (headedPadded self buffer).parseExtensions buffer = .ok (extended self buffer es) :=
    (parseExtensions_eq_ok_iff _ _ buffer rfl rfl rfl fits).mpr ⟨room, es, elements, rfl⟩
  have offset : (padded self buffer es).payloadOffset = headerEndOf buffer := by
    rw [padded_eq]
    rfl
  have count : (padded self buffer es).paddingSize = paddingOf buffer := by
    rw [padded_eq]
  rw [RtpPacket.build, RtpPacket.parse, parseHeader_eq, if_neg (Nat.not_lt.mpr fixed),
    if_neg (not_not_intro version), if_neg (Nat.not_lt.mpr fits)]
  show (((headedPadded self buffer).parseExtensions buffer >>= fun p => p.parsePayload buffer) >>= _) = _
  rw [block]
  show ((extended self buffer es).parsePayload buffer >>= _) = _
  rw [RtpPacket.parsePayload_eq, ← padded, offset, count]
  split
  · rfl
  · rfl

theorem build_cases (self : RtpPacket) (buffer : Bytes) :
    (∃ q, self.build buffer = .error q ∧ (q.payloadOffset = 0 ∨ BlockCut q)) ∨
      CsrcsCut buffer ∨ ∃ es, Accepts buffer es := by
  by_cases short : buffer.length < kFixedHeaderSize
  · rw [RtpPacket.build, RtpPacket.parse, parseHeader_eq, if_pos short]
    exact Or.inl ⟨_, rfl, Or.inl rfl⟩
  have fixed := Nat.not_lt.mp short
  by_cases version : (byteAt buffer 0 >>> 6) &&& 0x03 = kRtpVersion
  swap
  · rw [RtpPacket.build, RtpPacket.parse, parseHeader_eq, if_neg short, if_pos version]
    exact Or.inl ⟨_, rfl, Or.inl rfl⟩
  by_cases long : buffer.length < csrcEndOf buffer
  · exact Or.inr (Or.inl ⟨fixed, version, long⟩)
  cases block : (headedPadded self buffer).parseExtensions buffer with
  | error q =>
    obtain ⟨bit, csrcs, place⟩ := parseExtensions_error block
    have count : q.csrcs.length = csrcCountOf buffer := by
      rw [csrcs]
      show ((List.range (csrcCountOf buffer)).map _).length = _
      rw [List.length_map, List.length_range]
    refine Or.inl ⟨q, ?_, Or.inr ⟨bit, ?_⟩⟩
    · rw [RtpPacket.build, RtpPacket.parse, parseHeader_eq, if_neg short, if_neg (not_not_intro version),
        if_neg long]
      show (((headedPadded self buffer).parseExtensions buffer >>= _) >>= _) = _
      rw [block]
      rfl
    · rw [count]
      exact place
  | ok q =>
    obtain ⟨room, es, elements, _⟩ :=
      (parseExtensions_eq_ok_iff _ q buffer rfl rfl rfl (Nat.not_lt.mp long)).mp block
    exact Or.inr (Or.inr ⟨es, version, fixed, room, elements⟩)

/-! ### An accepted packet -/

/-- The header, the payload and the padding add up, and the elements lie inside the block. -/
structure Partition (p : RtpPacket) : Prop where
  sizes : p.payloadOffset + p.payloadSize + p.paddingSize = p.size
  octets : p.size = p.buffer.length
  header : p.payloadOffset = kFixedHeaderSize + p.csrcs.length * 4 +
    if p.hasExtension then 4 + p.extensionLen.toNat * 4 else 0
  elements : ∀ e ∈ p.extensions, p.hasExtension = true ∧
    kFixedHeaderSize + p.csrcs.length * 4 + 4 < e.dataOffset ∧ e.dataOffset + e.len ≤ p.payloadOffset

/-- The elements of an accepted packet lie inside its extension block. -/
theorem Accepts.element {buffer : Bytes} {es : List Extension} (accepts : Accepts buffer es)
    {e : Extension} (member : e ∈ es) : hasExtensionOf buffer = true ∧
      csrcEndOf buffer + 4 < e.dataOffset ∧ e.dataOffset + e.len ≤ headerEndOf buffer := by
  have elements := accepts.extensions
  unfold extensionsOf at elements
  split at elements
  · rename_i block
    rcases parseOneByteExtensions_mem elements member with old | inside
    · cases old
    · exact ⟨block.1, inside⟩
  · cases elements
    cases member

theorem built_partition {self : RtpPacket} {buffer : Bytes} {es : List Extension}
    (accepts : Accepts buffer es) (fits : headerEndOf buffer + paddingOf buffer ≤ buffer.length) :
    Partition (built self buffer es) := by
  rw [built, padded_eq]
  have count : (extended self buffer es).csrcs.length = csrcCountOf buffer := by
    show ((List.range (csrcCountOf buffer)).map _).length = _
    rw [List.length_map, List.length_range]
  refine ⟨?_, rfl, ?_, ?_⟩
  · show headerEndOf buffer + (buffer.length - headerEndOf buffer - paddingOf buffer) + paddingOf buffer =
      buffer.length
    omega
  · simp only [count]
    show headerEndOf buffer = csrcEndOf buffer +
      if hasExtensionOf buffer then 4 +
        (if hasExtensionOf buffer then get16 buffer (csrcEndOf buffer + 2)
          else self.extensionLen).toNat * 4
      else 0
    unfold headerEndOf
    cases hasExtensionOf buffer with
    | true => exact Nat.add_assoc _ _ _
    | false => rfl
  · intro e member
    simp only [count]
    exact accepts.element member

/-! ### A refused packet -/

/-- All that the accessors show: everything but the CSRC count. -/
def RtpPacket.accessors (p : RtpPacket) : RtpPacket := { p with csrcCount := 0 }

/-- What a successful `Build` leaves. -/
def RtpPacket.WasBuilt (p : RtpPacket) : Prop := ∃ before old, RtpPacket.build before old = .ok p

/-- `Build` stays inside the octets, divides the packet, and leaves a built one when it fails. -/
structure BuildRight (p : RtpPacket) (buffer : Bytes) : Prop where
  inside : p.buildChecked buffer = some (p.build buffer)
  partition : ∀ q, p.build buffer = .ok q → Partition q ∧ q.buffer = buffer
  kept : p.WasBuilt → ∀ q, p.build buffer = .error q → q.accessors = p.accessors

def Fits (buffer : Bytes) : Prop :=
  ∃ es, Accepts buffer es ∧ headerEndOf buffer + paddingOf buffer ≤ buffer.length

/-- Accepted but for the padding count, which is more than what is left. -/
def Overpadded (buffer : Bytes) (es : List Extension) : Prop :=
  Accepts buffer es ∧ buffer.length < headerEndOf buffer + paddingOf buffer

/-- The octets have the fixed header of the packet. -/
structure SameHeader (p : RtpPacket) (buffer : Bytes) : Prop where
  hasPadding : p.hasPadding = hasPaddingOf buffer
  hasExtension : p.hasExtension = hasExtensionOf buffer
  marker : p.marker = (byteAt buffer 1).msb
  payloadType : p.payloadType = (byteAt buffer 1).setWidth 7
  sequenceNumber : p.sequenceNumber = get16 buffer 2
  timestamp : p.timestamp = get32 buffer 4
  ssrc : p.ssrc = get32 buffer 8

/-- The octets are well formed. Or they repeat the header of the packet as far as `Parse` gets: to a
CSRC list that is too long, where the packet has none and no extension block, or to a padding count
that is too large. -/
def Keeps (p : RtpPacket) (buffer : Bytes) : Prop :=
  Fits buffer ∨ SameHeader p buffer ∧
    (CsrcsCut buffer ∧ hasExtensionOf buffer = false ∧ p.csrcs = [] ∨
      Overpadded buffer p.extensions ∧ p.paddingSize = paddingOf buffer ∧
        p.csrcs = (List.range (csrcCountOf buffer)).map (fun i => get32 buffer (kFixedHeaderSize + i * 4)) ∧
        (hasExtensionOf buffer = true → p.extensionProfile = get16 buffer (csrcEndOf buffer) ∧
          p.extensionLen = get16 buffer (csrcEndOf buffer + 2)))

theorem RtpPacket.build_ok {p q : RtpPacket} {buffer : Bytes} (succeeds : p.build buffer = .ok q) :
    ∃ es, Accepts buffer es ∧ headerEndOf buffer + paddingOf buffer ≤ buffer.length ∧
      q = built p buffer es := by
  rcases build_cases p buffer with ⟨_, fails, _⟩ | short | ⟨es, accepts⟩
  · rw [fails] at succeeds
    cases succeeds
  · rw [build_cut p short] at succeeds
    cases succeeds
  · rw [build_accepts p accepts] at succeeds
    split at succeeds
    · cases succeeds
    · rename_i fits
      cases succeeds
      exact ⟨es, accepts, Nat.not_lt.mp fits, rfl⟩

theorem RtpPacket.WasBuilt.partition {p : RtpPacket} (wasBuilt : p.WasBuilt) :
    Partition p ∧ p.version = kRtpVersion := by
  obtain ⟨before, old, succeeds⟩ := wasBuilt
  obtain ⟨es, accepts, fits, rfl⟩ := build_ok succeeds
  refine ⟨built_partition accepts fits, ?_⟩
  rw [built, padded_eq]
  rfl

/-- The two failures that may leave a built packet, and when they do. -/
theorem cut_accessors {p : RtpPacket} {buffer : Bytes} (wasBuilt : p.WasBuilt) :
    (cut p buffer).accessors = p.accessors ↔
      SameHeader p buffer ∧ hasExtensionOf buffer = false ∧ p.csrcs = [] := by
  obtain ⟨partition, version⟩ := wasBuilt.partition
  have header := partition.header
  constructor
  · intro same
    simp only [RtpPacket.accessors, cut, headedPadded, headed, RtpPacket.mk.injEq, true_and, and_true] at same
    obtain ⟨_, padding, extension, marker, type, number, time, ssrc, csrcs, elements, offset⟩ := same
    refine ⟨⟨padding.symm, extension.symm, marker.symm, type.symm, number.symm, time.symm, ssrc.symm⟩,
      ?_, csrcs.symm⟩
    rw [← offset] at header
    cases bit : p.hasExtension with
    | true =>
      rw [bit, if_pos rfl] at header
      omega
    | false => rw [extension, bit]
  · rintro ⟨⟨padding, extension, marker, type, number, time, ssrc⟩, clear, none⟩
    have bit : p.hasExtension = false := extension.trans clear
    have empty : p.extensions = [] := by
      refine List.eq_nil_iff_forall_not_mem.mpr fun e member => ?_
      have set := (partition.elements e member).1
      rw [bit] at set
      cases set
    have offset : p.payloadOffset = kFixedHeaderSize := by
      rw [header, none, bit]
      rfl
    simp only [RtpPacket.accessors, cut, headedPadded, headed, RtpPacket.mk.injEq, true_and, and_true]
    exact ⟨version.symm, padding.symm, extension.symm, marker.symm, type.symm, number.symm, time.symm,
      ssrc.symm, none.symm, empty.symm, offset.symm⟩

theorem padded_accessors {p : RtpPacket} {buffer : Bytes} {es : List Extension}
    (wasBuilt : p.WasBuilt) (excess : Overpadded buffer es) :
    (padded p buffer es).accessors = p.accessors ↔
      SameHeader p buffer ∧ p.extensions = es ∧ p.paddingSize = paddingOf buffer ∧
        p.csrcs = (List.range (csrcCountOf buffer)).map (fun i => get32 buffer (kFixedHeaderSize + i * 4)) ∧
        (hasExtensionOf buffer = true → p.extensionProfile = get16 buffer (csrcEndOf buffer) ∧
          p.extensionLen = get16 buffer (csrcEndOf buffer + 2)) := by
  obtain ⟨partition, version⟩ := wasBuilt.partition
  have header := partition.header
  have counted : 0 < paddingOf buffer := by
    have room := excess.1.header
    have long := excess.2
    omega
  rw [padded_eq, padded_hasPadding counted]
  simp only [RtpPacket.accessors, extended, headedPadded, headed, RtpPacket.mk.injEq, true_and, and_true]
  constructor
  · rintro ⟨_, padding, extension, marker, type, number, time, ssrc, csrcs, profile, len, elements, offset,
      count⟩
    refine ⟨⟨padding.symm, extension.symm, marker.symm, type.symm, number.symm, time.symm, ssrc.symm⟩,
      elements.symm, count.symm, csrcs.symm, fun bit => ?_⟩
    rw [if_pos bit] at profile len
    exact ⟨profile.symm, len.symm⟩
  · rintro ⟨⟨padding, extension, marker, type, number, time, ssrc⟩, elements, count, csrcs, block⟩
    have length : p.csrcs.length = csrcCountOf buffer := by
      rw [csrcs, List.length_map, List.length_range]
    rw [length] at header
    refine ⟨version.symm, padding.symm, extension.symm, marker.symm, type.symm, number.symm, time.symm,
      ssrc.symm, csrcs.symm, ?_, ?_, elements.symm, ?_, count.symm⟩
    · split
      · rename_i bit
        exact (block bit).1.symm
      · rfl
    · split
      · rename_i bit
        exact (block bit).2.symm
      · rfl
    · rw [header, extension]
      unfold headerEndOf extensionWordsOf
      cases bit : hasExtensionOf buffer with
      | true =>
        rw [if_pos rfl, if_pos rfl, (block bit).2, Nat.add_assoc]
        rfl
      | false => rfl

/-- Every other failure changes the payload offset of a built packet. -/
theorem RtpPacket.WasBuilt.changed {p q : RtpPacket} (wasBuilt : p.WasBuilt)
    (early : q.payloadOffset = 0 ∨ BlockCut q) : q.accessors ≠ p.accessors := by
  intro same
  have header := wasBuilt.partition.1.header
  have fields := congrArg RtpPacket.payloadOffset same
  have bits := congrArg RtpPacket.hasExtension same
  have lists := congrArg RtpPacket.csrcs same
  have words := congrArg RtpPacket.extensionLen same
  simp only [RtpPacket.accessors] at fields bits lists words
  rw [← fields, ← bits, ← lists, ← words] at header
  rcases early with zero | ⟨bit, place⟩
  · rw [zero] at header
    unfold kFixedHeaderSize at header
    omega
  · rw [bit, if_pos rfl] at header
    omega

/-- `Build` does what it should on all octets when the packet was not built before, and else when they
are well formed or repeat its header. -/
theorem build_right_iff (p : RtpPacket) (buffer : Bytes) :
    BuildRight p buffer ↔ (p.WasBuilt → Keeps p buffer) := by
  constructor
  · rintro ⟨_, _, kept⟩ wasBuilt
    rcases build_cases p buffer with ⟨q, fails, early⟩ | short | ⟨es, accepts⟩
    · exact absurd (kept wasBuilt q fails) (wasBuilt.changed early)
    · obtain ⟨same, clear, none⟩ := (cut_accessors wasBuilt).mp (kept wasBuilt _ (build_cut p short))
      exact Or.inr ⟨same, Or.inl ⟨short, clear, none⟩⟩
    · by_cases long : buffer.length < headerEndOf buffer + paddingOf buffer
      · have fails := build_accepts p accepts
        rw [if_pos long] at fails
        obtain ⟨same, rfl, rest⟩ := (padded_accessors wasBuilt ⟨accepts, long⟩).mp (kept wasBuilt _ fails)
        exact Or.inr ⟨same, Or.inr ⟨⟨accepts, long⟩, rest⟩⟩
      · exact Or.inl ⟨es, accepts, Nat.not_lt.mp long⟩
  · intro keeps
    refine ⟨p.buildChecked_eq buffer, ?_, ?_⟩
    · intro q succeeds
      obtain ⟨es, accepts, fits, rfl⟩ := RtpPacket.build_ok succeeds
      exact ⟨built_partition accepts fits, rfl⟩
    · intro wasBuilt q fails
      rcases keeps wasBuilt with ⟨es, accepts, fits⟩ | ⟨same, ⟨short, clear, none⟩ | ⟨excess, rest⟩⟩
      · rw [build_accepts p accepts, if_neg (Nat.not_lt.mpr fits)] at fails
        cases fails
      · rw [build_cut p short] at fails
        cases fails
        exact (cut_accessors wasBuilt).mpr ⟨same, clear, none⟩
      · rw [build_accepts p excess.1, if_pos excess.2] at fails
        cases fails
        exact (padded_accessors wasBuilt excess).mpr ⟨same, rfl, rest⟩

/-- Twelve octets of header and two of payload. -/
def wholePacket : Bytes := [0x80, 96, 0, 7, 0, 0, 0, 1, 0, 0, 0, 2, 9, 9]

def wholeParsed : RtpPacket where
  version := 2
  payloadType := 96
  sequenceNumber := 7
  timestamp := 1
  ssrc := 2
  payloadOffset := 12
  payloadSize := 2
  buffer := wholePacket
  size := 14

/-- After a single octet the payload begins where the header does. -/
theorem short_build_moves_payload : ¬ ∀ (p : RtpPacket) (buffer : Bytes), BuildRight p buffer := by
  intro all
  have succeeds : RtpPacket.build {} wholePacket = .ok wholeParsed := by decide
  have fails : wholeParsed.build [0x80] = .error { wholeParsed with payloadOffset := 0 } := by decide
  have same := (all wholeParsed [0x80]).kept ⟨{}, wholePacket, succeeds⟩ _ fails
  exact absurd (congrArg RtpPacket.payloadOffset same) (by decide)

end MiniRtc.Rtp
