import MiniRtc.Rtp.Layout

/-! Retransmission: `BuildRtxPacket` and `ReSendPacket` on the side of the sender, the
pacer's and the transport's writes into the finished packet, and
`RestoreMediaPacketFromRtx` on the side of the receiver. -/
namespace MiniRtc.Rtp
open Wire

namespace RtpPacket

def updateSequenceNumber (p : RtpPacket) (sequenceNumber : BitVec 16) : RtpPacket :=
  if 4 ≤ p.buffer.length then
    { p with buffer := overwrite p.buffer 2 (put16 sequenceNumber), sequenceNumber }
  else p

/-- The low 24 bits, most significant octet first. -/
def sendTimeOctets (absSendTime : BitVec 32) : Bytes :=
  let t := absSendTime &&& 0x00FFFFFF
  [(t >>> 16).setWidth 8, (t >>> 8).setWidth 8, t.setWidth 8]

/-- The loop of `UpdateAbsoluteSendTimestamp`: the first element with the identifier, three
octets long and inside the buffer, is written. -/
def stampFirst (buffer : Bytes) (extensionId : Byte) (value : Bytes) :
    List Extension → Option (Bytes × List Extension)
  | [] => none
  | e :: rest =>
    if e.id ≠ extensionId ∨ e.len ≠ 3 ∨ buffer.length < e.dataOffset + 3 then
      (stampFirst buffer extensionId value rest).map fun (buffer, rest) => (buffer, e :: rest)
    else some (overwrite buffer e.dataOffset value, { e with data := value } :: rest)

/-- The packet afterwards, and the result of the call. -/
def updateAbsoluteSendTimestamp (p : RtpPacket) (extensionId : Byte) (absSendTime : BitVec 32) :
    RtpPacket × Bool :=
  if p.extensionProfile ≠ kOneByteExtensionProfileId then (p, false)
  else
    match stampFirst p.buffer extensionId (sendTimeOctets absSendTime) p.extensions with
    | none => (p, false)
    | some (buffer, extensions) => ({ p with buffer, extensions }, true)

end RtpPacket

structure RtpPacketToSend extends RtpPacket where
  retransmittedSequenceNumber : Option (BitVec 16) := none
  originalSsrc : Option (BitVec 32) := none
deriving DecidableEq, Repr

namespace RtpPacketToSend

/-- `rtp_packet_frame_` of `BuildRtxPacket`, where the extension block can be copied. -/
def rtxFrame (p : RtpPacketToSend) (osn : BitVec 16) : Option Bytes :=
  let csrcCount := p.csrcs.length
  let head := fixedHeader p.version p.hasPadding p.hasExtension csrcCount p.marker p.payloadType
    p.sequenceNumber p.timestamp p.ssrc ++ (p.csrcs.take csrcCount).flatMap put32
  if p.hasExtension then
    let extensionOffset := kFixedHeaderSize + csrcCount * 4
    if p.payloadOffset < extensionOffset ∨ p.buffer.length < p.payloadOffset then none
    else some (head ++ slice p.buffer extensionOffset (p.payloadOffset - extensionOffset) ++
      put16 osn ++ p.payload)
  else some (head ++ put16 osn ++ p.payload)

/-- `BuildRtxPacket`; the result of its own `Build` is ignored. -/
def buildRtxPacket (p : RtpPacketToSend) : Option RtpPacketToSend :=
  match p.retransmittedSequenceNumber with
  | none => none
  | some osn => (p.rtxFrame osn).map fun frame =>
    { p with toRtpPacket := { p.toRtpPacket with payloadType := .rtx }.afterBuild frame }

/-- The copy that `ReSendPacket` makes of a stored packet. -/
def retransmission (stored : RtpPacketToSend) (rtxSsrc : BitVec 32) : Option RtpPacketToSend :=
  buildRtxPacket { stored with
    ssrc := rtxSsrc
    payloadType := .rtx
    retransmittedSequenceNumber := some stored.sequenceNumber
    originalSsrc := some stored.ssrc }

end RtpPacketToSend

/-- `RestoreMediaPacketFromRtx`. An error carries `media_packet` as it was left. -/
def restoreMediaPacketFromRtx (mediaSsrc : BitVec 32) (mediaPayloadType : PayloadType)
    (rtx media : RtpPacket) : Except RtpPacket RtpPacket :=
  if rtx.payloadType ≠ .rtx ∨ rtx.payloadSize < 2 ∨ rtx.payloadOffset < kFixedHeaderSize ∨
      mediaSsrc = 0 ∨ mediaPayloadType = .undefined ∨ mediaPayloadType = .rtx then .error media
  else
    let osn := get16 rtx.payload 0
    let padding := slice rtx.buffer (rtx.size - rtx.paddingSize) rtx.paddingSize
    let buffer := rtx.buffer.take rtx.payloadOffset ++ rtx.payload.drop 2 ++ padding
    let buffer := overwrite buffer 1 [(byteAt buffer 1 &&& 0x80) ||| mediaPayloadType.setWidth 8]
    let buffer := overwrite buffer 2 (put16 osn)
    let buffer := overwrite buffer 8 (put32 mediaSsrc)
    media.build buffer

/-! ### The four forms of the packet
With the tail of the header as `tail`, the media packet, the packet on the wire and the
restored packet are one header each, followed by the same octets. -/

theorem cons_and : ∀ (marker : Bool) (p : PayloadType),
    (BitVec.cons marker p : Byte) &&& 0x80 = BitVec.cons marker (0 : PayloadType) := by decide

theorem cons_or : ∀ (marker : Bool) (q : PayloadType),
    (BitVec.cons marker (0 : PayloadType) : Byte) ||| q.setWidth 8 = BitVec.cons marker q := by decide

section Rewrite

variable (x : Bool) (cc : Nat) (marker : Bool) (pt : PayloadType) (seq : BitVec 16)
  (ts ssrc : BitVec 32) (rest : Bytes)

theorem overwrite_payloadType (pt' : PayloadType) :
    overwrite (plainHeader x cc marker pt seq ts ssrc ++ rest) 1
      [(byteAt (plainHeader x cc marker pt seq ts ssrc ++ rest) 1 &&& 0x80) ||| pt'.setWidth 8] =
      plainHeader x cc marker pt' seq ts ssrc ++ rest := by
  rw [plainHeader_second, cons_and, cons_or]
  rfl

theorem overwrite_sequence (seq' : BitVec 16) :
    overwrite (plainHeader x cc marker pt seq ts ssrc ++ rest) 2 (put16 seq') =
      plainHeader x cc marker pt seq' ts ssrc ++ rest := rfl

theorem overwrite_ssrc (ssrc' : BitVec 32) :
    overwrite (plainHeader x cc marker pt seq ts ssrc ++ rest) 8 (put32 ssrc') =
      plainHeader x cc marker pt seq ts ssrc' ++ rest := rfl

end Rewrite

theorem slice_slice (b : Bytes) {o i n k : Nat} (inside : i + n ≤ k) :
    slice (slice b o k) i n = slice b (o + i) n := by
  simp only [slice, List.drop_take, List.drop_drop, List.take_take]
  rw [Nat.min_eq_left (by omega)]

/-- Writing a list of words that was read from the buffer. -/
theorem flatMap_put32_get32 {b : Bytes} {o n : Nat} (fits : o + n * 4 ≤ b.length) :
    ((List.range n).map fun i => get32 b (o + i * 4)).flatMap put32 = slice b o (n * 4) := by
  have size : (slice b o (n * 4)).length ≤ n * 4 := by
    simp only [slice, List.length_take]
    omega
  rw [← flatten_pieces 4 n (slice b o (n * 4)) size, List.flatMap_def, List.map_map]
  congr 1
  apply List.map_congr_left
  intro i h
  have inside := List.mem_range.mp h
  simp only [Function.comp_def]
  rw [put32_get32 (by omega), ← slice_slice b (k := n * 4) (by omega)]
  rfl

/-- The tail of the header is written from the parsed CSRC list and the octets of the block. -/
theorem headerTail_eq {media : Bytes} (room : headerEndOf media ≤ media.length) :
    headerTail media =
      ((List.range (csrcCountOf media)).map fun i => get32 media (kFixedHeaderSize + i * 4)).flatMap
        put32 ++ slice media (csrcEndOf media) (headerEndOf media - csrcEndOf media) := by
  have order := csrcEndOf_le_headerEndOf media
  have split : headerEndOf media - kFixedHeaderSize =
      csrcCountOf media * 4 + (headerEndOf media - csrcEndOf media) := by
    simp only [csrcEndOf] at *
    omega
  rw [flatMap_put32_get32 (by simp only [csrcEndOf] at *; omega), headerTail, split]
  simp only [slice, List.take_add, List.drop_drop]
  rfl

section RoundTrip

variable {self : RtpPacket} {media : Bytes} {es : List Extension}

/-- The packet on the wire, with a tail of the same length in the place of the original one. -/
abbrev wireOf (media tail : Bytes) (seq : BitVec 16) (rtxSsrc : BitVec 32) : Bytes :=
  plainHeader (hasExtensionOf media) (csrcCountOf media) (byteAt media 1).msb .rtx seq
    (get32 media 4) rtxSsrc ++ (tail ++ (put16 (get16 media 2) ++ media.drop (headerEndOf media)))

/-- The media packet with another tail. -/
abbrev mediaWith (media tail : Bytes) : Bytes :=
  plainHeader (hasExtensionOf media) (csrcCountOf media) (byteAt media 1).msb
    ((byteAt media 1).setWidth 7) (get16 media 2) (get32 media 4) (get32 media 8) ++
      (tail ++ media.drop (headerEndOf media))

theorem parsed_payload (self : RtpPacket) (media : Bytes) (es : List Extension) :
    (parsed self media es).payload = media.drop (headerEndOf media) := by
  show slice media (headerEndOf media) (media.length - headerEndOf media) = _
  rw [slice, List.take_of_length_le]
  rw [List.length_drop]

theorem rtxFrame_eq (self : RtpPacket) (accepted : Accepts media es) (osn : BitVec 16) (rtxSsrc : BitVec 32)
    (p : RtpPacketToSend)
    (fields : p.toRtpPacket = { parsed self media es with ssrc := rtxSsrc, payloadType := .rtx }) :
    p.rtxFrame osn = some (plainHeader (hasExtensionOf media) (csrcCountOf media)
      (byteAt media 1).msb .rtx (get16 media 2) (get32 media 4) rtxSsrc ++
        (headerTail media ++ (put16 osn ++ media.drop (headerEndOf media)))) := by
  have order := csrcEndOf_le_headerEndOf media
  have room := accepted.header
  have payload : p.payload = media.drop (headerEndOf media) := by
    rw [fields]
    exact parsed_payload self media es
  rw [headerTail_eq room]
  rw [RtpPacketToSend.rtxFrame, payload]
  simp only [fields, parsed, List.length_map, List.length_range, List.take_of_length_le, Nat.le_refl]
  cases block : hasExtensionOf media with
  | false =>
    have bare : headerEndOf media = csrcEndOf media := by simp [headerEndOf, block]
    simp [bare, slice]
  | true =>
    have inside : ¬ (headerEndOf media < kFixedHeaderSize + csrcCountOf media * 4 ∨
        media.length < headerEndOf media) := by
      simp only [csrcEndOf] at order
      omega
    rw [if_pos rfl, if_neg inside]
    simp only [List.append_assoc]
    rfl

/-- A tail that differs from the original one in values of elements alone. -/
structure TailOf (media : Bytes) (es : List Extension) (tail : Bytes) : Prop where
  length : tail.length = (headerTail media).length
  values : ∀ i < tail.length, byteAt (headerTail media) i ≠ byteAt tail i →
    ∃ e ∈ es, e.dataOffset ≤ kFixedHeaderSize + i ∧ kFixedHeaderSize + i < e.dataOffset + e.len

theorem tailOf_self (media : Bytes) (es : List Extension) : TailOf media es (headerTail media) :=
  ⟨rfl, fun _ _ differs => absurd rfl differs⟩

theorem byteAt_headerTail {i : Nat} (accepted : Accepts media es) (inside : i < (headerTail media).length) :
    byteAt (headerTail media) i = byteAt media (kFixedHeaderSize + i) := by
  have length := headerTail_length accepted.header
  rw [headerTail, slice, byteAt_take (by omega), byteAt_drop]

/-- Whatever the fields of the fixed header and the octets behind the tail. -/
theorem TailOf.sameLayout {tail : Bytes} (close : TailOf media es tail) (accepted : Accepts media es)
    (clear : hasPaddingOf media = false) (marker : Bool) (pt : PayloadType) (seq : BitVec 16)
    (ts ssrc : BitVec 32) (rest : Bytes) :
    SameLayout media es (plainHeader (hasExtensionOf media) (csrcCountOf media) marker pt seq ts ssrc ++
      (tail ++ rest)) where
  first := by
    rw [plainHeader_first, hasExtensionOf, csrcCountOf, firstByte_write _ accepted.version clear]
  room := by
    have length := headerTail_length accepted.header
    have same := close.length
    simp only [List.length_append, fixedHeader_length]
    simp only [kFixedHeaderSize] at length
    omega
  values := by
    intro i low high differs
    have length := headerTail_length accepted.header
    have same := close.length
    have place : kFixedHeaderSize + (i - kFixedHeaderSize) = i := by omega
    have mine : byteAt (plainHeader (hasExtensionOf media) (csrcCountOf media) marker pt seq ts ssrc ++
        (tail ++ rest)) i = byteAt tail (i - kFixedHeaderSize) := by
      rw [byteAt_append_right (by exact low), byteAt_append_left (by
        simp only [fixedHeader_length]
        simp only [kFixedHeaderSize] at *
        omega)]
      rfl
    have original := byteAt_headerTail accepted (i := i - kFixedHeaderSize) (by omega)
    rw [place] at original
    rw [mine, ← original] at differs
    obtain ⟨e, member, left, right⟩ := close.values (i - kFixedHeaderSize) (by omega) differs
    exact ⟨e, member, by omega, by omega⟩

/-- The receiver turns a packet on the wire into the media packet with the tail that came. -/
theorem restore_wireOf {tail : Bytes} (close : TailOf media es tail) (accepted : Accepts media es)
    (clear : hasPaddingOf media = false) (known : get32 media 8 ≠ 0)
    (defined : (byteAt media 1).setWidth 7 ≠ PayloadType.undefined)
    (plain : (byteAt media 1).setWidth 7 ≠ PayloadType.rtx)
    (seq : BitVec 16) (rtxSsrc : BitVec 32) (received empty : RtpPacket) :
    ∃ wire restored, received.build (wireOf media tail seq rtxSsrc) = .ok wire ∧
      restoreMediaPacketFromRtx (get32 media 8) ((byteAt media 1).setWidth 7) wire empty =
        .ok restored ∧ restored.buffer = mediaWith media tail := by
  have small := csrcCountOf_le media
  have arrives := close.sameLayout accepted clear (byteAt media 1).msb .rtx seq (get32 media 4)
    rtxSsrc (put16 (get16 media 2) ++ media.drop (headerEndOf media))
  have returns := close.sameLayout accepted clear (byteAt media 1).msb ((byteAt media 1).setWidth 7)
    (get16 media 2) (get32 media 4) (get32 media 8) (media.drop (headerEndOf media))
  obtain ⟨es₁, ok₁, _⟩ := arrives.accepts accepted
  obtain ⟨es₂, ok₂, _⟩ := returns.accepts accepted
  have clear₁ : hasPaddingOf (wireOf media tail seq rtxSsrc) = false := plainHeader_clear _ _ _ _ _ _ _ _ small
  have clear₂ : hasPaddingOf (mediaWith media tail) = false := plainHeader_clear _ _ _ _ _ _ _ _ small
  have built₁ := build_parsed received clear₁ ok₁
  have built₂ := build_parsed empty clear₂ ok₂
  have header : headerEndOf (wireOf media tail seq rtxSsrc) = 12 + tail.length := by
    rw [arrives.headerEndOf_eq accepted.extensions, ← headerTail_length accepted.header, close.length]
    rfl
  have cut : wireOf media tail seq rtxSsrc = (plainHeader (hasExtensionOf media) (csrcCountOf media)
      (byteAt media 1).msb .rtx seq (get32 media 4) rtxSsrc ++ tail) ++
        (put16 (get16 media 2) ++ media.drop (headerEndOf media)) := by
    simp only [wireOf, List.append_assoc]
  have front : (wireOf media tail seq rtxSsrc).take (12 + tail.length) =
      plainHeader (hasExtensionOf media) (csrcCountOf media) (byteAt media 1).msb .rtx seq
        (get32 media 4) rtxSsrc ++ tail := by
    rw [cut, List.take_left']
    simp only [List.length_append, fixedHeader_length]
  have back : (wireOf media tail seq rtxSsrc).drop (12 + tail.length) =
      put16 (get16 media 2) ++ media.drop (headerEndOf media) := by
    rw [cut, List.drop_left']
    simp only [List.length_append, fixedHeader_length]
  refine ⟨_, parsed empty (mediaWith media tail) es₂, built₁, ?_, rfl⟩
  have payload := parsed_payload received (wireOf media tail seq rtxSsrc) es₁
  rw [header, back] at payload
  have guards : ¬ ((parsed received (wireOf media tail seq rtxSsrc) es₁).payloadType ≠ .rtx ∨
      (parsed received (wireOf media tail seq rtxSsrc) es₁).payloadSize < 2 ∨
      (parsed received (wireOf media tail seq rtxSsrc) es₁).payloadOffset < kFixedHeaderSize ∨
      get32 media 8 = 0 ∨ (byteAt media 1).setWidth 7 = PayloadType.undefined ∨
        (byteAt media 1).setWidth 7 = PayloadType.rtx) := by
    have type : (parsed received (wireOf media tail seq rtxSsrc) es₁).payloadType = .rtx := by
      show (byteAt (wireOf media tail seq rtxSsrc) 1).setWidth 7 = _
      rw [plainHeader_second, BitVec.setWidth_cons]
    have size : 2 ≤ (parsed received (wireOf media tail seq rtxSsrc) es₁).payloadSize := by
      show 2 ≤ (wireOf media tail seq rtxSsrc).length - headerEndOf (wireOf media tail seq rtxSsrc)
      rw [header, cut]
      simp only [List.length_append, fixedHeader_length, put16_length]
      omega
    have start : kFixedHeaderSize ≤ (parsed received (wireOf media tail seq rtxSsrc) es₁).payloadOffset := by
      show 12 ≤ headerEndOf (wireOf media tail seq rtxSsrc)
      omega
    rw [type]
    simp only [ne_eq, not_true, known, defined, plain, or_false, false_or]
    omega
  have osn : get16 (put16 (get16 media 2) ++ media.drop (headerEndOf media)) 0 = get16 media 2 :=
    get16_put16 [] _ _ 0 rfl
  unfold restoreMediaPacketFromRtx
  rw [if_neg guards, payload, osn]
  have parts : (parsed received (wireOf media tail seq rtxSsrc) es₁).buffer.take
      (parsed received (wireOf media tail seq rtxSsrc) es₁).payloadOffset ++
        (put16 (get16 media 2) ++ media.drop (headerEndOf media)).drop 2 ++
        slice (parsed received (wireOf media tail seq rtxSsrc) es₁).buffer
          ((parsed received (wireOf media tail seq rtxSsrc) es₁).size -
            (parsed received (wireOf media tail seq rtxSsrc) es₁).paddingSize)
          (parsed received (wireOf media tail seq rtxSsrc) es₁).paddingSize =
      plainHeader (hasExtensionOf media) (csrcCountOf media) (byteAt media 1).msb .rtx seq
        (get32 media 4) rtxSsrc ++ (tail ++ media.drop (headerEndOf media)) := by
    show (wireOf media tail seq rtxSsrc).take (headerEndOf (wireOf media tail seq rtxSsrc)) ++
      media.drop (headerEndOf media) ++ slice (wireOf media tail seq rtxSsrc) _ 0 = _
    rw [header, front, slice, List.take_zero, List.append_nil, List.append_assoc]
  simp only [parts]
  rw [overwrite_payloadType, overwrite_sequence, overwrite_ssrc]
  exact built₂

/-- The packet that the sender makes, before the pacer numbers it. -/
theorem retransmission_eq (accepted : Accepts media es) (clear : hasPaddingOf media = false)
    (stored : RtpPacketToSend) (fields : stored.toRtpPacket = parsed self media es)
    (rtxSsrc : BitVec 32) :
    ∃ rtx base es', stored.retransmission rtxSsrc = some rtx ∧
      rtx.toRtpPacket = parsed base (wireOf media (headerTail media) (get16 media 2) rtxSsrc) es' ∧
      es'.map Extension.place = es.map Extension.place := by
  have small := csrcCountOf_le media
  have same := (tailOf_self media es).sameLayout accepted clear (byteAt media 1).msb .rtx
    (get16 media 2) (get32 media 4) rtxSsrc (put16 (get16 media 2) ++ media.drop (headerEndOf media))
  obtain ⟨es', ok, places⟩ := same.accepts accepted
  have number : stored.sequenceNumber = get16 media 2 := by rw [fields]; rfl
  have frame := rtxFrame_eq self accepted stored.sequenceNumber rtxSsrc
    { stored with
      ssrc := rtxSsrc
      payloadType := .rtx
      retransmittedSequenceNumber := some stored.sequenceNumber
      originalSsrc := some stored.ssrc } (by rw [fields])
  rw [number] at frame
  unfold RtpPacketToSend.retransmission RtpPacketToSend.buildRtxPacket
  simp only [number, frame, Option.map_some, RtpPacket.afterBuild,
    build_parsed _ (plainHeader_clear _ _ _ _ _ _ _ _ small) ok]
  exact ⟨_, _, es', rfl, rfl, places⟩

theorem updateSequenceNumber_wireOf (media : Bytes) (base : RtpPacket) (tail : Bytes) (seq seq' : BitVec 16)
    (rtxSsrc : BitVec 32) (es : List Extension) :
    ((parsed base (wireOf media tail seq rtxSsrc) es).updateSequenceNumber seq').buffer =
        wireOf media tail seq' rtxSsrc ∧
      ((parsed base (wireOf media tail seq rtxSsrc) es).updateSequenceNumber seq').extensions = es := by
  have long : 4 ≤ (parsed base (wireOf media tail seq rtxSsrc) es).buffer.length := by
    show 4 ≤ (wireOf media tail seq rtxSsrc).length
    simp only [wireOf, List.length_append, fixedHeader_length]
    omega
  rw [RtpPacket.updateSequenceNumber, if_pos long]
  exact ⟨rfl, rfl⟩

/-- The loop writes the value of one element with the identifier, or nothing. -/
theorem stampFirst_eq_some {buffer value out : Bytes} {id : Byte} {es es' : List Extension}
    (stamped : RtpPacket.stampFirst buffer id value es = some (out, es')) :
    ∃ e ∈ es, e.id = id ∧ e.len = 3 ∧ out = overwrite buffer e.dataOffset value := by
  induction es generalizing es' with
  | nil => cases stamped
  | cons e rest ih =>
    unfold RtpPacket.stampFirst at stamped
    split at stamped
    · obtain ⟨⟨out', rest'⟩, later, same⟩ := Option.map_eq_some_iff.mp stamped
      cases same
      obtain ⟨e', member, h⟩ := ih later
      exact ⟨e', List.mem_cons_of_mem _ member, h⟩
    · rename_i this
      simp only [not_or, ne_eq, Decidable.not_not] at this
      cases Option.some.inj stamped
      exact ⟨e, List.mem_cons_self, this.1, this.2.1, rfl⟩

theorem updateAbsoluteSendTimestamp_cases (p : RtpPacket) (id : Byte) (time : BitVec 32) :
    p.updateAbsoluteSendTimestamp id time = (p, false) ∨
      (p.updateAbsoluteSendTimestamp id time).2 = true ∧ ∃ e ∈ p.extensions, e.id = id ∧ e.len = 3 ∧
        (p.updateAbsoluteSendTimestamp id time).1.buffer =
          overwrite p.buffer e.dataOffset (RtpPacket.sendTimeOctets time) := by
  unfold RtpPacket.updateAbsoluteSendTimestamp
  split
  · exact .inl rfl
  · cases stamp : RtpPacket.stampFirst p.buffer id (RtpPacket.sendTimeOctets time) p.extensions with
    | none => exact .inl rfl
    | some result => exact .inr ⟨rfl, stampFirst_eq_some stamp⟩

theorem mem_of_place {es es' : List Extension} {e : Extension}
    (places : es'.map Extension.place = es.map Extension.place) (member : e ∈ es') :
    ∃ e' ∈ es, e'.id = e.id ∧ e'.len = e.len ∧ e'.dataOffset = e.dataOffset := by
  have there : e.place ∈ es.map Extension.place := places ▸ List.mem_map_of_mem member
  obtain ⟨e', member', same⟩ := List.mem_map.mp there
  simp only [Extension.place, Prod.mk.injEq] at same
  exact ⟨e', member', same⟩

/-- Writing the value of an element changes the tail alone, and there only that value. -/
theorem overwrite_value {e : Extension} (value : Bytes) (accepted : Accepts media es) (member : e ∈ es)
    (size : value.length = e.len) (seq : BitVec 16) (rtxSsrc : BitVec 32) :
    TailOf media es (overwrite (headerTail media) (e.dataOffset - 12) value) ∧
      overwrite (wireOf media (headerTail media) seq rtxSsrc) e.dataOffset value =
        wireOf media (overwrite (headerTail media) (e.dataOffset - 12) value) seq rtxSsrc ∧
      mediaWith media (overwrite (headerTail media) (e.dataOffset - 12) value) =
        overwrite (mediaWith media (headerTail media)) e.dataOffset value := by
  obtain ⟨low, high⟩ := extensionsOf_mem accepted.extensions member
  have start : kFixedHeaderSize ≤ csrcEndOf media := Nat.le_add_right _ _
  have length := headerTail_length accepted.header
  simp only [kFixedHeaderSize] at start length
  have fits : e.dataOffset - 12 + value.length ≤ (headerTail media).length := by omega
  refine ⟨⟨overwrite_length fits, ?_⟩, ?_, ?_⟩
  · intro i inside differs
    refine ⟨e, member, ?_⟩
    by_contra outside
    apply differs
    rw [byteAt_overwrite_outside fits]
    simp only [kFixedHeaderSize] at outside
    omega
  · rw [wireOf, overwrite_append_right (by simp only [fixedHeader_length]; omega),
      overwrite_append_left (by simp only [fixedHeader_length]; omega)]
    rfl
  · rw [mediaWith, mediaWith, overwrite_append_right (by simp only [fixedHeader_length]; omega),
      overwrite_append_left (by simp only [fixedHeader_length]; omega)]
    rfl

end RoundTrip

/-- A retransmission restores the media packet; a send time written on the way changes the
value of one extension element with the given identifier, or nothing. -/
theorem retransmission_restores (self : RtpPacket) (media : Bytes) (stored : RtpPacketToSend)
    (built : self.build media = .ok stored.toRtpPacket) (clear : hasPaddingOf media = false)
    (known : stored.ssrc ≠ 0) (defined : stored.payloadType ≠ .undefined)
    (plain : stored.payloadType ≠ .rtx) (rtxSsrc : BitVec 32) (rtxSequenceNumber : BitVec 16)
    (received empty : RtpPacket) :
    ∃ rtx, stored.retransmission rtxSsrc = some rtx ∧
      (∃ wire restored,
        received.build (rtx.updateSequenceNumber rtxSequenceNumber).buffer = .ok wire ∧
        restoreMediaPacketFromRtx stored.ssrc stored.payloadType wire empty = .ok restored ∧
        restored.buffer = media) ∧
      ∀ extensionId absSendTime, ∃ wire restored,
        received.build ((rtx.updateSequenceNumber rtxSequenceNumber).updateAbsoluteSendTimestamp
          extensionId absSendTime).1.buffer = .ok wire ∧
        restoreMediaPacketFromRtx stored.ssrc stored.payloadType wire empty = .ok restored ∧
        if ((rtx.updateSequenceNumber rtxSequenceNumber).updateAbsoluteSendTimestamp
            extensionId absSendTime).2 then
          ∃ e ∈ stored.extensions, e.id = extensionId ∧ e.len = 3 ∧
            restored.buffer = overwrite media e.dataOffset (RtpPacket.sendTimeOctets absSendTime)
        else restored.buffer = media := by
  obtain ⟨es, accepted, fields⟩ := (build_eq_ok_iff self _ media clear).mp built
  rw [fields] at known defined plain ⊢
  obtain ⟨rtx, base, es', made, object, places⟩ :=
    retransmission_eq accepted clear stored fields rtxSsrc
  have whole := (eq_plainHeader accepted clear).symm
  have unchanged := restore_wireOf (tailOf_self media es) accepted clear known defined plain rtxSequenceNumber rtxSsrc
    received empty
  rw [show mediaWith media (headerTail media) = media from whole] at unchanged
  obtain ⟨buffer, elements⟩ := updateSequenceNumber_wireOf media base (headerTail media)
    (get16 media 2) rtxSequenceNumber rtxSsrc es'
  rw [← object] at buffer elements
  refine ⟨rtx, made, by rw [buffer]; exact unchanged, ?_⟩
  intro id time
  rcases updateAbsoluteSendTimestamp_cases (rtx.updateSequenceNumber rtxSequenceNumber) id time with
    nothing | ⟨done, e, member, sameId, three, out⟩
  · rw [nothing, buffer]
    exact unchanged
  · rw [elements] at member
    obtain ⟨e', member', atId, atLen, atOffset⟩ := mem_of_place places member
    obtain ⟨close, onWire, onMedia⟩ := overwrite_value (RtpPacket.sendTimeOctets time)
      accepted member' (by rw [atLen, three]; rfl) rtxSequenceNumber rtxSsrc
    obtain ⟨wire, restored, arrives, returns, content⟩ := restore_wireOf close accepted clear
      known defined plain rtxSequenceNumber rtxSsrc received empty
    rw [onMedia, show mediaWith media (headerTail media) = media from whole] at content
    rw [← onWire, atOffset] at arrives
    refine ⟨wire, restored, by rw [out, buffer]; exact arrives, returns, ?_⟩
    rw [if_pos done]
    exact ⟨e', member', by rw [atId, sameId], by rw [atLen, three], content⟩

/-- One CSRC, a send time element behind padding, an empty payload. -/
def rtxExample : Bytes :=
  [0x91, 0xE0, 0xFF, 0xFF, 0, 0, 0, 9, 0, 0, 0, 7, 1, 2, 3, 4, 0xBE, 0xDE, 0, 2, 0, 0x32, 5, 6, 7, 0, 0, 0]

theorem retransmission_restores_empty_payload :
    ∃ stored rtx wire restored, ({} : RtpPacket).build rtxExample = .ok stored ∧
      RtpPacketToSend.retransmission { toRtpPacket := stored } 8 = some rtx ∧
      ({} : RtpPacket).build (rtx.updateSequenceNumber 3).buffer = .ok wire ∧
      restoreMediaPacketFromRtx stored.ssrc stored.payloadType wire {} = .ok restored ∧
      restored.buffer = rtxExample := by
  obtain ⟨stored, built, known, defined, plain⟩ : ∃ p, ({} : RtpPacket).build rtxExample = .ok p ∧
      p.ssrc ≠ 0 ∧ p.payloadType ≠ .undefined ∧ p.payloadType ≠ .rtx :=
    ⟨({} : RtpPacket).afterBuild rtxExample, by decide, by decide, by decide, by decide⟩
  obtain ⟨rtx, made, ⟨wire, restored, h⟩, _⟩ := retransmission_restores {} rtxExample
    { toRtpPacket := stored } built (by decide) known defined plain 8 3 {} {}
  exact ⟨stored, rtx, wire, restored, built, made, h⟩

end MiniRtc.Rtp
