import MiniRtc.Video.Av1

/-! From `RtpPacketizerAv1::Build` to a committed frame. -/
namespace MiniRtc.Video
open Wire Wrapping Rtp

/-! ### What the receiver reads from a packet of the packetizer -/

/-- A packet as the receiver sees it. -/
def seenAv1 (self : RtpPacketizer) (timestamp : BitVec 32) (sent : Bool × Bytes) : RtpPacketAv1 :=
  { toRtpPacket := (self.sent sent.1 timestamp sent.2).addOffsetToPayload 1
    av1AggrHeader := byteAt sent.2 0
    z := byteAt sent.2 0 >>> 7
    y := byteAt sent.2 0 >>> 6 &&& 0x01
    w := byteAt sent.2 0 >>> 4 &&& 0x03
    n := byteAt sent.2 0 >>> 3 &&& 0x01 }

theorem depacketize_av1 (self : RtpPacketizer) (timestamp : BitVec 32) (sent : Bool × Bytes)
    (nonempty : sent.2 ≠ []) :
    av1.depacketize (self.sent sent.1 timestamp sent.2) = some (seenAv1 self timestamp sent) := by
  have some := List.length_pos_iff.mpr nonempty
  simp only [av1, show (self.sent sent.1 timestamp sent.2).buffer =
    self.packetFrame sent.1 timestamp sent.2 from rfl, RtpPacketizer.build_packetFrame,
    getFrameHeaderInfoAv1, RtpPacketizer.sent_payloadSize, RtpPacketizer.sent_payload,
    Nat.not_lt.mpr some, if_false]
  rfl

theorem av1_keepsFields : av1.KeepsFields := by
  intro m q read
  have rebuilt : av1.depacketize m.packet = getFrameHeaderInfoAv1 m.packet := by
    simp only [av1, m.built]
  rw [rebuilt, getFrameHeaderInfoAv1] at read
  split at read
  · cases read
  · cases read
    exact ⟨rfl, rfl⟩

theorem aggrHeader_read : ∀ z y n : Bool,
    RtpPacketizerAv1.aggrHeader z y 1 n >>> 7 = (if z then 1 else 0) ∧
      RtpPacketizerAv1.aggrHeader z y 1 n >>> 6 &&& 0x01 = (if y then 1 else 0) ∧
      RtpPacketizerAv1.aggrHeader z y 1 n >>> 4 &&& 0x03 = 1 ∧
      RtpPacketizerAv1.aggrHeader z y 1 n >>> 3 &&& 0x01 = (if n then 1 else 0) := by decide

section Seen

variable (self : RtpPacketizer) (timestamp : BitVec 32) (isKey first last : Bool) (piece : Bytes)

theorem seenAv1_start :
    (seenAv1 self timestamp (RtpPacketizerAv1.unit isKey first last piece)).av1FrameStart = first := by
  obtain ⟨z, y, w, _⟩ := aggrHeader_read (!first) (!last) (isKey && first)
  simp only [RtpPacketAv1.av1FrameStart, seenAv1, RtpPacketizerAv1.unit,
    show ∀ b : Byte, byteAt (b :: piece) 0 = b from fun _ => rfl, z, y, w]
  cases first <;> cases last <;> rfl

theorem seenAv1_end :
    (seenAv1 self timestamp (RtpPacketizerAv1.unit isKey first last piece)).av1FrameEnd = last := by
  obtain ⟨z, y, w, _⟩ := aggrHeader_read (!first) (!last) (isKey && first)
  simp only [RtpPacketAv1.av1FrameEnd, seenAv1, RtpPacketizerAv1.unit,
    show ∀ b : Byte, byteAt (b :: piece) 0 = b from fun _ => rfl, z, y, w]
  cases first <;> cases last <;> rfl

theorem seenAv1_key :
    (seenAv1 self timestamp (RtpPacketizerAv1.unit isKey first last piece)).isKeyFrame =
      (isKey && first) := by
  obtain ⟨_, _, _, n⟩ := aggrHeader_read (!first) (!last) (isKey && first)
  simp only [RtpPacketAv1.isKeyFrame, seenAv1, RtpPacketizerAv1.unit,
    show ∀ b : Byte, byteAt (b :: piece) 0 = b from fun _ => rfl, n]
  cases isKey <;> cases first <;> rfl

theorem seenAv1_payload :
    (seenAv1 self timestamp (RtpPacketizerAv1.unit isKey first last piece)).payload = piece := by
  simp only [seenAv1, RtpPacket.addOffsetToPayload_payload, RtpPacketizer.sent_payload,
    RtpPacketizerAv1.unit, List.drop_succ_cons, List.drop_zero]

end Seen

/-! ### The packets of one temporal unit -/

/-- The unit at an index of a list of pieces. -/
def unitAt (isKey : Bool) (pieces : List Bytes) (k : Nat) (piece : Bytes) : Bool × Bytes :=
  RtpPacketizerAv1.unit isKey (decide (k = 0)) (decide (k + 1 = pieces.length)) piece

/-- All packets of a temporal unit as the receiver sees them. -/
def framePackets (self : RtpPacketizer) (isKey : Bool) (timestamp : BitVec 32) (pieces : List Bytes) :
    List RtpPacketAv1 :=
  pieces.mapIdx fun k piece => seenAv1 (numbered self k) timestamp (unitAt isKey pieces k piece)

section Frame

variable {self : RtpPacketizer} (isKey : Bool) (payload : Bytes) (timestamp : BitVec 32)

/-- The pieces of all OBUs of the input. -/
def piecesOf (self : RtpPacketizer) (payload : Bytes) : List Bytes :=
  (parseObus payload).flatMap (RtpPacketizerAv1.pieces self.maxPayloadSize)

theorem build_eq (positive : 0 < self.maxPayloadSize) :
    (RtpPacketizerAv1.build self isKey payload timestamp).1 =
      (piecesOf self payload).mapIdx fun k piece =>
        (numbered self k).sent (unitAt isKey (piecesOf self payload) k piece).1 timestamp
          (unitAt isKey (piecesOf self payload) k piece).2 := by
  have units := RtpPacketizerAv1.units_eq positive isKey (parseObus payload) 0
  simp only [Nat.zero_add, true_and] at units
  simp only [RtpPacketizerAv1.build, units, RtpPacketizer.emit_packets, List.mapIdx_mapIdx]
  rfl

theorem framePackets_payload (pieces : List Bytes) :
    (framePackets self isKey timestamp pieces).map av1.payload = pieces := by
  apply List.ext_getElem
  · simp [framePackets]
  · intro k _ inside
    simp only [framePackets, List.getElem_map, List.getElem_mapIdx]
    exact seenAv1_payload ..

theorem framePackets_isFrame (pieces : List Bytes) (nonempty : pieces ≠ [])
    (short : pieces.length ≤ kMaxPacketsPerFrame) :
    IsFrame av1.toCodec timestamp (self.sequenceNumber + 1)
      (framePackets self isKey timestamp pieces) := by
  refine ⟨?_, ?_, ?_, ?_, ?_, ?_⟩
  · simpa [framePackets] using nonempty
  · simpa [framePackets] using short
  · intro p member
    obtain ⟨k, inside, rfl⟩ := List.mem_mapIdx.mp member
    exact RtpPacketizer.sent_timestamp ..
  · intro k inside
    simp only [framePackets, List.getElem_mapIdx, sequenceNumberAt_succ]
    exact RtpPacketizer.sent_sequenceNumber ..
  · intro k inside
    simp only [framePackets, List.getElem_mapIdx]
    exact (congrArg (· = true) (seenAv1_start ..)).to_iff.trans decide_eq_true_iff
  · intro k inside
    simp only [framePackets, List.getElem_mapIdx, List.length_mapIdx]
    exact (congrArg (· = true) (seenAv1_end ..)).to_iff.trans decide_eq_true_iff

end Frame

/-! ### The round trip -/

/-- The packets of one temporal unit: numbered and marked as the receiver wants it. -/
structure Av1Packetized (packetizer : RtpPacketizer) (packets : List RtpPacket) : Prop where
  numbers : ∀ i (h : i < packets.length),
    packets[i].sequenceNumber = packetizer.sequenceNumber + BitVec.ofNat 16 (i + 1)
  markers : ∀ i (h : i < packets.length), packets[i].marker = true ↔ i + 1 = packets.length
  bodies : ∀ i (h : i < packets.length), ∃ p, av1.depacketize packets[i] = some p ∧
    p.payload.length ≤ packetizer.maxPayloadSize ∧ (p.av1FrameStart = true ↔ i = 0) ∧
      (p.av1FrameEnd = true ↔ i + 1 = packets.length)

/-- A size of zero in one octet. -/
def RawObu.canonical (o : RawObu) : RawObu :=
  if o.body = [] then { o with sizeField := o.sizeField.map fun _ => [0] } else o

/-- The frame is the temporal unit with canonical zeros. -/
def CarriesObus (obus : List RawObu) (isKey : Bool) (f : CompleteFrame) : Prop :=
  f.frame = bytesOf (obus.map RawObu.canonical) ∧ f.isKeyframe = isKey

/-- Nothing of a concatenation of OBUs is lost, and nothing else is sent. -/
structure Av1Lossless (packetizer : RtpPacketizer) (isKey : Bool) (timestamp : BitVec 32)
    (payload : Bytes) (packets : List RtpPacket) : Prop where
  wellFormed : ∀ obus, obus ≠ [] → LegalObus EncodesSize obus → payload = bytesOf obus →
    packets.length ≤ kMaxPacketsPerFrame →
    Av1Packetized packetizer packets ∧
      ∀ (cfg : Config RtpPacketAv1), cfg.codec = av1 → ∀ (input : List Arrival),
        (∀ a ∈ input, OwnOrOther packets timestamp a.media.packet) →
        (∀ c ∈ commits (insertAll cfg {} input),
          (c.2.timestamp = timestamp → CarriesObus obus isKey c.2) ∧
            ∃ units, c.2.Genuine cfg.codec (input.map fun a => a.media.packet) units) ∧
        ∀ next : Arrival, OwnOrOther packets timestamp next.media.packet →
          ∃ committed, Reassembles cfg timestamp packets (CarriesObus obus isKey) input next committed
  malformed : (¬ ∃ obus, obus ≠ [] ∧ LegalObus EncodesSize obus ∧ payload = bytesOf obus) → packets = []

theorem RawObu.sent_eq {o : RawObu} (legal : o.Legal EncodesSize) : o.sent = o.canonical.bytes := by
  cases field : o.sizeField with
  | none =>
    unfold RawObu.sent RawObu.canonical
    split <;> simp [RawObu.bytes, field, keptPayload]
  | some f =>
    have short := (legal.size f field).2.1
    unfold RawObu.sent RawObu.canonical
    split
    · rename_i empty
      simp [RawObu.bytes, field, keptPayload, sizedPayload, empty]
    · rename_i nonempty
      simp [RawObu.bytes, field, keptPayload, sizedPayload, nonempty, sizeData, short]

section Packets

variable {self : RtpPacketizer} (positive : 0 < self.maxPayloadSize) {obus : List RawObu}
  (legal : LegalObus ReadsSize obus)
include positive legal

theorem piecesOf_flatten : (piecesOf self (bytesOf obus)).flatten = obus.flatMap RawObu.sent := by
  simp only [piecesOf, parseObus_eq legal]
  clear legal
  induction obus with
  | nil => rfl
  | cons o rest ih =>
    have first := RtpPacketizerAv1.pieces_flatten positive (rfl : o.parsed.size = o.parsed.payload.length)
    simp only [List.map_cons, List.flatMap_cons, List.flatten_append, ih, first]
    rfl

theorem piecesOf_length_le : ∀ p ∈ piecesOf self (bytesOf obus), p.length ≤ self.maxPayloadSize := by
  intro p member
  simp only [piecesOf, parseObus_eq legal, List.mem_flatMap, List.mem_map] at member
  obtain ⟨_, ⟨o, _, rfl⟩, there⟩ := member
  exact RtpPacketizerAv1.pieces_length_le positive rfl p there

theorem piecesOf_ne_nil (nonempty : obus ≠ []) : piecesOf self (bytesOf obus) ≠ [] := by
  intro empty
  have nothing := piecesOf_flatten positive legal
  rw [empty] at nothing
  cases obus with
  | nil => exact nonempty rfl
  | cons o rest => simp [RawObu.sent] at nothing

end Packets

section RoundTrip

variable {self : RtpPacketizer} (isKey : Bool) (timestamp : BitVec 32)
  (type : self.payloadType = .av1) (positive : 0 < self.maxPayloadSize)
include positive

theorem build_av1_length (payload : Bytes) : (RtpPacketizerAv1.build self isKey payload timestamp).1.length =
    (piecesOf self payload).length := by
  rw [build_eq isKey payload timestamp positive, List.length_mapIdx]

theorem build_av1_getElem (payload : Bytes) (i : Nat)
    (h : i < (RtpPacketizerAv1.build self isKey payload timestamp).1.length)
    (inside : i < (piecesOf self payload).length) :
    (RtpPacketizerAv1.build self isKey payload timestamp).1[i] = (numbered self i).sent
      (unitAt isKey (piecesOf self payload) i (piecesOf self payload)[i]).1 timestamp
        (unitAt isKey (piecesOf self payload) i (piecesOf self payload)[i]).2 := by
  simp only [build_eq isKey payload timestamp positive, List.getElem_mapIdx]

theorem build_av1_depacketize (payload : Bytes) (i : Nat)
    (h : i < (RtpPacketizerAv1.build self isKey payload timestamp).1.length)
    (inside : i < (piecesOf self payload).length) :
    av1.depacketize (RtpPacketizerAv1.build self isKey payload timestamp).1[i] =
      some (seenAv1 (numbered self i) timestamp
        (unitAt isKey (piecesOf self payload) i (piecesOf self payload)[i])) := by
  rw [build_av1_getElem isKey timestamp positive payload i h inside]
  exact depacketize_av1 _ _ _ (by simp [unitAt, RtpPacketizerAv1.unit])

theorem build_av1Packetized {obus : List RawObu} (legal : LegalObus ReadsSize obus) :
    Av1Packetized self (RtpPacketizerAv1.build self isKey (bytesOf obus) timestamp).1 := by
  have length := build_av1_length isKey timestamp positive (bytesOf obus)
  refine ⟨?_, ?_, ?_⟩
  · intro i h
    rw [build_av1_getElem isKey timestamp positive _ i h (length ▸ h)]
    exact RtpPacketizer.sent_sequenceNumber ..
  · intro i h
    rw [build_av1_getElem isKey timestamp positive _ i h (length ▸ h), RtpPacketizer.sent_marker]
    refine decide_eq_true_iff.trans ?_
    omega
  · intro i h
    refine ⟨_, build_av1_depacketize isKey timestamp positive _ i h (length ▸ h), ?_, ?_, ?_⟩
    · rw [unitAt, seenAv1_payload]
      exact piecesOf_length_le positive legal _ (List.getElem_mem _)
    · rw [unitAt, seenAv1_start, decide_eq_true_iff]
    · rw [unitAt, seenAv1_end, decide_eq_true_iff, length]

include type

theorem seenAs_av1 {payload : Bytes} (nonempty : piecesOf self payload ≠ [])
    (short : (piecesOf self payload).length ≤ kMaxPacketsPerFrame) :
    SeenAs av1 (RtpPacketizerAv1.build self isKey payload timestamp).1
      (framePackets self isKey timestamp (piecesOf self payload)) timestamp (self.sequenceNumber + 1) := by
  have length := build_av1_length isKey timestamp positive payload
  refine ⟨framePackets_isFrame isKey timestamp _ nonempty short, ?_, ?_⟩
  · apply List.ext_getElem
    · simp [length, framePackets]
    · intro i h inside
      simp only [List.length_map, framePackets, List.length_mapIdx] at h inside
      have sameType : (RtpPacketizerAv1.build self isKey payload timestamp).1[i].payloadType =
          av1.payloadType := by
        rw [build_av1_getElem isKey timestamp positive _ i h inside, RtpPacketizer.sent_payloadType]
        exact type
      simp only [List.getElem_map, framePackets, List.getElem_mapIdx]
      rw [fragmentView_of_read sameType (build_av1_depacketize isKey timestamp positive _ i h inside)]
      rfl
  · apply List.ext_getElem
    · simp [length, framePackets]
    · intro i h inside
      simp only [List.length_map, framePackets, List.length_mapIdx] at h inside
      simp only [List.getElem_map, framePackets, List.getElem_mapIdx]
      rw [build_av1_getElem isKey timestamp positive _ i h inside]
      rfl

theorem completes_av1 {obus : List RawObu} (nonempty : obus ≠ []) (legal : LegalObus EncodesSize obus)
    (short : (RtpPacketizerAv1.build self isKey (bytesOf obus) timestamp).1.length ≤ kMaxPacketsPerFrame)
    (cfg : Config RtpPacketAv1) (codec : cfg.codec = av1) (input : List Arrival) (m : MediaPacket)
    (others : ∀ a ∈ input, OwnOrOther (RtpPacketizerAv1.build self isKey (bytesOf obus) timestamp).1
      timestamp a.media.packet)
    (known : OwnOrOther (RtpPacketizerAv1.build self isKey (bytesOf obus) timestamp).1 timestamp m.packet) :
    ((∃ f, completes av1 (insertAll cfg {} input).assembly m.packet = some f ∧
        f.timestamp = timestamp) ↔
      ∀ p ∈ (RtpPacketizerAv1.build self isKey (bytesOf obus) timestamp).1,
        p ∈ sinceComplete (RtpPacketizerAv1.build self isKey (bytesOf obus) timestamp).1
          (input.map fun a => a.media.packet) ++ [m.packet]) ∧
    ∀ f, completes av1 (insertAll cfg {} input).assembly m.packet = some f → f.timestamp = timestamp →
      CarriesObus obus isKey f := by
  have reads := legal.mono fun f n => EncodesSize.reads
  have some := piecesOf_ne_nil positive reads nonempty
  rw [build_av1_length isKey timestamp positive] at short
  obtain ⟨exactly, content⟩ := (seenAs_av1 isKey timestamp type positive some short).completes
    av1_keepsFields cfg codec input m others known
  refine ⟨exactly, ?_⟩
  intro f completed stamp
  have sent : obus.flatMap RawObu.sent = bytesOf (obus.map RawObu.canonical) := by
    simp only [bytesOf, List.flatMap_map]
    exact List.flatMap_congr fun o member => RawObu.sent_eq (legal.of_mem o member)
  obtain ⟨piece, rest, split⟩ := List.exists_cons_of_ne_nil some
  have head : ∃ p, (framePackets self isKey timestamp (piecesOf self (bytesOf obus))).head? = Option.some p ∧
      p.isKeyFrame = isKey := by
    refine ⟨_, by rw [framePackets, split, List.mapIdx_cons, List.head?_cons], ?_⟩
    simp [unitAt, seenAv1_key]
  obtain ⟨p, first, key⟩ := head
  simp only [CarriesObus, content f completed stamp, Assembly.assembled, framePackets_payload,
    piecesOf_flatten positive reads, sent, first]
  exact ⟨rfl, key⟩

/-- The input is a concatenation of OBUs of which one has a size field that AV1 does not allow. -/
def HasOverlongSize (payload : Bytes) : Prop :=
  ∃ obus, LegalObus ReadsSize obus ∧ payload = bytesOf obus ∧
    ∃ o ∈ obus, ∃ f, o.sizeField = some f ∧ 8 < f.length

omit type positive in
/-- Without such a field the parser accepts what AV1 allows. -/
theorem legal_of_short {obus : List RawObu} (legal : LegalObus ReadsSize obus)
    (short : ∀ o ∈ obus, ∀ f, o.sizeField = some f → f.length ≤ 8) : LegalObus EncodesSize obus := by
  induction obus with
  | nil => trivial
  | cons o rest ih =>
    obtain ⟨first, sized, others⟩ := legal
    refine ⟨⟨first.extension, first.sized, ?_⟩, sized, ih others fun p member => short p (by simp [member])⟩
    intro f field
    obtain ⟨leb, _, value⟩ := first.size f field
    have fits := short o (by simp) f field
    have small : leb128 f < 2 ^ 64 := by
      calc leb128 f < 128 ^ f.length := leb128_lt f
        _ ≤ 128 ^ 8 := Nat.pow_le_pow_right (by decide) fits
        _ < 2 ^ 64 := by decide
    exact ⟨leb, fits, by rwa [Nat.mod_eq_of_lt small] at value⟩

theorem lossless_of_not_overlong {payload : Bytes} (allowed : ¬ HasOverlongSize payload) :
    Av1Lossless self isKey timestamp payload
      (RtpPacketizerAv1.build self isKey payload timestamp).1 := by
  refine ⟨?_, ?_⟩
  · rintro obus nonempty legal rfl short
    refine ⟨build_av1Packetized isKey timestamp positive (legal.mono fun f n => EncodesSize.reads), ?_⟩
    intro cfg codec
    apply reassembles
    intro input m others known
    rw [codec]
    exact completes_av1 isKey timestamp type positive nonempty legal short cfg codec input m others known
  · intro none
    have nothing : piecesOf self payload = [] := by
      by_cases accepted : ∃ obus, LegalObus ReadsSize obus ∧ payload = bytesOf obus
      · obtain ⟨obus, legal, rfl⟩ := accepted
        have short : ∀ o ∈ obus, ∀ f, o.sizeField = some f → f.length ≤ 8 := by
          intro o member f field
          by_contra long
          exact allowed ⟨obus, legal, rfl, o, member, f, field, by omega⟩
        cases obus with
        | nil => rfl
        | cons o rest => exact absurd ⟨o :: rest, by simp, legal_of_short legal short, rfl⟩ none
      · simp [piecesOf, parseObus_malformed accepted]
    have length := build_av1_length isKey timestamp positive payload
    rw [nothing] at length
    exact List.length_eq_zero_iff.mp length

omit type in
theorem not_lossless_of_overlong {payload : Bytes} (overlong : HasOverlongSize payload) :
    ¬ Av1Lossless self isKey timestamp payload
      (RtpPacketizerAv1.build self isKey payload timestamp).1 := by
  obtain ⟨obus, legal, rfl, o, member, f, field, long⟩ := overlong
  intro lossless
  have nothing := lossless.malformed (by
    rintro ⟨others, _, allowed, same⟩
    obtain rfl := bytesOf_inj legal (allowed.mono fun f n => EncodesSize.reads) same
    have short := ((allowed.of_mem o member).size f field).2.1
    omega)
  have some := piecesOf_ne_nil positive legal (List.ne_nil_of_mem member)
  have length := build_av1_length isKey timestamp positive (bytesOf obus)
  rw [nothing] at length
  exact some (List.length_eq_zero_iff.mp length.symm)

end RoundTrip

/-- `Build` loses nothing and sends nothing else, up to size fields of nine and ten octets. -/
theorem av1_lossless_iff (self : RtpPacketizer) (isKey : Bool) (timestamp : BitVec 32) (payload : Bytes)
    (type : self.payloadType = .av1) (positive : 0 < self.maxPayloadSize) :
    Av1Lossless self isKey timestamp payload (RtpPacketizerAv1.build self isKey payload timestamp).1 ↔
      ¬ HasOverlongSize payload := by
  constructor
  · intro lossless overlong
    exact not_lossless_of_overlong isKey timestamp positive overlong lossless
  · exact lossless_of_not_overlong isKey timestamp type positive

/-- A sequence header OBU of one octet. -/
theorem av1_lossless_one_octet : Av1Lossless ⟨.av1, 7, 65535, [], 1150, none⟩ true 5 [0x0a, 0x01, 0xff]
    (RtpPacketizerAv1.build ⟨.av1, 7, 65535, [], 1150, none⟩ true [0x0a, 0x01, 0xff] 5).1 := by
  refine (av1_lossless_iff ⟨.av1, 7, 65535, [], 1150, none⟩ true 5 [0x0a, 0x01, 0xff] rfl
    (by decide)).mpr ?_
  rintro ⟨obus, legal, same, o, member, f, field, long⟩
  have only : LegalObus ReadsSize [⟨0x0a, none, some [0x01], [0xff]⟩] :=
    ⟨⟨by decide, by decide, by rintro f ⟨⟩; exact ⟨by decide, by decide, by decide⟩⟩, .inl rfl, trivial⟩
  obtain rfl := bytesOf_inj only legal same
  rw [List.mem_singleton.mp member] at field
  cases field
  exact absurd long (by decide)

/-- The same OBU with its size in nine octets: a packet is sent, and without one of the nine. -/
theorem av1_sends_overlong : ¬ Av1Lossless ⟨.av1, 7, 65535, [], 1150, none⟩ true 5
    [0x0a, 0x81, 0x80, 0x80, 0x80, 0x80, 0x80, 0x80, 0x80, 0x00, 0xff]
    (RtpPacketizerAv1.build ⟨.av1, 7, 65535, [], 1150, none⟩ true
      [0x0a, 0x81, 0x80, 0x80, 0x80, 0x80, 0x80, 0x80, 0x80, 0x00, 0xff] 5).1 := by
  apply not_lossless_of_overlong true 5 (by decide)
  refine ⟨[⟨0x0a, none, some [0x81, 0x80, 0x80, 0x80, 0x80, 0x80, 0x80, 0x80, 0x00], [0xff]⟩], ?_, rfl,
    _, List.mem_singleton_self _, _, rfl, by decide⟩
  exact ⟨⟨by decide, by decide, by rintro f ⟨⟩; exact ⟨by decide, by decide, by decide⟩⟩, .inl rfl, trivial⟩

end MiniRtc.Video
