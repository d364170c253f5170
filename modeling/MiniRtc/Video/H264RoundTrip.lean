import MiniRtc.Video.H264
import MiniRtc.Video.Fragments

/-! From `RtpPacketizerH264::Build` to a committed frame. -/
namespace MiniRtc.Video
open Wire Wrapping Rtp

/-! ### What the receiver reads from a packet of the packetizer -/

section Sent

variable (self : RtpPacketizer) (marker : Bool) (timestamp : BitVec 32) (body : Bytes)

theorem depacketize_sent : h264.depacketize (self.sent marker timestamp body) =
    getFrameHeaderInfoH264 (self.sent marker timestamp body) := by
  have built : ({} : RtpPacket).build (self.sent marker timestamp body).buffer =
      .ok (self.sent marker timestamp body) := RtpPacketizer.build_packetFrame ..
  simp only [h264, built]

end Sent

/-- A NAL unit as the receiver sees it. -/
def naluPacket (self : RtpPacketizer) (timestamp : BitVec 32) (payload : Bytes) : RtpPacketH264 :=
  { toRtpPacket := RtpPacket.addOffsetToPayload
      (self.sent true timestamp (RtpPacketizerH264.naluBody payload)) 1
    nalReferenceIdc := 1
    nalUnitType := NAL_UNIT_TYPE_NALU }

/-- A fragment as the receiver sees it. -/
def fragmentPacket (self : RtpPacketizer) (timestamp : BitVec 32) (marker start last : Bool)
    (piece : Bytes) : RtpPacketH264 :=
  { toRtpPacket := RtpPacket.addOffsetToPayload (self.sent marker timestamp
      (nalHeader false 0 NAL_UNIT_TYPE_FU_A :: fuHeader start last false NAL_UNIT_TYPE_FU_A :: piece)) 2
    nalUnitType := NAL_UNIT_TYPE_FU_A
    fuStart := start
    fuEnd := last
    fuNalUnitType := NAL_UNIT_TYPE_FU_A }

theorem nalHeader_nalu : (nalHeader false 1 NAL_UNIT_TYPE_NALU).getLsbD 7 = false ∧
    (nalHeader false 1 NAL_UNIT_TYPE_NALU >>> 5).setWidth 2 = (1 : BitVec 2) ∧
    (nalHeader false 1 NAL_UNIT_TYPE_NALU).setWidth 5 = NAL_UNIT_TYPE_NALU := by decide

theorem nalHeader_fua : (nalHeader false 0 NAL_UNIT_TYPE_FU_A).getLsbD 7 = false ∧
    (nalHeader false 0 NAL_UNIT_TYPE_FU_A >>> 5).setWidth 2 = (0 : BitVec 2) ∧
    (nalHeader false 0 NAL_UNIT_TYPE_FU_A).setWidth 5 = NAL_UNIT_TYPE_FU_A := by decide

theorem fuHeader_read : ∀ start last : Bool,
    (fuHeader start last false NAL_UNIT_TYPE_FU_A).getLsbD 7 = start ∧
      (fuHeader start last false NAL_UNIT_TYPE_FU_A).getLsbD 6 = last ∧
      (fuHeader start last false NAL_UNIT_TYPE_FU_A).getLsbD 5 = false ∧
      (fuHeader start last false NAL_UNIT_TYPE_FU_A).setWidth 5 = NAL_UNIT_TYPE_FU_A := by decide

section Depacketize

variable (self : RtpPacketizer) (type : self.payloadType = .h264) (timestamp : BitVec 32)
include type

theorem depacketize_nalu (payload : Bytes) :
    h264.depacketize (self.sent true timestamp (RtpPacketizerH264.naluBody payload)) =
      some (naluPacket self timestamp payload) := by
  have notRtx : (self.sent true timestamp (RtpPacketizerH264.naluBody payload)).payloadType ≠ .rtx := by
    rw [RtpPacketizer.sent_payloadType, type]
    decide
  obtain ⟨forbidden, idc, unit⟩ := nalHeader_nalu
  have first : byteAt (RtpPacketizerH264.naluBody payload) 0 = nalHeader false 1 NAL_UNIT_TYPE_NALU := rfl
  rw [depacketize_sent]
  unfold getFrameHeaderInfoH264
  simp only [notRtx, false_and, if_false, RtpPacketizer.sent_payloadSize, RtpPacketizer.sent_payload, first,
    forbidden, idc, unit, if_true]
  rw [if_neg (by simp [RtpPacketizerH264.naluBody])]
  rfl

theorem depacketize_fragment (marker start last : Bool) (piece : Bytes) :
    h264.depacketize (self.sent marker timestamp
      (nalHeader false 0 NAL_UNIT_TYPE_FU_A :: fuHeader start last false NAL_UNIT_TYPE_FU_A :: piece)) =
      some (fragmentPacket self timestamp marker start last piece) := by
  have notRtx : (self.sent marker timestamp (nalHeader false 0 NAL_UNIT_TYPE_FU_A ::
      fuHeader start last false NAL_UNIT_TYPE_FU_A :: piece)).payloadType ≠ .rtx := by
    rw [RtpPacketizer.sent_payloadType, type]
    decide
  obtain ⟨forbidden, idc, unit⟩ := nalHeader_fua
  obtain ⟨isStart, isLast, remain, inner⟩ := fuHeader_read start last
  have first : byteAt (nalHeader false 0 NAL_UNIT_TYPE_FU_A ::
    fuHeader start last false NAL_UNIT_TYPE_FU_A :: piece) 0 = nalHeader false 0 NAL_UNIT_TYPE_FU_A := rfl
  have second : byteAt (nalHeader false 0 NAL_UNIT_TYPE_FU_A ::
    fuHeader start last false NAL_UNIT_TYPE_FU_A :: piece) 1 =
      fuHeader start last false NAL_UNIT_TYPE_FU_A := rfl
  have different : NAL_UNIT_TYPE_FU_A ≠ NAL_UNIT_TYPE_NALU := by decide
  rw [depacketize_sent]
  unfold getFrameHeaderInfoH264
  simp only [notRtx, false_and, if_false, RtpPacketizer.sent_payloadSize, RtpPacketizer.sent_payload, first, second,
    forbidden, idc, unit, different, if_true, isStart, isLast, remain, inner, Nat.add_zero]
  rw [if_neg (by simp), if_neg (by simp)]
  rfl

end Depacketize

/-! ### The packets of one payload -/

/-- The octets of the payload that a fragment carries. -/
def pieceAt (width : Nat) (payload : Bytes) (i : Nat) : Bytes := (payload.drop (i * width)).take width

theorem fragment_piece {width : Nat} {payload : Bytes} {i : Nat} (positive : 0 < width)
    (inside : i < packetCount payload.length width) :
    slice payload (i * width)
      (if i = packetCount payload.length width - 1 ∧ 0 < payload.length % width then
        payload.length % width else width) = pieceAt width payload i := by
  split
  · rename_i last
    have split := Nat.div_add_mod payload.length width
    have bound := Nat.mod_lt payload.length positive
    have index : i = payload.length / width := by
      unfold packetCount at inside last
      rw [if_pos (by omega)] at inside last
      omega
    rw [Nat.mul_comm] at split
    have rest : (payload.drop (i * width)).length = payload.length % width := by
      rw [List.length_drop, index]
      omega
    rw [slice, pieceAt, List.take_of_length_le (by omega), List.take_of_length_le (by omega)]
  · rfl

/-- The fragment at an index as the receiver sees it. -/
def fragmentAt (self : RtpPacketizer) (payload : Bytes) (timestamp : BitVec 32) (i : Nat) :
    RtpPacketH264 :=
  fragmentPacket (numbered self i) timestamp
    (decide (i = packetCount payload.length self.maxPayloadSize - 1)) (decide (i = 0))
    (decide (i = packetCount payload.length self.maxPayloadSize - 1))
    (pieceAt self.maxPayloadSize payload i)

section Packets

variable {self : RtpPacketizer} {payload : Bytes} (timestamp : BitVec 32)

theorem build_nalu (fits : payload.length ≤ self.maxPayloadSize) :
    (RtpPacketizerH264.build self payload timestamp).1 =
      [(numbered self 0).sent true timestamp (RtpPacketizerH264.naluBody payload)] := by
  rw [RtpPacketizerH264.build, if_pos fits, RtpPacketizerH264.buildNalu,
    RtpPacketizerH264.emitBuilt_eq_emit, RtpPacketizer.emit_packets]
  rfl

theorem build_fua_length (long : ¬ payload.length ≤ self.maxPayloadSize) :
    (RtpPacketizerH264.build self payload timestamp).1.length =
      packetCount payload.length self.maxPayloadSize := by
  simp only [RtpPacketizerH264.build, if_neg long, RtpPacketizerH264.buildFua,
    RtpPacketizerH264.emitBuilt_eq_emit, RtpPacketizer.emit_packets, List.length_mapIdx,
    List.length_map, List.length_range]

theorem build_fua_getElem (long : ¬ payload.length ≤ self.maxPayloadSize) (i : Nat)
    (h : i < (RtpPacketizerH264.build self payload timestamp).1.length) :
    (RtpPacketizerH264.build self payload timestamp).1[i] =
      (numbered self i).sent (RtpPacketizerH264.fragment self.maxPayloadSize payload i).1 timestamp
        (RtpPacketizerH264.fragment self.maxPayloadSize payload i).2 := by
  simp only [RtpPacketizerH264.build, if_neg long, RtpPacketizerH264.buildFua,
    RtpPacketizerH264.emitBuilt_eq_emit, RtpPacketizer.emit_packets, List.getElem_mapIdx,
    List.getElem_map, List.getElem_range]

variable (type : self.payloadType = .h264) (positive : 0 < self.maxPayloadSize)
include type positive

theorem depacketize_fua (long : ¬ payload.length ≤ self.maxPayloadSize) (i : Nat)
    (h : i < (RtpPacketizerH264.build self payload timestamp).1.length) :
    h264.depacketize (RtpPacketizerH264.build self payload timestamp).1[i] =
      some (fragmentAt self payload timestamp i) := by
  have inside := build_fua_length timestamp long ▸ h
  rw [build_fua_getElem timestamp long i h]
  simp only [RtpPacketizerH264.fragment, fragment_piece positive inside]
  exact depacketize_fragment (numbered self i) type timestamp ..

end Packets

theorem fragmentAt_payload (self : RtpPacketizer) (payload : Bytes) (timestamp : BitVec 32) (i : Nat) :
    (fragmentAt self payload timestamp i).payload = pieceAt self.maxPayloadSize payload i := by
  show (RtpPacket.addOffsetToPayload _ 2).payload = _
  rw [RtpPacket.addOffsetToPayload_payload, RtpPacketizer.sent_payload]
  rfl

theorem fragmentAt_sequenceNumber (self : RtpPacketizer) (payload : Bytes) (timestamp : BitVec 32)
    (i : Nat) : (fragmentAt self payload timestamp i).sequenceNumber =
      sequenceNumberAt (self.sequenceNumber + 1) i := by
  rw [sequenceNumberAt_succ]
  exact RtpPacketizer.sent_sequenceNumber ..

/-- The fragments make a frame that the receiver can recognize. -/
theorem isFrame_fua {self : RtpPacketizer} {payload : Bytes} (timestamp : BitVec 32)
    (positive : 0 < self.maxPayloadSize) (long : ¬ payload.length ≤ self.maxPayloadSize)
    (short : payload.length ≤ kMaxPacketsPerFrame * self.maxPayloadSize) :
    IsFrame h264.toCodec timestamp (self.sequenceNumber + 1)
      ((List.range (packetCount payload.length self.maxPayloadSize)).map
        (fragmentAt self payload timestamp)) := by
  obtain ⟨enough, tight⟩ :=
    RtpPacketizerGeneric.packetCount_bounds payload.length self.maxPayloadSize positive
  have some : 0 < packetCount payload.length self.maxPayloadSize := by
    by_contra none
    rw [Nat.le_zero.mp (Nat.not_lt.mp none), Nat.zero_mul] at enough
    omega
  have few : packetCount payload.length self.maxPayloadSize ≤ kMaxPacketsPerFrame := by
    by_contra many
    have below := Nat.lt_of_lt_of_le (tight (by omega)) short
    have := Nat.lt_of_mul_lt_mul_right below
    omega
  refine ⟨?_, ?_, ?_, ?_, ?_, ?_⟩
  · intro empty
    have := congrArg List.length empty
    simp only [List.length_map, List.length_range, List.length_nil] at this
    omega
  · simpa using few
  · intro p member
    obtain ⟨i, _, rfl⟩ := List.mem_map.mp member
    exact RtpPacketizer.sent_timestamp ..
  · intro i h
    rw [List.getElem_map, List.getElem_range]
    exact fragmentAt_sequenceNumber ..
  · intro i h
    rw [List.getElem_map, List.getElem_range]
    exact decide_eq_true_iff
  · intro i h
    rw [List.getElem_map, List.getElem_range]
    simp only [List.length_map, List.length_range] at h ⊢
    refine decide_eq_true_iff.trans ?_
    omega

/-! ### The round trip -/

/-- The packets of one payload: numbered, marked and cut as the RTP format wants it. -/
structure Packetized (packetizer : RtpPacketizer) (packets : List RtpPacket) : Prop where
  numbers : ∀ i (h : i < packets.length),
    packets[i].sequenceNumber = packetizer.sequenceNumber + BitVec.ofNat 16 (i + 1)
  markers : ∀ i (h : i < packets.length), packets[i].marker = true ↔ i + 1 = packets.length
  bodies : ∀ i (h : i < packets.length), ∃ unit, h264.depacketize packets[i] = some unit ∧
    unit.payload.length ≤ packetizer.maxPayloadSize ∧
    (h264UnitKind unit = .single ∧ packets.length = 1 ∨
      h264UnitKind unit = .fragment ∧ (unit.fuStart = true ↔ i = 0) ∧
        (unit.fuEnd = true ↔ i + 1 = packets.length))

theorem build_packetized (self : RtpPacketizer) (payload : Bytes) (timestamp : BitVec 32)
    (type : self.payloadType = .h264) (positive : 0 < self.maxPayloadSize) :
    Packetized self (RtpPacketizerH264.build self payload timestamp).1 := by
  by_cases fits : payload.length ≤ self.maxPayloadSize
  · rw [build_nalu timestamp fits]
    have only : ∀ i, i < [(numbered self 0).sent true timestamp
        (RtpPacketizerH264.naluBody payload)].length → i = 0 := by
      intro i h
      simp only [List.length_singleton] at h
      omega
    refine ⟨?_, ?_, ?_⟩
    · intro i h
      obtain rfl := only i h
      exact RtpPacketizer.sent_sequenceNumber ..
    · intro i h
      obtain rfl := only i h
      simp
    · intro i h
      obtain rfl := only i h
      refine ⟨_, depacketize_nalu (numbered self 0) type timestamp payload, ?_, .inl ⟨rfl, rfl⟩⟩
      show ((RtpPacket.addOffsetToPayload _ 1).payload).length ≤ _
      rw [RtpPacket.addOffsetToPayload_payload, RtpPacketizer.sent_payload]
      exact fits
  · have length := build_fua_length timestamp fits
    refine ⟨?_, ?_, ?_⟩
    · intro i h
      rw [build_fua_getElem timestamp fits i h]
      exact RtpPacketizer.sent_sequenceNumber ..
    · intro i h
      rw [build_fua_getElem timestamp fits i h, RtpPacketizer.sent_marker, length]
      simp only [RtpPacketizerH264.fragment, decide_eq_true_eq]
      omega
    · intro i h
      refine ⟨_, depacketize_fua timestamp type positive fits i h, ?_, .inr ⟨rfl, ?_, ?_⟩⟩
      · rw [fragmentAt_payload, pieceAt, List.length_take]
        omega
      · exact decide_eq_true_iff
      · refine decide_eq_true_iff.trans ?_
        rw [length]
        omega

theorem getFrameHeaderInfoH264_fields {p : RtpPacket} {h : RtpPacketH264}
    (read : getFrameHeaderInfoH264 p = some h) :
    h.timestamp = p.timestamp ∧ h.sequenceNumber = p.sequenceNumber := by
  unfold getFrameHeaderInfoH264 at read
  simp only at read
  repeat' split at read
  all_goals cases read
  all_goals exact ⟨rfl, rfl⟩

theorem h264_keepsFields : h264.KeepsFields := by
  intro m h read
  have rebuilt : h264.depacketize m.packet = getFrameHeaderInfoH264 m.packet := by
    simp only [h264, m.built]
  exact getFrameHeaderInfoH264_fields (rebuilt ▸ read)

/-- The frame is the payload after one octet. -/
def CarriesPayload (payload : Bytes) (f : CompleteFrame) : Prop :=
  ∃ header, f.frame = header :: payload ∧ (f.isKeyframe = true ↔ ContainsIdr payload)

/-- The frame of a whole payload: one octet that is not zero, and the payload. -/
theorem frame_content {f : CompleteFrame} (header : Byte) {payload : Bytes} (nonzero : header ≠ 0)
    (frame : f.frame = header :: payload) (key : f.isKeyframe = isH264KeyFrame f.frame) :
    CarriesPayload payload f := by
  refine ⟨header, frame, ?_⟩
  rw [key, isH264KeyFrame_iff, frame, containsIdr_cons payload nonzero]

section RoundTrip

variable {self : RtpPacketizer} {payload : Bytes} (timestamp : BitVec 32)
  (type : self.payloadType = .h264)
include type

/-- A payload that fits is committed by every arrival of its packet. -/
theorem completes_nalu (fits : payload.length ≤ self.maxPayloadSize) (a : Assembly RtpPacketH264)
    (input : List RtpPacket) (m : MediaPacket)
    (known : OwnOrOther (RtpPacketizerH264.build self payload timestamp).1 timestamp m.packet) :
    ((∃ f, completes h264 a m.packet = some f ∧ f.timestamp = timestamp) ↔
      ∀ p ∈ (RtpPacketizerH264.build self payload timestamp).1,
        p ∈ sinceComplete (RtpPacketizerH264.build self payload timestamp).1 input ++ [m.packet]) ∧
    ∀ f, completes h264 a m.packet = some f → f.timestamp = timestamp →
      CarriesPayload payload f := by
  have nonempty : (RtpPacketizerH264.build self payload timestamp).1 ≠ [] := by
    rw [build_nalu timestamp fits]
    simp
  have waiting := sinceComplete_waiting nonempty input
  rw [build_nalu timestamp fits] at known waiting ⊢
  have own : completes h264 a ((numbered self 0).sent true timestamp
      (RtpPacketizerH264.naluBody payload)) = some (Assembly.assembled h264.toCodec timestamp
        (self.sequenceNumber + 1) [naluPacket (numbered self 0) timestamp payload]) := by
    have sameType : ((numbered self 0).sent true timestamp
        (RtpPacketizerH264.naluBody payload)).payloadType = h264.payloadType := by
      rw [RtpPacketizer.sent_payloadType]
      exact type
    have stamp : h264.timestamp (naluPacket (numbered self 0) timestamp payload) = timestamp :=
      RtpPacketizer.sent_timestamp ..
    have number : h264.sequenceNumber (naluPacket (numbered self 0) timestamp payload) =
        self.sequenceNumber + 1 := RtpPacketizer.sent_sequenceNumber ..
    rw [completes, if_pos sameType, depacketize_nalu (numbered self 0) type timestamp payload]
    show some (Assembly.assembled h264.toCodec (h264.timestamp _) (h264.sequenceNumber _) _) = _
    rw [stamp, number]
  simp only [List.mem_singleton, forall_eq] at waiting ⊢
  rcases known with this | ⟨other, _⟩
  · rw [List.mem_singleton.mp this, own]
    refine ⟨⟨fun _ => by simp, fun _ => ⟨_, rfl, rfl⟩⟩, ?_⟩
    rintro f ⟨⟩ _
    refine frame_content (nalHeader false 1 NAL_UNIT_TYPE_NALU) (by decide) ?_ rfl
    show [h264Header _] ++ [(RtpPacket.addOffsetToPayload _ 1).payload].flatten = _
    rw [RtpPacket.addOffsetToPayload_payload, RtpPacketizer.sent_payload]
    simp [RtpPacketizerH264.naluBody, h264Header, naluPacket]
  · have never : ∀ f, completes h264 a m.packet = some f → f.timestamp ≠ timestamp := by
      intro f completed
      rw [completes_timestamp h264_keepsFields a m completed]
      exact other
    refine ⟨⟨?_, ?_⟩, fun f completed stamp => absurd stamp (never f completed)⟩
    · rintro ⟨f, completed, stamp⟩
      exact absurd stamp (never f completed)
    · intro there
      rcases List.mem_append.mp there with before | this
      · exact absurd before waiting
      · rw [← List.mem_singleton.mp this, RtpPacketizer.sent_timestamp] at other
        exact absurd rfl other

variable (positive : 0 < self.maxPayloadSize)
include positive

theorem seenAs_fua (long : ¬ payload.length ≤ self.maxPayloadSize)
    (short : payload.length ≤ kMaxPacketsPerFrame * self.maxPayloadSize) :
    SeenAs h264 (RtpPacketizerH264.build self payload timestamp).1
      ((List.range (packetCount payload.length self.maxPayloadSize)).map
        (fragmentAt self payload timestamp)) timestamp (self.sequenceNumber + 1) := by
  have length := build_fua_length timestamp long
  refine ⟨isFrame_fua timestamp positive long short, ?_, ?_⟩
  · apply List.ext_getElem
    · simp [length]
    · intro i h _
      rw [List.length_map] at h
      have sameType : (RtpPacketizerH264.build self payload timestamp).1[i].payloadType =
          h264.payloadType := by
        rw [build_fua_getElem timestamp long i h, RtpPacketizer.sent_payloadType]
        exact type
      simp only [List.getElem_map, List.getElem_range]
      rw [fragmentView_of_read sameType (depacketize_fua timestamp type positive long i h)]
      rfl
  · apply List.ext_getElem
    · simp [length]
    · intro i h _
      rw [List.length_map] at h
      simp only [List.getElem_map, List.getElem_range]
      rw [(build_packetized self payload timestamp type positive).numbers i h]
      exact (sequenceNumberAt_succ self.sequenceNumber i).symm.trans
        (fragmentAt_sequenceNumber self payload timestamp i).symm

omit type in
/-- The payloads of the fragments are the payload. -/
theorem flatten_fua :
    (((List.range (packetCount payload.length self.maxPayloadSize)).map
      (fragmentAt self payload timestamp)).map h264.payload).flatten = payload := by
  rw [List.map_map]
  have pieces : h264.payload ∘ fragmentAt self payload timestamp =
      fun i => (payload.drop (i * self.maxPayloadSize)).take self.maxPayloadSize := by
    funext i
    exact fragmentAt_payload self payload timestamp i
  rw [pieces]
  exact flatten_pieces _ _ _
    (RtpPacketizerGeneric.packetCount_bounds payload.length self.maxPayloadSize positive).1

/-- A fragmented payload is committed by the last packet that is missing. -/
theorem completes_fua (long : ¬ payload.length ≤ self.maxPayloadSize)
    (short : payload.length ≤ kMaxPacketsPerFrame * self.maxPayloadSize) (cfg : Config RtpPacketH264)
    (codec : cfg.codec = h264) (input : List Arrival) (m : MediaPacket)
    (others : ∀ a ∈ input,
      OwnOrOther (RtpPacketizerH264.build self payload timestamp).1 timestamp a.media.packet)
    (known : OwnOrOther (RtpPacketizerH264.build self payload timestamp).1 timestamp m.packet) :
    ((∃ f, completes h264 (insertAll cfg {} input).assembly m.packet = some f ∧
        f.timestamp = timestamp) ↔
      ∀ p ∈ (RtpPacketizerH264.build self payload timestamp).1,
        p ∈ sinceComplete (RtpPacketizerH264.build self payload timestamp).1
          (input.map fun a => a.media.packet) ++ [m.packet]) ∧
    ∀ f, completes h264 (insertAll cfg {} input).assembly m.packet = some f → f.timestamp = timestamp →
      CarriesPayload payload f := by
  have seen := seenAs_fua timestamp type positive long short
  obtain ⟨exactly, content⟩ := seen.completes h264_keepsFields cfg codec input m others known
  refine ⟨exactly, ?_⟩
  intro f completed stamp
  have some : 0 < packetCount payload.length self.maxPayloadSize := by
    simpa using List.length_pos_iff.mpr seen.frame.nonempty
  have head : ((List.range (packetCount payload.length self.maxPayloadSize)).map
      (fragmentAt self payload timestamp)).head? = fragmentAt self payload timestamp 0 := by
    rw [List.head?_map, List.head?_range, if_neg (by omega)]
    rfl
  refine frame_content (nalHeader false 0 NAL_UNIT_TYPE_FU_A) (by decide) ?_ ?_
  · simp only [content f completed stamp, Assembly.assembled, flatten_fua timestamp positive, head]
    rfl
  · simp only [content f completed stamp, Assembly.assembled, head]
    rfl

end RoundTrip

/-- `completes_nalu` and `completes_fua` together. -/
theorem completes_packets {self : RtpPacketizer} {payload : Bytes} (timestamp : BitVec 32)
    (type : self.payloadType = .h264) (positive : 0 < self.maxPayloadSize)
    (short : payload.length ≤ kMaxPacketsPerFrame * self.maxPayloadSize) (cfg : Config RtpPacketH264)
    (codec : cfg.codec = h264) (input : List Arrival) (m : MediaPacket)
    (others : ∀ a ∈ input,
      OwnOrOther (RtpPacketizerH264.build self payload timestamp).1 timestamp a.media.packet)
    (known : OwnOrOther (RtpPacketizerH264.build self payload timestamp).1 timestamp m.packet) :
    ((∃ f, completes h264 (insertAll cfg {} input).assembly m.packet = some f ∧
        f.timestamp = timestamp) ↔
      ∀ p ∈ (RtpPacketizerH264.build self payload timestamp).1,
        p ∈ sinceComplete (RtpPacketizerH264.build self payload timestamp).1
          (input.map fun a => a.media.packet) ++ [m.packet]) ∧
    ∀ f, completes h264 (insertAll cfg {} input).assembly m.packet = some f → f.timestamp = timestamp →
      CarriesPayload payload f := by
  by_cases fits : payload.length ≤ self.maxPayloadSize
  · exact completes_nalu timestamp type fits _ _ m known
  · exact completes_fua timestamp type positive fits short cfg codec input m others known

/-- The packets of a payload are well formed; in any order, with duplicates and among packets
of other timestamps, the last missing one commits the frame, and every committed frame is whole. -/
theorem h264_packetize_reassemble (self : RtpPacketizer) (payload : Bytes) (timestamp : BitVec 32)
    (type : self.payloadType = .h264) (nonempty : 1 ≤ payload.length)
    (short : payload.length ≤ kMaxPacketsPerFrame * self.maxPayloadSize) :
    let packets := (RtpPacketizerH264.build self payload timestamp).1
    Packetized self packets ∧
      ∀ (cfg : Config RtpPacketH264), cfg.codec = h264 → ∀ (input : List Arrival),
        (∀ a ∈ input, OwnOrOther packets timestamp a.media.packet) →
        (∀ c ∈ commits (insertAll cfg {} input),
          (c.2.timestamp = timestamp → CarriesPayload payload c.2) ∧
            ∃ units, c.2.Genuine cfg.codec (input.map fun a => a.media.packet) units) ∧
        ∀ next : Arrival, OwnOrOther packets timestamp next.media.packet →
          ∃ committed, Reassembles cfg timestamp packets (CarriesPayload payload) input next committed := by
  intro packets
  have positive : 0 < self.maxPayloadSize := by
    by_contra zero
    rw [Nat.le_zero.mp (Nat.not_lt.mp zero), Nat.mul_zero] at short
    omega
  refine ⟨build_packetized self payload timestamp type positive, ?_⟩
  intro cfg codec
  apply reassembles
  intro input m others known
  rw [codec]
  exact completes_packets timestamp type positive short cfg codec input m others known

def wrapPacketizer : RtpPacketizer := ⟨.h264, 7, 65534, [], 1, none⟩

def wrapFragment (i : Nat) : MediaPacket :=
  .sent (numbered wrapPacketizer i) (RtpPacketizerH264.fragment 1 [7, 9] i).1 5
    (RtpPacketizerH264.fragment 1 [7, 9] i).2

theorem wrapFragments : (RtpPacketizerH264.build wrapPacketizer [7, 9] 5).1 =
    [(wrapFragment 0).packet, (wrapFragment 1).packet] := by
  rfl

/-- Two fragments numbered 65535 and 0 that come in the other order. -/
theorem h264_packetize_reassemble_wrap :
    ∃ f, Reassembles ⟨h264, 7, 0⟩ 5 [(wrapFragment 0).packet, (wrapFragment 1).packet]
      (CarriesPayload [7, 9]) [⟨wrapFragment 1, false, 0, 0⟩] ⟨wrapFragment 0, false, 0, 0⟩ (some f) ∧ f.timestamp = 5 := by
  obtain ⟨_, reassembled⟩ := h264_packetize_reassemble wrapPacketizer [7, 9] 5 rfl (by decide) (by decide)
  rw [wrapFragments] at reassembled
  obtain ⟨_, last⟩ := reassembled ⟨h264, 7, 0⟩ rfl [⟨wrapFragment 1, false, 0, 0⟩]
    (by simp [OwnOrOther])
  obtain ⟨committed, result⟩ := last ⟨wrapFragment 0, false, 0, 0⟩ (.inl (by simp))
  obtain ⟨f, rfl, stamp⟩ := result.exactly.mpr (by
    have one : sinceComplete [(wrapFragment 0).packet, (wrapFragment 1).packet]
      [(wrapFragment 1).packet] = [(wrapFragment 1).packet] := by decide
    simp [one])
  exact ⟨f, result, stamp⟩

end MiniRtc.Video
