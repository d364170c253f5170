import MiniRtc.Rtp.Packetizer

/-! `RtpPacketizerGeneric::Build`, the packetizer of audio and data payloads.
Its loop inserts from the start of the payload at every turn, so a payload of more
than one fragment is carried only if it repeats its first fragment. -/
namespace MiniRtc.Rtp
open Wire

/-- Full fragments, and one more for a remainder. -/
def packetCount (size width : Nat) : Nat := size / width + if size % width ≠ 0 then 1 else 0

namespace RtpPacketizerGeneric

/-- The marker and the octets of one turn. `payload` is the pointer of the caller, which
the loop never moves. -/
def fragment (payload : Bytes) (index : Nat) : Bool × Bytes :=
  let lastPacketSize := payload.length % MAX_NALU_LEN
  let packetNum := packetCount payload.length MAX_NALU_LEN
  (decide (index = packetNum - 1),
    if index = packetNum - 1 ∧ 0 < lastPacketSize then payload.take lastPacketSize
    else payload.take MAX_NALU_LEN)

def build (self : RtpPacketizer) (payload : Bytes) (timestamp : BitVec 32) :
    List RtpPacket × RtpPacketizer :=
  self.emit timestamp
    ((List.range (packetCount payload.length MAX_NALU_LEN)).map (fragment payload))

/-- The packets carry the payload: in order, whole, in pieces of legal size, consecutively
numbered, with one timestamp and the marker on the last one alone. -/
structure Lossless (packetizer : RtpPacketizer) (payload : Bytes) (timestamp : BitVec 32)
    (packets : List RtpPacket) : Prop where
  content : (packets.map RtpPacket.payload).flatten = payload
  sizes : ∀ p ∈ packets, 1 ≤ p.payload.length ∧ p.payload.length ≤ MAX_NALU_LEN
  numbers : ∀ i (h : i < packets.length),
    packets[i].sequenceNumber = packetizer.sequenceNumber + BitVec.ofNat 16 (i + 1)
  timestamps : ∀ p ∈ packets, p.timestamp = timestamp
  markers : ∀ i (h : i < packets.length), packets[i].marker = true ↔ i + 1 = packets.length

/-- Every octet equals the one at the same place of the first fragment. A payload of one
fragment does so trivially. -/
def RepeatsFirstFragment (payload : Bytes) : Prop :=
  ∀ i < payload.length, byteAt payload i = byteAt payload (i % MAX_NALU_LEN)

instance (payload : Bytes) : Decidable (RepeatsFirstFragment payload) :=
  inferInstanceAs (Decidable (∀ i < payload.length, _))

theorem packetCount_bounds (size width : Nat) (positive : 0 < width) :
    size ≤ packetCount size width * width ∧
      (0 < size → (packetCount size width - 1) * width < size) := by
  have split := Nat.div_add_mod size width
  have bound := Nat.mod_lt size positive
  rw [Nat.mul_comm] at split
  unfold packetCount
  by_cases r : size % width = 0
  · rw [if_neg (by simpa using r), Nat.add_zero]
    refine ⟨by omega, fun some => ?_⟩
    have q : 0 < size / width := by
      rcases Nat.eq_zero_or_pos (size / width) with z | p
      · rw [z, Nat.zero_mul] at split; omega
      · exact p
    rw [Nat.sub_mul, Nat.one_mul]
    omega
  · rw [if_pos r, Nat.succ_mul, Nat.add_sub_cancel]
    exact ⟨by omega, fun _ => by omega⟩

/-- What the fragments carry, octet by octet. -/
def repeated (payload : Bytes) : Bytes :=
  (List.range payload.length).map fun i => byteAt payload (i % MAX_NALU_LEN)

/-- The length of a fragment, and why it stays within the payload. -/
theorem fragment_size (payload : Bytes) (index : Nat)
    (inside : index < packetCount payload.length MAX_NALU_LEN) :
    (fragment payload index).2.length = min MAX_NALU_LEN (payload.length - index * MAX_NALU_LEN) ∧
      index * MAX_NALU_LEN < payload.length := by
  have split := Nat.div_add_mod payload.length MAX_NALU_LEN
  have bound := Nat.mod_lt payload.length (by decide : 0 < MAX_NALU_LEN)
  unfold fragment packetCount at *
  generalize payload.length / MAX_NALU_LEN = q at *
  generalize payload.length % MAX_NALU_LEN = r at *
  simp only [MAX_NALU_LEN] at *
  by_cases rest : r = 0
  · simp only [rest, ne_eq, not_true, if_false, Nat.lt_irrefl, and_false, List.length_take]
      at inside ⊢
    omega
  · have some : 0 < r := by omega
    simp only [ne_eq, rest, not_false_iff, if_true, some, and_true] at inside ⊢
    rw [Nat.add_sub_cancel]
    by_cases last : index = q
    · rw [if_pos last, List.length_take]
      omega
    · rw [if_neg last, List.length_take]
      omega

theorem fragment_octets (payload : Bytes) (index : Nat)
    (inside : index < packetCount payload.length MAX_NALU_LEN) :
    (fragment payload index).2 = ((repeated payload).drop (index * MAX_NALU_LEN)).take MAX_NALU_LEN := by
  obtain ⟨size, start⟩ := fragment_size payload index inside
  apply List.ext_getElem
  · simp only [size, repeated, List.length_take, List.length_drop, List.length_map, List.length_range]
  · intro j left right
    rw [size] at left
    have small : j < MAX_NALU_LEN := by omega
    have place : (index * MAX_NALU_LEN + j) % MAX_NALU_LEN = j := by
      rw [Nat.mul_add_mod_self_right, Nat.mod_eq_of_lt small]
    simp only [repeated, List.getElem_take, List.getElem_drop, List.getElem_map, List.getElem_range,
      place]
    rw [byteAt_eq (by omega)]
    simp only [fragment]
    split <;> simp only [List.getElem_take]

theorem fragments_flatten (payload : Bytes) :
    (((List.range (packetCount payload.length MAX_NALU_LEN)).map (fragment payload)).map
      Prod.snd).flatten = repeated payload := by
  have enough := (packetCount_bounds payload.length MAX_NALU_LEN (by decide)).1
  rw [List.map_map, ← flatten_pieces MAX_NALU_LEN (packetCount payload.length MAX_NALU_LEN)
    (repeated payload) (by simpa [repeated] using enough)]
  congr 1
  apply List.map_congr_left
  intro index h
  exact fragment_octets payload index (List.mem_range.mp h)

theorem repeated_eq_iff (payload : Bytes) : repeated payload = payload ↔ RepeatsFirstFragment payload := by
  constructor
  · intro same i h
    have e : (repeated payload)[i]? = payload[i]? := by rw [same]
    simp only [repeated, List.getElem?_map, List.getElem?_range h, Option.map_some,
      List.getElem?_eq_getElem h, Option.some.injEq] at e
    rw [e, byteAt_eq h]
  · intro repeats
    apply List.ext_getElem
    · simp [repeated]
    · intro i left right
      simp only [repeated, List.getElem_map, List.getElem_range]
      rw [← repeats i right, byteAt_eq right]

/-- The packets of `Build` one by one. -/
theorem build_getElem (self : RtpPacketizer) (payload : Bytes) (timestamp : BitVec 32) (i : Nat)
    (h : i < (build self payload timestamp).1.length) :
    i < packetCount payload.length MAX_NALU_LEN ∧
      (build self payload timestamp).1[i] =
        (numbered self i).sent (fragment payload i).1 timestamp (fragment payload i).2 := by
  simp only [build, RtpPacketizer.emit_packets, List.length_mapIdx, List.length_map,
    List.length_range] at h
  refine ⟨h, ?_⟩
  simp only [build, RtpPacketizer.emit_packets, List.getElem_mapIdx, List.getElem_map,
    List.getElem_range]

theorem build_length (self : RtpPacketizer) (payload : Bytes) (timestamp : BitVec 32) :
    (build self payload timestamp).1.length = packetCount payload.length MAX_NALU_LEN := by
  simp only [build, RtpPacketizer.emit_packets, List.length_mapIdx, List.length_map,
    List.length_range]

theorem build_payloads (self : RtpPacketizer) (payload : Bytes) (timestamp : BitVec 32) :
    ((build self payload timestamp).1.map RtpPacket.payload).flatten = repeated payload := by
  rw [← fragments_flatten]
  congr 1
  apply List.ext_getElem
  · simp only [List.length_map, build_length, List.length_range]
  · intro i left right
    rw [List.length_map] at left
    rw [List.getElem_map, (build_getElem self payload timestamp i left).2,
      RtpPacketizer.sent_payload]
    simp only [List.getElem_map, List.getElem_range]

/-- `Build` loses nothing exactly when the payload repeats its first fragment. -/
theorem build_lossless_iff (self : RtpPacketizer) (payload : Bytes) (timestamp : BitVec 32) :
    Lossless self payload timestamp (build self payload timestamp).1 ↔
      RepeatsFirstFragment payload := by
  rw [← repeated_eq_iff, ← build_payloads self payload timestamp]
  constructor
  · exact fun h => h.content
  · intro same
    have every : ∀ p ∈ (build self payload timestamp).1, ∃ i,
        ∃ h : i < (build self payload timestamp).1.length, (build self payload timestamp).1[i] = p :=
      fun p h => List.mem_iff_getElem.mp h
    refine ⟨same, ?_, ?_, ?_, ?_⟩
    · intro p member
      obtain ⟨i, h, rfl⟩ := every p member
      obtain ⟨inside, e⟩ := build_getElem self payload timestamp i h
      obtain ⟨size, start⟩ := fragment_size payload i inside
      rw [e, RtpPacketizer.sent_payload, size]
      simp only [MAX_NALU_LEN] at *
      omega
    · intro i h
      rw [(build_getElem self payload timestamp i h).2, RtpPacketizer.sent_sequenceNumber, numbered]
    · intro p member
      obtain ⟨i, h, rfl⟩ := every p member
      rw [(build_getElem self payload timestamp i h).2, RtpPacketizer.sent_timestamp]
    · intro i h
      obtain ⟨inside, e⟩ := build_getElem self payload timestamp i h
      rw [e, RtpPacketizer.sent_marker, build_length]
      simp only [fragment, decide_eq_true_eq]
      omega

/-- 1151 octets, the last of which differs from the first: both packets start alike. -/
theorem build_loses_second_fragment :
    ¬ Lossless ⟨0, 7, 0, [], MAX_NALU_LEN, none⟩ (List.replicate 1150 0 ++ [1]) 9
      (build ⟨0, 7, 0, [], MAX_NALU_LEN, none⟩ (List.replicate 1150 0 ++ [1]) 9).1 := by
  intro lossless
  have same := (repeated_eq_iff _).mp ((build_payloads _ _ _).symm.trans lossless.content)
  have wrong := same 1150 (by rw [List.length_append, List.length_replicate]; decide)
  rw [byteAt_append_right (by rw [List.length_replicate]),
    byteAt_append_left (by rw [List.length_replicate]; decide), List.length_replicate] at wrong
  revert wrong
  decide

end RtpPacketizerGeneric

end MiniRtc.Rtp
