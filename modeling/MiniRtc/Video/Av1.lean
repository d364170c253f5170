import MiniRtc.Rtp.Packetizer
import MiniRtc.Video.Fragments
import MiniRtc.Video.ObuParser

/-! AV1: `RtpPacketizerAv1` and `RtpPacketAv1`.
Every OBU is sent on its own, in as many packets as it needs; the receiver concatenates
what it gets between the packet that starts a frame and the one that ends it. -/
namespace MiniRtc.Video
open Wire Wrapping Rtp

structure RtpPacketAv1 extends RtpPacket where
  av1AggrHeader : Byte := 0
  z : Byte := 0
  y : Byte := 0
  w : Byte := 0
  n : Byte := 0
deriving DecidableEq, Repr

/-- `GetFrameHeaderInfo` on a packet that was just built. -/
def getFrameHeaderInfoAv1 (p : RtpPacket) : Option RtpPacketAv1 :=
  if p.payloadSize < 1 then none
  else
    let header := byteAt p.payload 0
    some
      { toRtpPacket := p.addOffsetToPayload 1
        av1AggrHeader := header
        z := header >>> 7
        y := header >>> 6 &&& 0x01
        w := header >>> 4 &&& 0x03
        n := header >>> 3 &&& 0x01 }

namespace RtpPacketAv1

def av1FrameStart (p : RtpPacketAv1) : Bool :=
  if p.z = 0 ∧ p.y = 0 ∧ p.w = 1 then true
  else if p.z = 0 ∧ p.y = 1 ∧ p.w = 1 then true
  else false

def av1FrameEnd (p : RtpPacketAv1) : Bool :=
  if p.z = 0 ∧ p.y = 0 ∧ p.w = 1 then true
  else if p.z = 1 ∧ p.y = 0 ∧ p.w = 1 then true
  else false

def isKeyFrame (p : RtpPacketAv1) : Bool := p.n = 1

end RtpPacketAv1

def av1 : VideoCodec RtpPacketAv1 where
  timestamp p := p.timestamp
  sequenceNumber p := p.sequenceNumber
  payload p := p.payload
  isStart p := p.av1FrameStart
  isEnd p := p.av1FrameEnd
  header _ := []
  isKeyFrame p _ := p.isKeyFrame
  payloadType := .av1
  depacketize p :=
    match ({} : RtpPacket).build p.buffer with
    | .ok q => getFrameHeaderInfoAv1 q
    | .error _ => none
  unitKind _ := .fragment

namespace RtpPacketizerAv1

/-- `SetAv1AggrHeader`. -/
def aggrHeader (z y : Bool) (w : BitVec 2) (n : Bool) : Byte :=
  (if z then 0x80 else 0) ||| (if y then 0x40 else 0) ||| w.setWidth 8 <<< 4 ||| (if n then 0x08 else 0)

/-- The packets of the OBU at an index: marker and octets after the RTP header. -/
def obuUnits (maxPayloadSize count : Nat) (currentFrameIsKeyFrame : Bool) (i : Nat) (obu : Obu) :
    List (Bool × Bytes) :=
  if obu.size ≤ maxPayloadSize then
    let isLast := decide (i = count - 1)
    [(isLast, aggrHeader (decide (i > 0)) (!isLast) 1 (currentFrameIsKeyFrame && decide (i = 0)) ::
      obu.payload)]
  else
    let packetNum := (obu.size + maxPayloadSize - 1) / maxPayloadSize
    (List.range packetNum).map fun j =>
      let isLast := decide (i = count - 1) && decide (j = packetNum - 1)
      let offset := j * maxPayloadSize
      let size := if j = packetNum - 1 then obu.size - offset else maxPayloadSize
      (isLast, aggrHeader (decide (i > 0) || decide (j > 0)) (!isLast) 1
          (currentFrameIsKeyFrame && decide (i = 0) && decide (j = 0)) ::
        slice obu.payload offset size)

/-- `RtpPacketizerAv1::Build`. -/
def build (self : RtpPacketizer) (currentFrameIsKeyFrame : Bool) (payload : Bytes)
    (timestamp : BitVec 32) : List RtpPacket × RtpPacketizer :=
  let obus := parseObus payload
  self.emit timestamp
    (obus.mapIdx (obuUnits self.maxPayloadSize obus.length currentFrameIsKeyFrame)).flatten

/-! ### The packets as pieces of the OBUs -/

/-- An OBU cut for its packets. -/
def pieces (width : Nat) (obu : Obu) : List Bytes :=
  if obu.size ≤ width then [obu.payload]
  else
    let packetNum := (obu.size + width - 1) / width
    (List.range packetNum).map fun j =>
      slice obu.payload (j * width) (if j = packetNum - 1 then obu.size - j * width else width)

/-- A piece that is or is not the first and the last one of the temporal unit. -/
def unit (isKey first last : Bool) (piece : Bytes) : Bool × Bytes :=
  (last, aggrHeader (!first) (!last) 1 (isKey && first) :: piece)

theorem packetNum_bounds {size width : Nat} (positive : 0 < width) (long : ¬ size ≤ width) :
    size ≤ (size + width - 1) / width * width ∧ ((size + width - 1) / width - 1) * width < size ∧
      0 < (size + width - 1) / width := by
  have division := Nat.div_add_mod (size + width - 1) width
  have remainder := Nat.mod_lt (size + width - 1) positive
  have some : 0 < (size + width - 1) / width := Nat.div_pos (by omega) positive
  have product : ((size + width - 1) / width - 1) * width = (size + width - 1) / width * width - width := by
    rw [Nat.sub_mul, Nat.one_mul]
  have swap : width * ((size + width - 1) / width) = (size + width - 1) / width * width := Nat.mul_comm ..
  omega

section Pieces

variable {width : Nat} (positive : 0 < width) {obu : Obu}
include positive

theorem pieces_ne_nil : pieces width obu ≠ [] := by
  unfold pieces
  split
  · simp
  · rename_i long
    have some := (packetNum_bounds positive long).2.2
    simp only [ne_eq, List.map_eq_nil_iff, List.range_eq_nil]
    omega

variable (whole : obu.size = obu.payload.length)
include whole

/-- The last piece is what is left. -/
theorem pieces_eq (long : ¬ obu.size ≤ width) : pieces width obu =
    (List.range ((obu.size + width - 1) / width)).map fun j =>
      (obu.payload.drop (j * width)).take width := by
  obtain ⟨enough, _, some⟩ := packetNum_bounds positive long
  simp only [pieces, long, if_false]
  apply List.map_congr_left
  intro j inside
  simp only [List.mem_range] at inside
  split
  · rename_i last
    have rest : (obu.payload.drop (j * width)).length ≤ width := by
      have : (obu.size + width - 1) / width * width = j * width + width := by
        rw [← Nat.succ_mul]
        congr 1
        omega
      rw [List.length_drop]
      omega
    rw [slice, List.take_of_length_le rest, List.take_of_length_le (by rw [List.length_drop]; omega)]
  · rfl

theorem pieces_flatten : (pieces width obu).flatten = obu.payload := by
  by_cases fits : obu.size ≤ width
  · simp [pieces, fits]
  · rw [pieces_eq positive whole fits]
    exact flatten_pieces _ _ _ (whole ▸ (packetNum_bounds positive fits).1)

theorem pieces_length_le : ∀ p ∈ pieces width obu, p.length ≤ width := by
  by_cases fits : obu.size ≤ width
  · simp [pieces, fits, ← whole]
  · simp only [pieces_eq positive whole fits, List.mem_map, forall_exists_index, and_imp]
    rintro p j _ rfl
    simp only [List.length_take]
    omega

end Pieces

/-- The packets of one OBU are its pieces. -/
theorem obuUnits_eq {width : Nat} (positive : 0 < width) (count : Nat) (isKey : Bool) (i : Nat) (obu : Obu) :
    obuUnits width count isKey i obu = (pieces width obu).mapIdx fun j piece =>
      unit isKey (decide (i = 0 ∧ j = 0))
        (decide (i = count - 1 ∧ j + 1 = (pieces width obu).length)) piece := by
  by_cases fits : obu.size ≤ width
  · have first : (!decide (i = 0)) = decide (i > 0) := by
      rw [← decide_not]
      exact decide_eq_decide.mpr (by omega)
    simp [obuUnits, pieces, fits, unit, first]
  · have some := (packetNum_bounds positive fits).2.2
    simp only [obuUnits, pieces, fits, if_false]
    apply List.ext_getElem
    · simp
    · intro j inside _
      simp only [List.length_map, List.length_range] at inside
      have last : (j = (obu.size + width - 1) / width - 1) ↔ (j + 1 = (obu.size + width - 1) / width) := by
        omega
      have later : (decide (i > 0) || decide (j > 0)) = !decide (i = 0 ∧ j = 0) := by
        rw [← Bool.decide_or, ← decide_not]
        exact decide_eq_decide.mpr (by omega)
      simp only [List.getElem_map, List.getElem_range, List.getElem_mapIdx, List.length_map,
        List.length_range, unit, later, last, Bool.and_assoc, Bool.decide_and]

/-- The packets of a temporal unit, from the OBU at an index on. -/
theorem units_eq {width : Nat} (positive : 0 < width) (isKey : Bool) (obus : List Obu) (i : Nat) :
    (obus.mapIdx fun k => obuUnits width (i + obus.length) isKey (i + k)).flatten =
      (obus.flatMap (pieces width)).mapIdx fun k piece => unit isKey (decide (i = 0 ∧ k = 0))
        (decide (k + 1 = (obus.flatMap (pieces width)).length)) piece := by
  induction obus generalizing i with
  | nil => rfl
  | cons obu rest ih =>
    have shift := ih (i + 1)
    have some := List.length_pos_iff.mpr (pieces_ne_nil positive : pieces width obu ≠ [])
    simp only [List.mapIdx_cons, List.flatten_cons, List.flatMap_cons, List.mapIdx_append,
      List.length_cons, List.length_append, Nat.add_zero]
    congr 1
    · rw [obuUnits_eq positive]
      apply List.ext_getElem
      · simp
      · intro j inside _
        simp only [List.length_mapIdx] at inside
        have last : (i = i + (rest.length + 1) - 1 ∧ j + 1 = (pieces width obu).length) ↔
            j + 1 = (pieces width obu).length + (rest.flatMap (pieces width)).length := by
          cases rest with
          | nil => simp
          | cons next rest =>
            have more := List.length_pos_iff.mpr (pieces_ne_nil positive : pieces width next ≠ [])
            simp only [List.length_cons, List.flatMap_cons, List.length_append]
            omega
        simp only [List.getElem_mapIdx, last]
    · have shifted : (fun k => obuUnits width (i + (rest.length + 1)) isKey (i + (k + 1))) =
          fun k => obuUnits width (i + 1 + rest.length) isKey (i + 1 + k) := by
        funext k
        rw [Nat.add_right_comm i 1 k, Nat.add_right_comm i 1 rest.length]
        rfl
      rw [shifted, shift]
      apply List.ext_getElem
      · simp
      · intro j inside _
        have first : (i + 1 = 0 ∧ j = 0) ↔ (i = 0 ∧ j + (pieces width obu).length = 0) := by omega
        have last : (j + 1 = (rest.flatMap (pieces width)).length) ↔ (j + (pieces width obu).length + 1 =
            (pieces width obu).length + (rest.flatMap (pieces width)).length) := by omega
        simp only [List.getElem_mapIdx, first, last]

end RtpPacketizerAv1

end MiniRtc.Video
