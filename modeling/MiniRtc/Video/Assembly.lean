import MiniRtc.Lib.Bytes
import MiniRtc.Lib.Wrapping

/-! Frame assembly in `RtpVideoReceiver` (rtp_video_receiver.cpp).
Packets wait by sequence number until the whole range between the start and the end
marker of their timestamp is there. `CheckIsH264FrameCompleted` and
`CheckIsAv1FrameCompleted` are the same walk over that range and differ in what a codec
gives: the markers, the octets before the payloads and the key frame test. -/
namespace MiniRtc.Video
open Wire

def kMaxPacketsPerFrame : Nat := 4096

def framePacketCount (start last : BitVec 16) : Nat :=
  let packetCount := (last - start).toNat + 1
  if packetCount ≤ kMaxPacketsPerFrame then packetCount else 0

def sequenceNumberAt (start : BitVec 16) (offset : Nat) : BitVec 16 := start + BitVec.ofNat 16 offset

/-- What the receiver reads from a depacketized packet of a codec. -/
structure Codec (P : Type) where
  timestamp : P → BitVec 32
  sequenceNumber : P → BitVec 16
  payload : P → Bytes
  isStart : P → Bool
  isEnd : P → Bool
  /-- Octets before the payloads, from the first packet. -/
  header : P → Bytes
  /-- From the first packet and the whole frame. -/
  isKeyFrame : P → Bytes → Bool

/-- The frame list of one codec with `fua_start_sequence_numbers_` and
`fua_end_sequence_numbers_`. -/
structure Assembly (P : Type) where
  incomplete : BitVec 16 → Option P := fun _ => none
  starts : BitVec 32 → Option (BitVec 16) := fun _ => none
  ends : BitVec 32 → Option (BitVec 16) := fun _ => none

/-- The arguments of `CommitPendingFrame`, and where the frame starts. -/
structure CompleteFrame where
  timestamp : BitVec 32
  frame : Bytes
  isKeyframe : Bool
  startSequenceNumber : BitVec 16
  endSequenceNumber : BitVec 16
deriving DecidableEq, Repr

namespace Assembly

variable {P : Type} (c : Codec P) (a : Assembly P)

def store (p : P) : Assembly P :=
  { a with incomplete := Function.update a.incomplete (c.sequenceNumber p) (some p) }

def mark (p : P) : Assembly P :=
  { a with
    starts := if c.isStart p then
      Function.update a.starts (c.timestamp p) (some (c.sequenceNumber p)) else a.starts
    ends := if c.isEnd p then
      Function.update a.ends (c.timestamp p) (some (c.sequenceNumber p)) else a.ends }

/-- `GetFrameSequenceRange`. -/
def frameSequenceRange (timestamp : BitVec 32) : Option (BitVec 16 × BitVec 16 × Nat) :=
  match a.starts timestamp, a.ends timestamp with
  | some start, some last =>
    let count := framePacketCount start last
    if count = 0 then none else some (start, last, count)
  | _, _ => none

/-- The walk over the range: every packet must be there and carry the timestamp. -/
def collect (timestamp : BitVec 32) : Nat → BitVec 16 → Option (List P)
  | 0, _ => some []
  | count + 1, sequenceNumber =>
    match a.incomplete sequenceNumber with
    | none => none
    | some p =>
      if c.timestamp p ≠ timestamp then none
      else (collect timestamp count (sequenceNumber + 1)).map (p :: ·)

def erase (start : BitVec 16) (count : Nat) : Assembly P :=
  { a with incomplete := fun s =>
    if s ∈ (List.range count).map (sequenceNumberAt start) then none else a.incomplete s }

def clearFrameMarkers (timestamp : BitVec 32) : Assembly P :=
  { a with
    starts := Function.update a.starts timestamp none
    ends := Function.update a.ends timestamp none }

/-- `DropFrameAssembly`. -/
def dropFrameAssembly (timestamp : BitVec 32) : Assembly P :=
  { a.clearFrameMarkers timestamp with
    incomplete := fun s => (a.incomplete s).filter fun p => c.timestamp p ≠ timestamp }

/-- The frame made of a collected range, which is never empty. -/
def assembled (timestamp : BitVec 32) (last : BitVec 16) (packets : List P) : CompleteFrame :=
  let frame := (packets.head?.map c.header).getD [] ++ (packets.map c.payload).flatten
  { timestamp, frame
    startSequenceNumber := (packets.head?.map c.sequenceNumber).getD last
    endSequenceNumber := last
    isKeyframe := (packets.head?.map fun first => c.isKeyFrame first frame).getD false }

/-- `CheckIsH264FrameCompleted` and `CheckIsAv1FrameCompleted` after the packet was tracked,
with `PopCompleteFrame`. -/
def checkFrameCompleted (p : P) : Assembly P × Option CompleteFrame :=
  let a := a.mark c p
  match a.frameSequenceRange (c.timestamp p) with
  | none => (a, none)
  | some (start, last, count) =>
    match a.collect c (c.timestamp p) count start with
    | none => (a, none)
    | some packets =>
      ((a.erase start count).clearFrameMarkers (c.timestamp p),
        some (assembled c (c.timestamp p) last packets))

/-- One packet: `ProcessAv1RtpPacket`, or the FU-A branch of `ProcessH264RtpPacket`. -/
def process (p : P) : Assembly P × Option CompleteFrame := (a.store c p).checkFrameCompleted c p

end Assembly

/-- The assembly after a list of packets. -/
def Assembly.processAll {P : Type} (c : Codec P) (a : Assembly P) (packets : List P) : Assembly P :=
  packets.foldl (fun a p => (a.process c p).1) a

/-! ### Sequence numbers of one range -/

theorem sequenceNumberAt_zero (start : BitVec 16) : sequenceNumberAt start 0 = start := by
  simp [sequenceNumberAt]

theorem sequenceNumberAt_succ (start : BitVec 16) (i : Nat) :
    sequenceNumberAt (start + 1) i = sequenceNumberAt start (i + 1) := by
  unfold sequenceNumberAt
  rw [BitVec.add_assoc]
  congr 1
  apply BitVec.eq_of_toNat_eq
  simp [BitVec.toNat_add]
  omega

theorem sequenceNumberAt_inj {start : BitVec 16} {i j : Nat} (hi : i < 65536) (hj : j < 65536) :
    sequenceNumberAt start i = sequenceNumberAt start j ↔ i = j := by
  constructor
  · intro same
    have cancelled := congrArg BitVec.toNat (BitVec.add_right_inj start |>.mp same)
    simp only [BitVec.toNat_ofNat] at cancelled
    omega
  · intro same
    rw [same]

/-- A range of legal length is counted right, across the wrap too. -/
theorem framePacketCount_eq {start : BitVec 16} {n : Nat} (positive : 0 < n)
    (short : n ≤ kMaxPacketsPerFrame) :
    framePacketCount start (sequenceNumberAt start (n - 1)) = n := by
  have difference : (sequenceNumberAt start (n - 1) - start).toNat = n - 1 := by
    rw [sequenceNumberAt, BitVec.add_comm, BitVec.add_sub_cancel, BitVec.toNat_ofNat]
    unfold kMaxPacketsPerFrame at short
    omega
  unfold framePacketCount
  simp only [difference, Nat.sub_add_cancel positive, if_pos short]

section Walk

variable {P : Type} {c : Codec P} {a : Assembly P}

/-- What a successful walk has seen. -/
theorem collect_eq_some_iff {timestamp : BitVec 32} {count : Nat} {start : BitVec 16}
    {packets : List P} :
    a.collect c timestamp count start = some packets ↔ packets.length = count ∧
      ∀ i (h : i < packets.length), a.incomplete (sequenceNumberAt start i) = some packets[i] ∧
        c.timestamp packets[i] = timestamp := by
  induction count generalizing start packets with
  | zero =>
    simp only [Assembly.collect, Option.some.injEq]
    constructor
    · rintro rfl
      exact ⟨rfl, fun i h => absurd h (Nat.not_lt_zero i)⟩
    · rintro ⟨empty, _⟩
      exact (List.eq_nil_of_length_eq_zero empty).symm
  | succ count ih =>
    unfold Assembly.collect
    cases packets with
    | nil =>
      constructor
      · intro result
        split at result
        · cases result
        · split at result
          · cases result
          · obtain ⟨rest, _, same⟩ := Option.map_eq_some_iff.mp result
            cases same
      · rintro ⟨empty, _⟩
        cases empty
    | cons p rest =>
      have first := sequenceNumberAt_zero start
      constructor
      · intro result
        split at result
        · cases result
        · rename_i q there
          split at result
          · cases result
          · rename_i stamp
            obtain ⟨rest', later, same⟩ := Option.map_eq_some_iff.mp result
            cases same
            obtain ⟨length, all⟩ := ih.mp later
            refine ⟨by simp [length], ?_⟩
            intro i h
            cases i with
            | zero => exact ⟨by rw [first]; exact there, Decidable.not_not.mp stamp⟩
            | succ i =>
              have inside : i < rest.length := by simpa using h
              rw [← sequenceNumberAt_succ]
              exact all i inside
      · rintro ⟨length, all⟩
        have head := all 0 (by simp)
        rw [first] at head
        have tail : a.collect c timestamp count (start + 1) = some rest := by
          refine ih.mpr ⟨by simpa using length, ?_⟩
          intro i h
          rw [sequenceNumberAt_succ]
          exact all (i + 1) (by simpa using h)
        simp only [List.getElem_cons_zero] at head
        simp only [head.1, head.2, ne_eq, not_true, if_false, tail, Option.map_some]

/-- What a packet that completes a frame leaves behind, and what it completes. -/
theorem checkFrameCompleted_eq_some {p : P} {f : CompleteFrame}
    (completed : (a.checkFrameCompleted c p).2 = some f) :
    ∃ start last packets, (a.mark c p).starts (c.timestamp p) = some start ∧
      (a.mark c p).ends (c.timestamp p) = some last ∧ packets ≠ [] ∧
      packets.length = framePacketCount start last ∧
      (∀ i (h : i < packets.length), (a.mark c p).incomplete (sequenceNumberAt start i) =
        some packets[i] ∧ c.timestamp packets[i] = c.timestamp p) ∧
      f = Assembly.assembled c (c.timestamp p) last packets ∧
      (a.checkFrameCompleted c p).1 =
        ((a.mark c p).erase start packets.length).clearFrameMarkers (c.timestamp p) := by
  unfold Assembly.checkFrameCompleted at completed ⊢
  simp only at completed ⊢
  split at completed
  · cases completed
  · rename_i start last count range
    split at completed
    · cases completed
    · rename_i packets walk
      obtain ⟨length, all⟩ := collect_eq_some_iff.mp walk
      unfold Assembly.frameSequenceRange at range
      split at range
      · rename_i start' last' atStart atEnd
        simp only at range
        split at range
        · cases range
        · rename_i some
          simp only [Option.some.injEq, Prod.mk.injEq] at range
          obtain ⟨rfl, rfl, rfl⟩ := range
          refine ⟨start', last', packets, atStart, atEnd, ?_, length, all, (Option.some.inj completed).symm, ?_⟩
          · rintro rfl
            exact some length.symm
          · simp only [length]
      · cases range

/-- A packet that completes nothing only leaves its marks. -/
theorem checkFrameCompleted_eq_none {p : P} (nothing : (a.checkFrameCompleted c p).2 = none) :
    (a.checkFrameCompleted c p).1 = a.mark c p := by
  unfold Assembly.checkFrameCompleted at nothing ⊢
  simp only at nothing ⊢
  split at nothing
  · rfl
  · split at nothing
    · rfl
    · cases nothing

end Walk

/-! ### Where a frame comes from -/

/-- Everything held came in, and stands where its packet says. -/
structure Assembly.From {P : Type} (c : Codec P) (input : List P) (a : Assembly P) : Prop where
  incomplete : ∀ s p, a.incomplete s = some p → p ∈ input ∧ c.sequenceNumber p = s
  starts : ∀ t s, a.starts t = some s →
    ∃ p ∈ input, c.isStart p = true ∧ c.timestamp p = t ∧ c.sequenceNumber p = s
  ends : ∀ t s, a.ends t = some s →
    ∃ p ∈ input, c.isEnd p = true ∧ c.timestamp p = t ∧ c.sequenceNumber p = s

/-- The octets of a frame are those of consecutive packets of one timestamp, from one that
starts a frame to one that ends it. -/
structure CompleteFrame.Whole {P : Type} (c : Codec P) (input : List P) (f : CompleteFrame)
    (packets : List P) : Prop where
  nonempty : packets ≠ []
  came : ∀ p ∈ packets, p ∈ input ∧ c.timestamp p = f.timestamp
  start : ∃ p ∈ input, c.isStart p = true ∧ c.timestamp p = f.timestamp ∧
    ∀ i (h : i < packets.length),
      c.sequenceNumber packets[i] = sequenceNumberAt (c.sequenceNumber p) i
  last : ∃ p ∈ input, c.isEnd p = true ∧ c.timestamp p = f.timestamp ∧
    c.sequenceNumber p = f.endSequenceNumber ∧
    packets.getLast?.map c.sequenceNumber = some f.endSequenceNumber
  frame : f.frame = (packets.head?.map c.header).getD [] ++ (packets.map c.payload).flatten

section From

variable {P : Type} {c : Codec P} {a : Assembly P} {input : List P}

theorem Assembly.From.store (source : a.From c input) (p : P) : (a.store c p).From c (input ++ [p]) := by
  refine ⟨?_, ?_, ?_⟩
  · intro s q there
    change Function.update a.incomplete _ _ _ = _ at there
    by_cases same : s = c.sequenceNumber p
    · subst same
      rw [Function.update_self] at there
      cases there
      exact ⟨by simp, rfl⟩
    · rw [Function.update_of_ne same] at there
      obtain ⟨member, number⟩ := source.incomplete s q there
      exact ⟨List.mem_append_left _ member, number⟩
  · intro t s there
    obtain ⟨q, member, facts⟩ := source.starts t s there
    exact ⟨q, List.mem_append_left _ member, facts⟩
  · intro t s there
    obtain ⟨q, member, facts⟩ := source.ends t s there
    exact ⟨q, List.mem_append_left _ member, facts⟩

theorem Assembly.From.mark (source : a.From c input) {p : P} (came : p ∈ input) : (a.mark c p).From c input := by
  refine ⟨source.incomplete, ?_, ?_⟩
  · intro t s there
    change (if c.isStart p then Function.update a.starts _ _ else a.starts) t = some s at there
    by_cases new : c.isStart p = true ∧ t = c.timestamp p
    · obtain ⟨first, rfl⟩ := new
      rw [if_pos first, Function.update_self] at there
      exact ⟨p, came, first, rfl, Option.some.inj there⟩
    · refine source.starts t s ?_
      split at there
      · rename_i first
        rwa [Function.update_of_ne (fun same => new ⟨first, same⟩)] at there
      · exact there
  · intro t s there
    change (if c.isEnd p then Function.update a.ends _ _ else a.ends) t = some s at there
    by_cases new : c.isEnd p = true ∧ t = c.timestamp p
    · obtain ⟨last, rfl⟩ := new
      rw [if_pos last, Function.update_self] at there
      exact ⟨p, came, last, rfl, Option.some.inj there⟩
    · refine source.ends t s ?_
      split at there
      · rename_i last
        rwa [Function.update_of_ne (fun same => new ⟨last, same⟩)] at there
      · exact there

theorem Assembly.From.store_mark (source : a.From c input) (p : P) :
    ((a.store c p).mark c p).From c (input ++ [p]) :=
  (source.store p).mark List.mem_concat_self

theorem Assembly.From.erase_clear (source : a.From c input) (start : BitVec 16) (count : Nat)
    (timestamp : BitVec 32) : ((a.erase start count).clearFrameMarkers timestamp).From c input := by
  refine ⟨?_, ?_, ?_⟩
  · intro s p there
    change (if _ then none else a.incomplete s) = some p at there
    split at there
    · cases there
    · exact source.incomplete s p there
  · intro t s there
    change Function.update a.starts timestamp none t = some s at there
    by_cases same : t = timestamp
    · subst same
      rw [Function.update_self] at there
      cases there
    · rw [Function.update_of_ne same] at there
      exact source.starts t s there
  · intro t s there
    change Function.update a.ends timestamp none t = some s at there
    by_cases same : t = timestamp
    · subst same
      rw [Function.update_self] at there
      cases there
    · rw [Function.update_of_ne same] at there
      exact source.ends t s there

/-- The check of a packet that came in. -/
theorem Assembly.From.checkFrameCompleted (source : a.From c input) {p : P} (came : p ∈ input) :
    (a.checkFrameCompleted c p).1.From c input := by
  cases completed : (a.checkFrameCompleted c p).2 with
  | none =>
    rw [checkFrameCompleted_eq_none completed]
    exact source.mark came
  | some f =>
    obtain ⟨start, last, packets, _, _, _, _, _, _, left⟩ := checkFrameCompleted_eq_some completed
    rw [left]
    exact (source.mark came).erase_clear ..

theorem Assembly.From.process (source : a.From c input) (p : P) :
    (a.process c p).1.From c (input ++ [p]) ∧
      ∀ f, (a.process c p).2 = some f → ∃ packets, f.Whole c (input ++ [p]) packets := by
  have marked := source.store_mark p
  refine ⟨(source.store p).checkFrameCompleted List.mem_concat_self, ?_⟩
  intro f completed
  obtain ⟨start, last, packets, atStart, atEnd, nonempty, length, walk, rfl, _⟩ :=
    checkFrameCompleted_eq_some completed
  have number : ∀ i (h : i < packets.length),
      c.sequenceNumber packets[i] = sequenceNumberAt start i :=
    fun i h => (marked.incomplete _ _ (walk i h).1).2
  have positive : 0 < packets.length := List.length_pos_iff.mpr nonempty
  refine ⟨packets, nonempty, ?_, ?_, ?_, rfl⟩
  · intro q member
    obtain ⟨i, h, rfl⟩ := List.mem_iff_getElem.mp member
    exact ⟨(marked.incomplete _ _ (walk i h).1).1, (walk i h).2⟩
  · obtain ⟨q, member, first, stamp, rfl⟩ := marked.starts _ _ atStart
    exact ⟨q, member, first, stamp, number⟩
  · obtain ⟨q, member, ends, stamp, rfl⟩ := marked.ends _ _ atEnd
    refine ⟨q, member, ends, stamp, rfl, ?_⟩
    rw [List.getLast?_eq_getElem?, List.getElem?_eq_getElem (by omega), Option.map_some, number]
    congr 1
    show sequenceNumberAt start (packets.length - 1) = c.sequenceNumber q
    simp only [framePacketCount] at length
    split at length
    · rw [length, Nat.add_sub_cancel, sequenceNumberAt, BitVec.ofNat_toNat,
        BitVec.setWidth_eq, BitVec.add_comm, BitVec.sub_add_cancel]
    · omega

theorem from_processAll (input : List P) : (Assembly.processAll c {} input).From c input := by
  induction input using List.reverseRecOn with
  | nil =>
    refine ⟨?_, ?_, ?_⟩ <;>
    · intro _ _ there
      cases there
  | append_singleton input p ih =>
    rw [Assembly.processAll, List.foldl_append]
    exact (ih.process p).1

/-- Whatever comes in, every frame is whole and of one timestamp. -/
theorem processAll_whole (input : List P) (p : P) (f : CompleteFrame)
    (completed : ((Assembly.processAll c {} input).process c p).2 = some f) :
    ∃ packets, f.Whole c (input ++ [p]) packets :=
  ((from_processAll input).process p).2 f completed

end From

end MiniRtc.Video
