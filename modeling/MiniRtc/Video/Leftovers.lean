import MiniRtc.Video.Av1RoundTrip
import MiniRtc.Video.DeliveryOrder
import MiniRtc.Video.H264RoundTrip

/-! What the frame lists and the markers keep of frames that are over.
A frame that is dropped leaves nothing, because `DropFrameAssembly` looks for its timestamp. A frame that
is delivered leaves what came for it after it was completed, or outside of its range. -/
namespace MiniRtc.Video
open Wire Wrapping Rtp Runs

variable {P : Type}

/-- The packet of an insertion that was depacketized. -/
def Insertion.packet (i : Insertion P) : Option P :=
  match i.phase with
  | .assemble p | .commit p => some p
  | _ => none

/-- The packet of an insertion that holds `frame_assembly_mtx_`. -/
def Insertion.committing (i : Insertion P) : Option P :=
  match i.phase with
  | .commit p => some p
  | _ => none

namespace System

/-- The packet that an action puts into a frame. -/
def inserts (cfg : Config P) (s : System P) : Action → Option P
  | .region index _ _ => s.insertions[index]?.bind fun i =>
    match i.phase with
    | .assemble p => if cfg.codec.unitKind p = .other then none else some p
    | _ => none
  | _ => none

/-- The timestamp of the frame that an action delivers, or has dropped at its end. -/
def settles (s : System P) : Action → Option Int
  | .turn now =>
    match s.worker with
    | .looping timing =>
      match s.receiver.pendingFrames with
      | [] => none
      | (stamp, head) :: rest =>
        match s.receiver.judge timing (roundMs now) stamp head rest with
        | .deliver | .deliverKeyframe => some stamp
        | _ => none
    | _ => none
  | .drop =>
    match s.worker with
    | .dropping _ stamp _ => some stamp
    | _ => none
  | _ => none

end System

/-- A run with an account of the frames that are not over. -/
structure Settlement (P : Type) where
  system : System P := {}
  -- the fragments that came in, without those of frames that were delivered or dropped since
  awaiting : List P := []
  -- the timestamps that were delivered or dropped, without those of which a packet came in since
  settled : List (BitVec 32) := []

namespace Settlement

def account (cfg : Config P) (l : Settlement P) (a : Action) (system : System P) : Settlement P :=
  match l.system.settles a with
  | some stamp =>
    { system
      awaiting := l.awaiting.filter fun q => cfg.codec.timestamp q ≠ rtp stamp
      settled := rtp stamp :: l.settled }
  | none =>
    match l.system.inserts cfg a with
    | some p =>
      { system
        awaiting := if cfg.codec.unitKind p = .fragment then l.awaiting ++ [p] else l.awaiting
        settled := l.settled.filter fun ts => ts ≠ cfg.codec.timestamp p }
    | none => { l with system }

def step (cfg : Config P) (l : Settlement P) (a : Action) : Option (Settlement P) :=
  (l.system.step cfg a).map (l.account cfg a)

def Moves (cfg : Config P) (l : Settlement P) (a : Action) (m : Settlement P) : Prop := l.step cfg a = some m

def Starts (l : Settlement P) : Prop := l = {}

/-- Is a complete frame of the timestamp pending? -/
def Completed (l : Settlement P) (ts : BitVec 32) : Prop :=
  ∃ e ∈ l.system.receiver.pendingFrames, rtp e.1 = ts ∧ e.2.isComplete = true

instance (l : Settlement P) (ts : BitVec 32) : Decidable (l.Completed ts) :=
  inferInstanceAs (Decidable (∃ e ∈ l.system.receiver.pendingFrames, rtp e.1 = ts ∧ e.2.isComplete = true))

/-- No fragment comes for a frame that is complete and pending, a packet that is a frame of its own does not
share its timestamp with fragments of a frame that is not complete, and when the range of a frame is
known the fragments of its timestamp are in it. -/
def Orderly (cfg : Config P) (l : Settlement P) : Action → Prop
  | .region index _ _ => ∀ i ∈ l.system.insertions[index]?,
    match i.phase with
    | .assemble p =>
      match cfg.codec.unitKind p with
      | .fragment => ¬ l.Completed (cfg.codec.timestamp p)
      | .single => l.Completed (cfg.codec.timestamp p) ∨
        ∀ q ∈ l.awaiting, cfg.codec.timestamp q ≠ cfg.codec.timestamp p
      | .other => True
    | .commit p =>
      ∀ range ∈ (l.system.receiver.assembly.mark cfg.codec.toCodec p).frameSequenceRange (cfg.codec.timestamp p),
        ∀ q ∈ l.awaiting, cfg.codec.timestamp q = cfg.codec.timestamp p →
          (cfg.codec.sequenceNumber q - range.1).toNat < range.2.2
    | _ => True
  | _ => True

end Settlement

/-! ### One timestamp in the lists -/

namespace Assembly

/-- No packet and no marker of the timestamp is left. -/
structure Absent (c : Codec P) (a : Assembly P) (ts : BitVec 32) : Prop where
  incomplete : ∀ n p, a.incomplete n = some p → c.timestamp p ≠ ts
  starts : a.starts ts = none
  ends : a.ends ts = none

section Absent

variable {c : Codec P} {a : Assembly P} {ts : BitVec 32}

theorem Absent.store (absent : a.Absent c ts) {p : P} (other : c.timestamp p ≠ ts) : (a.store c p).Absent c ts := by
  refine ⟨?_, absent.starts, absent.ends⟩
  intro n q held
  change Function.update a.incomplete _ _ _ = _ at held
  by_cases same : n = c.sequenceNumber p
  · rw [same, Function.update_self] at held
    cases held
    exact other
  · rw [Function.update_of_ne same] at held
    exact absent.incomplete n q held

theorem Absent.mark (absent : a.Absent c ts) {p : P} (other : c.timestamp p ≠ ts) : (a.mark c p).Absent c ts := by
  refine ⟨absent.incomplete, ?_, ?_⟩
  · change (if c.isStart p then Function.update a.starts _ _ else a.starts) ts = none
    split
    · rw [Function.update_of_ne other.symm, absent.starts]
    · exact absent.starts
  · change (if c.isEnd p then Function.update a.ends _ _ else a.ends) ts = none
    split
    · rw [Function.update_of_ne other.symm, absent.ends]
    · exact absent.ends

theorem Absent.erase_clear (absent : a.Absent c ts) (start : BitVec 16) (count : Nat) (cleared : BitVec 32) :
    ((a.erase start count).clearFrameMarkers cleared).Absent c ts := by
  refine ⟨?_, ?_, ?_⟩
  · intro n p held
    change (if _ then none else a.incomplete n) = some p at held
    split at held
    · cases held
    · exact absent.incomplete n p held
  · change Function.update a.starts cleared none ts = none
    by_cases same : ts = cleared
    · rw [same, Function.update_self]
    · rw [Function.update_of_ne same, absent.starts]
  · change Function.update a.ends cleared none ts = none
    by_cases same : ts = cleared
    · rw [same, Function.update_self]
    · rw [Function.update_of_ne same, absent.ends]

/-- A packet of another timestamp. -/
theorem Absent.checkFrameCompleted (absent : a.Absent c ts) {p : P} (other : c.timestamp p ≠ ts) :
    (a.checkFrameCompleted c p).1.Absent c ts := by
  cases completed : (a.checkFrameCompleted c p).2 with
  | none =>
    rw [checkFrameCompleted_eq_none completed]
    exact absent.mark other
  | some f =>
    obtain ⟨start, last, packets, _, _, _, _, _, _, left⟩ := checkFrameCompleted_eq_some completed
    rw [left]
    exact (absent.mark other).erase_clear ..

/-- The packet that completes a frame takes the whole timestamp with it when all of it is in the range. -/
theorem absent_of_completed {input : List P} (source : a.From c input) {p : P} {f : CompleteFrame}
    (completed : (a.checkFrameCompleted c p).2 = some f)
    (within : ∀ range ∈ (a.mark c p).frameSequenceRange (c.timestamp p), ∀ q ∈ input,
      c.timestamp q = c.timestamp p → (c.sequenceNumber q - range.1).toNat < range.2.2) :
    (a.checkFrameCompleted c p).1.Absent c (c.timestamp p) := by
  obtain ⟨start, last, packets, atStart, atEnd, nonempty, length, _, _, left⟩ :=
    checkFrameCompleted_eq_some completed
  have positive : framePacketCount start last ≠ 0 := fun zero =>
    nonempty (List.eq_nil_of_length_eq_zero (length.trans zero))
  have range : (a.mark c p).frameSequenceRange (c.timestamp p) =
      some (start, last, framePacketCount start last) := by
    rw [frameSequenceRange, atStart, atEnd]
    simp only [if_neg positive]
  rw [left]
  refine ⟨?_, Function.update_self .., Function.update_self ..⟩
  intro n q held same
  change (if n ∈ (List.range packets.length).map (sequenceNumberAt start) then none else a.incomplete n) = some q
    at held
  split at held
  · cases held
  · rename_i outside
    obtain ⟨member, number⟩ := source.incomplete n q held
    have inside := within _ range q member same
    rw [number, ← length] at inside
    refine outside (List.mem_map.mpr ⟨_, List.mem_range.mpr inside, ?_⟩)
    rw [sequenceNumberAt, BitVec.ofNat_toNat, BitVec.setWidth_eq, BitVec.add_comm, BitVec.sub_add_cancel]

theorem absent_drop (ts : BitVec 32) : (a.dropFrameAssembly c ts).Absent c ts := by
  refine ⟨?_, Function.update_self .., Function.update_self ..⟩
  intro n p held
  exact of_decide_eq_true (Option.filter_eq_some_iff.mp held).2

theorem Absent.drop (absent : a.Absent c ts) (dropped : BitVec 32) :
    (a.dropFrameAssembly c dropped).Absent c ts := by
  have cleared := absent.erase_clear 0 0 dropped
  refine ⟨?_, cleared.starts, cleared.ends⟩
  intro n p held
  exact absent.incomplete n p (Option.filter_eq_some_iff.mp held).1

end Absent

/-! ### What came in -/

section From

variable {c : Codec P} {a : Assembly P} {input : List P}

/-- Without the packets of a timestamp of which nothing is left. -/
theorem From.settle (source : a.From c input) {ts : BitVec 32} (absent : a.Absent c ts) :
    a.From c (input.filter fun q => c.timestamp q ≠ ts) := by
  refine ⟨?_, ?_, ?_⟩
  · intro n p held
    obtain ⟨member, number⟩ := source.incomplete n p held
    exact ⟨List.mem_filter.mpr ⟨member, decide_eq_true (absent.incomplete n p held)⟩, number⟩
  · intro t n marked
    obtain ⟨p, member, first, stamp, number⟩ := source.starts t n marked
    refine ⟨p, List.mem_filter.mpr ⟨member, decide_eq_true fun same => ?_⟩, first, stamp, number⟩
    rw [← stamp, same, absent.starts] at marked
    cases marked
  · intro t n marked
    obtain ⟨p, member, last, stamp, number⟩ := source.ends t n marked
    refine ⟨p, List.mem_filter.mpr ⟨member, decide_eq_true fun same => ?_⟩, last, stamp, number⟩
    rw [← stamp, same, absent.ends] at marked
    cases marked

theorem From.drop (source : a.From c input) (ts : BitVec 32) : (a.dropFrameAssembly c ts).From c input := by
  have cleared := source.erase_clear 0 0 ts
  refine ⟨?_, cleared.starts, cleared.ends⟩
  intro n p held
  exact source.incomplete n p (Option.filter_eq_some_iff.mp held).1

end From

end Assembly

end MiniRtc.Video
