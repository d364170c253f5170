import MiniRtc.Lib.Wrapping

/-! The count of lost video packets (io_statistics.cpp). The counter keeps the last sequence number and
a total; the stream behind it is a list of unbounded numbers, and what is missing of it is a set. -/
namespace MiniRtc.IOStatistics

structure VideoLoss where
  lastReceivedVideoRtpPktSeq : BitVec 16 := 0
  videoRtpPktLossCnt : BitVec 32 := 0
deriving DecidableEq, Repr

def HALF_SEQ_RANGE : Nat := 65535 / 2 + 1

/-- A last number of zero stands for none. -/
def updateVideoPacketLossCount (s : VideoLoss) (seqNum : BitVec 16) : VideoLoss :=
  let lastVSeq := s.lastReceivedVideoRtpPktSeq
  if lastVSeq = 0 then { s with lastReceivedVideoRtpPktSeq := seqNum }
  else
    let diff := seqNum - lastVSeq
    if diff = 0 then s
    else if diff.toNat < HALF_SEQ_RANGE then {
      lastReceivedVideoRtpPktSeq := seqNum
      videoRtpPktLossCnt :=
        if 1 < diff.toNat then s.videoRtpPktLossCnt + BitVec.ofNat 32 (diff.toNat - 1) else s.videoRtpPktLossCnt }
    else if 0 < s.videoRtpPktLossCnt.toNat then { s with videoRtpPktLossCnt := s.videoRtpPktLossCnt - 1 }
    else s

/-- The counter after the packets of a stream. -/
def counted (xs : List Int) : VideoLoss :=
  xs.foldl (fun s x => updateVideoPacketLossCount s (BitVec.ofInt 16 x)) {}

/-! ### Streams -/

def first (xs : List Int) : Int := xs.headD 0

def highest (xs : List Int) : Int := xs.foldl (fun top x => if top ≤ x then x else top) (first xs)

/-- The numbers between the first and the highest that have not been received. -/
noncomputable def missing (xs : List Int) : Finset Int := Finset.Icc (first xs) (highest xs) \ xs.toFinset

/-- A stream that stays near its highest number. -/
inductive Stream : List Int → Prop
  | start (x : Int) : Stream [x]
  | next {xs : List Int} {x : Int} (before : Stream xs) (near : |x - highest xs| ≤ 2 ^ 15) : Stream (xs ++ [x])

/-- A packet that the counter has a branch for. -/
structure Plain (xs : List Int) (x : Int) : Prop where
  ahead : x - highest xs < 2 ^ 15
  late : x < highest xs → x ∈ missing xs ∨ missing xs = ∅
  marked : highest xs % 2 ^ 16 = 0 → x = highest xs ∨ x = highest xs + 1
  fits : (missing (xs ++ [x])).card < 2 ^ 32

theorem first_concat {xs : List Int} (some' : xs ≠ []) (x : Int) : first (xs ++ [x]) = first xs := by
  cases xs with
  | nil => exact absurd rfl some'
  | cons y xs => rfl

theorem highest_concat {xs : List Int} (some' : xs ≠ []) (x : Int) : highest (xs ++ [x]) = max (highest xs) x := by
  rw [highest, first_concat some', List.foldl_append, max_def]
  rfl

theorem le_highest {xs : List Int} : ∀ x ∈ xs, x ≤ highest xs := by
  induction xs using List.reverseRecOn with
  | nil => exact fun x member => absurd member List.not_mem_nil
  | append_singleton xs x ih =>
    by_cases none : xs = []
    · subst none
      simp [highest, first]
    · intro n member
      rw [highest_concat none]
      rcases List.mem_append.mp member with old | new
      · exact (ih n old).trans (le_max_left _ _)
      · exact (List.mem_singleton.mp new).le.trans (le_max_right _ _)

theorem highest_mem {xs : List Int} (some' : xs ≠ []) : highest xs ∈ xs := by
  induction xs using List.reverseRecOn with
  | nil => exact absurd rfl some'
  | append_singleton xs x ih =>
    by_cases none : xs = []
    · subst none
      simp [highest, first]
    · rw [highest_concat none]
      rcases max_choice (highest xs) x with same | same
      · rw [same]
        exact List.mem_append_left _ (ih none)
      · rw [same]
        exact List.mem_append_right _ (List.mem_singleton_self x)

theorem first_le_highest {xs : List Int} (some' : xs ≠ []) : first xs ≤ highest xs := by
  cases xs with
  | nil => exact absurd rfl some'
  | cons y xs => exact le_highest y List.mem_cons_self

theorem mem_missing {xs : List Int} {n : Int} : n ∈ missing xs ↔ (first xs ≤ n ∧ n ≤ highest xs) ∧ n ∉ xs := by
  rw [missing, Finset.mem_sdiff, Finset.mem_Icc, List.mem_toFinset]

/-- A packet ahead of all leaves the numbers between as missing. -/
theorem card_missing_ahead {xs : List Int} (some' : xs ≠ []) {x : Int} (ahead : highest xs < x) :
    ((missing (xs ++ [x])).card : Int) = (missing xs).card + (x - highest xs - 1) := by
  have between : missing (xs ++ [x]) = missing xs ∪ Finset.Ioo (highest xs) x := by
    ext n
    rw [mem_missing, first_concat some', highest_concat some', max_eq_right ahead.le, Finset.mem_union, mem_missing,
      Finset.mem_Ioo, List.mem_append, List.mem_singleton]
    have order := first_le_highest some'
    constructor
    · rintro ⟨⟨low, high⟩, out⟩
      by_cases early : n ≤ highest xs
      · exact Or.inl ⟨⟨low, early⟩, fun member => out (Or.inl member)⟩
      · exact Or.inr ⟨by omega, lt_of_le_of_ne high fun same => out (Or.inr same)⟩
    · rintro (⟨⟨low, high⟩, out⟩ | ⟨low, high⟩)
      · exact ⟨⟨low, by omega⟩, fun member => member.elim out (by omega)⟩
      · refine ⟨⟨by omega, high.le⟩, fun member => member.elim (fun inside => ?_) (by omega)⟩
        have bound := le_highest n inside
        omega
  have apart : Disjoint (missing xs) (Finset.Ioo (highest xs) x) := by
    rw [Finset.disjoint_left]
    intro n here there
    have high := (mem_missing.mp here).1.2
    have low := (Finset.mem_Ioo.mp there).1
    omega
  rw [between, Finset.card_union_of_disjoint apart, Int.card_Ioo]
  push_cast
  omega

/-- A packet that was missing is not missing any more. -/
theorem missing_late {xs : List Int} (some' : xs ≠ []) {x : Int} (late : x ≤ highest xs) :
    missing (xs ++ [x]) = (missing xs).erase x := by
  ext n
  rw [mem_missing, first_concat some', highest_concat some', max_eq_left late, Finset.mem_erase, mem_missing,
    List.mem_append, List.mem_singleton]
  tauto

/-! ### The count -/

/-- The counter is right, and it knows the highest number. -/
structure Right (xs : List Int) (s : VideoLoss) : Prop where
  last : s.lastReceivedVideoRtpPktSeq = BitVec.ofInt 16 (highest xs)
  count : s.videoRtpPktLossCnt.toNat = (missing xs).card

theorem counted_concat (xs : List Int) (x : Int) :
    counted (xs ++ [x]) = updateVideoPacketLossCount (counted xs) (BitVec.ofInt 16 x) := by
  rw [counted, List.foldl_append]
  rfl

theorem ofInt_eq_zero (x : Int) : BitVec.ofInt 16 x = 0 ↔ x % 2 ^ 16 = 0 := by
  constructor
  · intro zero
    have value := congrArg BitVec.toNat zero
    rw [BitVec.toNat_ofInt] at value
    have none : (0 : BitVec 16).toNat = 0 := rfl
    omega
  · intro zero
    apply BitVec.eq_of_toNat_eq
    rw [BitVec.toNat_ofInt]
    have none : (0 : BitVec 16).toNat = 0 := rfl
    omega

theorem right_start (x : Int) : Right [x] (counted [x]) := by
  have none : missing [x] = ∅ := by
    ext n
    simp only [mem_missing, first, highest, List.headD_cons, List.foldl_cons, List.foldl_nil,
      List.mem_singleton, Finset.notMem_empty, iff_false]
    omega
  refine ⟨?_, ?_⟩
  · simp [counted, updateVideoPacketLossCount, highest, first]
  · rw [none]
    simp [counted, updateVideoPacketLossCount]

/-- One plain packet. -/
theorem Right.next {xs : List Int} {s : VideoLoss} (right : Right xs s) (some' : xs ≠ []) {x : Int}
    (near : |x - highest xs| ≤ 2 ^ 15) (plain : Plain xs x) :
    Right (xs ++ [x]) (updateVideoPacketLossCount s (BitVec.ofInt 16 x)) := by
  obtain ⟨below, above⟩ := abs_le.mp near
  have fits := plain.fits
  have difference := Wrapping.toNat_ofInt_sub (w := 16) x (highest xs)
  unfold updateVideoPacketLossCount
  simp only
  rw [right.last]
  by_cases mark : BitVec.ofInt 16 (highest xs) = 0
  · -- The highest number looks like none, so only the packet after it is taken right.
    rw [if_pos mark]
    rcases plain.marked ((ofInt_eq_zero _).mp mark) with same | next
    · have still : missing (xs ++ [x]) = missing xs := by
        rw [missing_late some' same.le, Finset.erase_eq_of_notMem]
        exact fun member => (mem_missing.mp member).2 (same ▸ highest_mem some')
      refine ⟨?_, ?_⟩
      · rw [highest_concat some', same, max_self]
      · rw [still]
        exact right.count
    · have card := card_missing_ahead some' (show highest xs < x by omega)
      refine ⟨?_, ?_⟩
      · rw [highest_concat some', max_eq_right (by omega)]
      · have count := right.count
        simp only
        omega
  rw [if_neg mark]
  rcases lt_trichotomy x (highest xs) with late | same | ahead
  · have far : ¬(BitVec.ofInt 16 x - BitVec.ofInt 16 (highest xs)).toNat < HALF_SEQ_RANGE := by
      unfold HALF_SEQ_RANGE
      omega
    have other : BitVec.ofInt 16 x - BitVec.ofInt 16 (highest xs) ≠ 0 := by
      intro zero
      rw [zero] at far
      exact far (by decide)
    rw [if_neg other, if_neg far]
    have top : highest (xs ++ [x]) = highest xs := by rw [highest_concat some', max_eq_left late.le]
    have count := right.count
    have one : (1 : BitVec 32).toNat = 1 := rfl
    rcases plain.late late with member | nothing
    · have positive : 0 < (missing xs).card := Finset.card_pos.mpr ⟨x, member⟩
      rw [if_pos (by omega)]
      refine ⟨?_, ?_⟩
      · rw [top]
      · rw [missing_late some' late.le, Finset.card_erase_of_mem member, BitVec.toNat_sub, ← count]
        have bound := s.videoRtpPktLossCnt.isLt
        omega
    · rw [nothing, Finset.card_empty] at count
      rw [if_neg (by omega)]
      refine ⟨?_, ?_⟩
      · rw [top]
        exact right.last
      · rw [missing_late some' late.le, nothing, Finset.erase_empty, Finset.card_empty]
        exact count
  · have zero : BitVec.ofInt 16 x - BitVec.ofInt 16 (highest xs) = 0 := by
      rw [same, BitVec.sub_self]
      rfl
    rw [if_pos zero, same]
    have still : missing (xs ++ [highest xs]) = missing xs := by
      rw [missing_late some' le_rfl, Finset.erase_eq_of_notMem]
      exact fun member => (mem_missing.mp member).2 (highest_mem some')
    refine ⟨?_, ?_⟩
    · rw [highest_concat some', max_self]
      exact right.last
    · rw [still]
      exact right.count
  · have step := plain.ahead
    have diff : (BitVec.ofInt 16 x - BitVec.ofInt 16 (highest xs)).toNat = (x - highest xs).toNat := by omega
    have other : BitVec.ofInt 16 x - BitVec.ofInt 16 (highest xs) ≠ 0 := by
      intro zero
      rw [zero] at diff
      have none : (0 : BitVec 16).toNat = 0 := rfl
      omega
    have close : (BitVec.ofInt 16 x - BitVec.ofInt 16 (highest xs)).toNat < HALF_SEQ_RANGE := by
      unfold HALF_SEQ_RANGE
      omega
    rw [if_neg other, if_pos close]
    have card := card_missing_ahead some' ahead
    have count := right.count
    refine ⟨?_, ?_⟩
    · rw [highest_concat some', max_eq_right ahead.le]
    · simp only
      split
      · rw [BitVec.toNat_add, BitVec.toNat_ofNat, diff]
        omega
      · omega

/-- A late packet that was not missing takes one off all the same. -/
theorem Right.miscounts {xs : List Int} {s : VideoLoss} (right : Right xs s) (some' : xs ≠ []) {x : Int}
    (near : |x - highest xs| ≤ 2 ^ 15) (late : x < highest xs) (known : x ∉ missing xs) (lost : missing xs ≠ ∅)
    (mark : highest xs % 2 ^ 16 ≠ 0) :
    (updateVideoPacketLossCount s (BitVec.ofInt 16 x)).videoRtpPktLossCnt.toNat + 1 = (missing (xs ++ [x])).card := by
  obtain ⟨below, above⟩ := abs_le.mp near
  have difference := Wrapping.toNat_ofInt_sub (w := 16) x (highest xs)
  have positive : 0 < (missing xs).card := Finset.card_pos.mpr (Finset.nonempty_iff_ne_empty.mpr lost)
  have count := right.count
  have far : ¬(BitVec.ofInt 16 x - BitVec.ofInt 16 (highest xs)).toNat < HALF_SEQ_RANGE := by
    unfold HALF_SEQ_RANGE
    omega
  have other : BitVec.ofInt 16 x - BitVec.ofInt 16 (highest xs) ≠ 0 := by
    intro zero
    rw [zero] at far
    exact far (by decide)
  have one : (1 : BitVec 32).toNat = 1 := rfl
  unfold updateVideoPacketLossCount
  simp only
  rw [right.last, if_neg (mt (ofInt_eq_zero _).mp mark), if_neg other, if_neg far, if_pos (by omega),
    missing_late some' late.le, Finset.erase_eq_of_notMem known, BitVec.toNat_sub]
  omega

theorem Stream.ne_nil {xs : List Int} (stream : Stream xs) : xs ≠ [] := by
  cases stream <;> simp

/-- A stream all of whose packets are plain. -/
theorem Stream.right {xs : List Int} (stream : Stream xs)
    (plain : ∀ ys x, ys ≠ [] → ys ++ [x] <+: xs → Plain ys x) : Right xs (counted xs) := by
  induction stream with
  | start x => exact right_start x
  | @next xs x before near ih =>
    have right := ih fun ys y some' early => plain ys y some' (early.trans (List.prefix_append xs [x]))
    rw [counted_concat]
    exact right.next before.ne_nil near (plain xs x before.ne_nil List.prefix_rfl)

/-- While every packet is plain the counter is the number of packets missing. -/
theorem counts_missing {xs : List Int} (stream : Stream xs)
    (plain : ∀ ys x, ys ≠ [] → ys ++ [x] <+: xs → Plain ys x) :
    (counted xs).videoRtpPktLossCnt.toNat = (missing xs).card :=
  (stream.right plain).count

theorem missing_lossy : missing [1, 3] = {2} := by
  ext n
  simp only [mem_missing, first, highest, List.headD_cons, List.foldl_cons, List.foldl_nil, List.mem_cons,
    List.not_mem_nil, or_false, Finset.mem_singleton]
  norm_num
  omega

theorem stream_lossy : Stream [1, 3] := (Stream.start 1).next (by decide)

theorem counts_missing_lossy : (counted [1, 3]).videoRtpPktLossCnt.toNat = (missing [1, 3]).card :=
  counts_missing stream_lossy fun ys x some' early => by
    have last : ys = [1] ∧ x = 3 := by
      obtain ⟨rest, whole⟩ := early
      rcases ys with _ | ⟨y, _ | ⟨z, ys⟩⟩
      · exact absurd rfl some'
      · simp_all
      · simp at whole
    obtain ⟨rfl, rfl⟩ := last
    exact {
      ahead := by decide
      late := fun late => absurd late (by decide)
      marked := fun mark => absurd mark (by decide)
      fits := by
        rw [List.singleton_append, missing_lossy, Finset.card_singleton]
        norm_num }

/-- The second packet with number one is taken for the lost one. -/
theorem duplicate_miscounts :
    ¬∀ xs, Stream xs → (counted xs).videoRtpPktLossCnt.toNat = (missing xs).card := by
  intro all
  have count := all [1, 3, 1] (@Stream.next [1, 3] 1 stream_lossy (by decide))
  have still : missing [1, 3, 1] = {2} := by
    rw [← missing_lossy]
    exact (@missing_late [1, 3] (by simp) 1 (by decide)).trans
      (Finset.erase_eq_of_notMem fun member => (mem_missing.mp member).2 (by simp))
  rw [still, Finset.card_singleton] at count
  exact absurd count (by decide)

end MiniRtc.IOStatistics
