import MiniRtc.Qos.FeedbackReports

/-! When a feedback tells the truth about what came in.
The comment on RFC 8888 asks for the arrival of the first copy of a packet. The loop takes the
least offset, which is the offset of the last copy: so the two agree as long as no copy that
came since the previous feedback is later than another copy of its packet. -/
namespace MiniRtc.Qos.CongestionControlFeedbackTracker
open Wrapping
open Rtcp (EcnMarking TimeDelta)

/-- What a report has to say about a number, given the copies of it. -/
structure Reports (seen : Seen) (feedbackTime : Int) (r : Rtcp.PacketInfo) (number : Int) : Prop where
  sequenceNumber : r.sequenceNumber = BitVec.ofInt 16 number
  received : r.arrivalTimeOffset.isFinite = true ↔ seen.copies number ≠ []
  arrival : ∀ first ∈ seen.copies number,
    (∀ q ∈ seen.copies number, first.arrivalTime ≤ q.arrivalTime) →
      r.arrivalTimeOffset = .finite (feedbackTime - first.arrivalTime)
  ce : r.ecn = .kCe ↔ ∃ q ∈ seen.copies number, q.ecn = .kCe

def consecutive (low : Int) (count : Nat) : List Int :=
  (List.range count).map fun (i : Nat) => low + i

/-- A feedback is about consecutive numbers, up to the largest one since the previous feedback
and from below all of them on; it is empty only when nothing came in. -/
structure Faithful (reports : List Rtcp.PacketInfo) (seen : Seen) (feedbackTime : Int) : Prop where
  empty : seen.since = [] → reports = []
  covers : seen.since ≠ [] → ∃ low, ∃ back ∈ seen.since,
    (∀ p ∈ seen.since, low ≤ p.number ∧ p.number ≤ back.number) ∧
    List.Forall₂ (Reports seen feedbackTime) reports
      (consecutive low (back.number + 1 - low).toNat)

/-- No copy since the previous feedback is later than another copy of its number. -/
def FirstCopies (seen : Seen) : Prop :=
  ∀ p ∈ seen.since, ∀ q ∈ seen.copies p.number, p.arrivalTime ≤ q.arrivalTime

theorem mem_copies {seen : Seen} {number : Int} {p : PacketInfo} :
    p ∈ seen.copies number ↔
      (∃ g, Seen.find seen.remembered number = some g ∧ p ∈ g.2) ∨
        (p ∈ seen.since ∧ p.number = number) := by
  rw [Seen.copies, List.mem_append, List.mem_filter, decide_eq_true_eq]
  cases Seen.find seen.remembered number with
  | none => simp
  | some g => simp

/-- Of the copies of a number one is the first. -/
theorem exists_first {copies : List PacketInfo} (nonempty : copies ≠ []) :
    ∃ first ∈ copies, ∀ q ∈ copies, first.arrivalTime ≤ q.arrivalTime := by
  have inhabited : copies.toFinset.Nonempty := List.toFinset_nonempty_iff copies |>.mpr nonempty
  obtain ⟨first, member, least⟩ := copies.toFinset.exists_min_image PacketInfo.arrivalTime inhabited
  exact ⟨first, List.mem_toFinset.mp member, fun q there => least q (List.mem_toFinset.mpr there)⟩

/-- The report on a number is made of the entry of the history and the copies since. -/
structure Made (seen : Seen) (feedbackTime : Int) (number : Int) (m : Merged) : Prop where
  none : seen.copies number = [] → m.arrivalTimeOffset = .minusInfinity
  latest : seen.copies number ≠ [] → ∃ a, m.arrivalTimeOffset = .finite (feedbackTime - a) ∧
    (∃ q ∈ seen.copies number, q.arrivalTime = a) ∧
    (∀ p ∈ seen.since, p.number = number → p.arrivalTime ≤ a) ∧
    ((∃ p ∈ seen.since, p.number = number ∧ a ≤ p.arrivalTime) ∨
      ∀ q ∈ seen.copies number, a ≤ q.arrivalTime)
  ce : m.ecn = .kCe ↔ ∃ q ∈ seen.copies number, q.ecn = .kCe

section Report

variable {t : CongestionControlFeedbackTracker} {seen : Seen} (tracks : Tracks t seen) (s : StdSort)
include tracks

theorem Tracks.mem_sorted (number : Int) (p : PacketInfo) :
    p ∈ ((s.sort t.packets).filter fun q => q.number = number) ↔ p ∈ seen.since ∧ p.number = number := by
  rw [List.mem_filter, (s.perm t.packets).mem_iff, tracks.packets, decide_eq_true_eq]

theorem Tracks.made (feedbackTime number : Int) :
    Made seen feedbackTime number
      (mergeCopies feedbackTime (Merged.ofHistory feedbackTime (findHistory t.history number))
        ((s.sort t.packets).filter fun p => p.number = number)) := by
  have inSorted := tracks.mem_sorted s number
  generalize (s.sort t.packets).filter (fun p => p.number = number) = sorted at inSorted ⊢
  rcases find_summary tracks.remembers.history number with ⟨absent, unknown⟩ | ⟨e, g, there, known, sums⟩
  · have start : Merges feedbackTime [] False (Merged.ofHistory feedbackTime none) :=
      ⟨fun _ => rfl, fun some => absurd rfl some, by simp [Merged.ofHistory]⟩
    have merged := start.copies sorted
    have copies : ∀ q, q ∈ seen.copies number ↔ q ∈ sorted := by
      intro q
      simp [mem_copies, unknown, inSorted]
    rw [absent]
    refine ⟨?_, ?_, ?_⟩
    · intro empty
      have nothing : sorted = [] := by
        rw [List.eq_nil_iff_forall_not_mem]
        intro q member
        simpa [empty] using (copies q).mpr member
      exact merged.none (by simp [nothing])
    · intro nonempty
      obtain ⟨q, member⟩ := List.exists_mem_of_ne_nil _ nonempty
      obtain ⟨a, arrived, offset, latest⟩ := merged.latest
        (List.ne_nil_of_mem (List.mem_append_right _ (List.mem_map_of_mem ((copies q).mp member))))
      rw [List.nil_append] at arrived latest
      obtain ⟨p, inSince, rfl⟩ := List.mem_map.mp arrived
      have p_since := (inSorted p).mp inSince
      refine ⟨p.arrivalTime, offset, ⟨p, (copies p).mpr inSince, rfl⟩, ?_, .inl ⟨p, p_since.1, p_since.2, le_rfl⟩⟩
      intro r received same
      exact latest _ (List.mem_map_of_mem ((inSorted r).mpr ⟨received, same⟩))
    · rw [merged.ce]
      simp [copies]
  · have start : Merges feedbackTime [e.arrivalTime] (e.ecn = .kCe)
        (Merged.ofHistory feedbackTime (some e)) :=
      ⟨by simp, fun _ => ⟨e.arrivalTime, by simp, rfl, by simp⟩, Iff.rfl⟩
    have merged := start.copies sorted
    have copies : ∀ q, q ∈ seen.copies number ↔ q ∈ g.2 ∨ q ∈ sorted := by
      intro q
      simp [mem_copies, known, inSorted]
    rw [there]
    obtain ⟨first, inGroup, firstTime⟩ := sums.first
    refine ⟨?_, ?_, ?_⟩
    · intro empty
      have : first ∈ seen.copies number := (copies first).mpr (.inl inGroup)
      simp [empty] at this
    · intro _
      obtain ⟨a, arrived, offset, latest⟩ := merged.latest (by simp)
      have since : ∀ p ∈ seen.since, p.number = number → p.arrivalTime ≤ a := by
        intro p received same
        exact latest _ (List.mem_append_right _ (List.mem_map_of_mem ((inSorted p).mpr ⟨received, same⟩)))
      rcases List.mem_append.mp arrived with entry | copy
      · rw [List.mem_singleton.mp entry] at since offset
        refine ⟨e.arrivalTime, offset, ⟨first, (copies first).mpr (.inl inGroup), firstTime⟩, since, ?_⟩
        by_cases again : ∃ p ∈ seen.since, p.number = number
        · -- One of the copies since is summed up in the entry, so the entry is no later than it.
          have name : g.1 = number := by simpa using List.find?_some known
          obtain ⟨r, summed, received, same⟩ :=
            tracks.fresh g (List.mem_of_find?_eq_some known) (name ▸ again)
          exact .inl ⟨r, received, same.trans name, sums.least r summed⟩
        · refine .inr fun q member => ?_
          rcases (copies q).mp member with old | new
          · exact sums.least q old
          · obtain ⟨received, same⟩ := (inSorted q).mp new
            exact absurd ⟨q, received, same⟩ again
      · obtain ⟨p, inSince, rfl⟩ := List.mem_map.mp copy
        have p_since := (inSorted p).mp inSince
        exact ⟨p.arrivalTime, offset, ⟨p, (copies p).mpr (.inr inSince), rfl⟩, since,
          .inl ⟨p, p_since.1, p_since.2, le_rfl⟩⟩
    · rw [merged.ce, sums.ce]
      simp [copies, or_and_right, exists_or]

end Report

/-- A report tells of the first copy when no copy since is later than another one. -/
theorem Made.reports_iff {seen : Seen} {feedbackTime number : Int} {m : Merged} (ssrc : BitVec 32)
    (made : Made seen feedbackTime number m) :
    Reports seen feedbackTime ⟨ssrc, BitVec.ofInt 16 number, m.arrivalTimeOffset, m.ecn⟩ number ↔
      ∀ p ∈ seen.since, p.number = number →
        ∀ q ∈ seen.copies number, p.arrivalTime ≤ q.arrivalTime := by
  constructor
  · intro reports p received same q member
    have nonempty : seen.copies number ≠ [] := List.ne_nil_of_mem member
    obtain ⟨first, inCopies, least⟩ := exists_first nonempty
    obtain ⟨a, offset, _, since, _⟩ := made.latest nonempty
    have arrival := reports.arrival first inCopies least
    rw [offset, TimeDelta.finite.injEq] at arrival
    have low := least q member
    have high := since p received same
    omega
  · intro ordered
    refine ⟨rfl, ?_, ?_, made.ce⟩
    · by_cases empty : seen.copies number = []
      · simp [made.none empty, empty, TimeDelta.isFinite]
      · obtain ⟨a, offset, _⟩ := made.latest empty
        simp [offset, empty, TimeDelta.isFinite]
    · intro first inCopies least
      obtain ⟨a, offset, ⟨q, member, arrived⟩, _, bound⟩ := made.latest (List.ne_nil_of_mem inCopies)
      have low := least q member
      have high : a ≤ first.arrivalTime := by
        rcases bound with ⟨p, received, same, after⟩ | all
        · exact Int.le_trans after (ordered p received same first inCopies)
        · exact all first inCopies
      show m.arrivalTimeOffset = _
      rw [offset, TimeDelta.finite.injEq]
      omega

/-- The numbers of a feedback, and how the report on each of them was made. -/
theorem Tracks.feedback {t : CongestionControlFeedbackTracker} {seen : Seen} (tracks : Tracks t seen)
    (s : StdSort) (nonempty : seen.since ≠ []) (feedbackTime : Int) :
    ∃ low ssrc, ∃ back ∈ seen.since, (∀ p ∈ seen.since, low ≤ p.number ∧ p.number ≤ back.number) ∧
      (t.addPacketsToFeedback s feedbackTime).1 =
        (consecutive low (back.number + 1 - low).toNat).map
          (reportOf feedbackTime t.history ssrc (s.sort t.packets)) := by
  obtain ⟨front, first, back, last, bounds, result⟩ :=
    addPacketsToFeedback_nonempty s (tracks.packets ▸ nonempty : t.packets ≠ []) feedbackTime
  have next := tracks.next
  rw [← tracks.packets] at next ⊢
  have low : ∀ p ∈ t.packets,
      t.lastSequenceNumberInFeedback.getD (front.number - 1) + 1 ≤ p.number := by
    intro p member
    cases known : t.lastSequenceNumberInFeedback with
    | none =>
      have least := (bounds p member).1
      simp only [Option.getD_none]
      omega
    | some last =>
      have above := next last known p member
      simp only [Option.getD_some]
      omega
  refine ⟨_, front.ssrc, back, last, fun p member => ⟨low p member, (bounds p member).2⟩, ?_⟩
  have sortedLow : ∀ p ∈ s.sort t.packets,
      t.lastSequenceNumberInFeedback.getD (front.number - 1) + 1 ≤ p.number :=
    fun p member => low p ((s.perm t.packets).mem_iff.mp member)
  have count : ∀ last : Int, back.number - last = back.number + 1 - (last + 1) := by
    intro last
    omega
  rw [result, reportRange_eq _ _ _ _ _ _ (s.sorted t.packets) sortedLow, consecutive, List.map_map,
    count]
  rfl

/-- After any run, the next feedback is faithful exactly when no copy since the previous one is
later than another copy of its number. -/
theorem feedback_faithful_iff (s : StdSort) (events : List Event) (numbered : Numbered events)
    (feedbackTime : Int) :
    Faithful ((run s events).1.addPacketsToFeedback s feedbackTime).1 (run s events).2 feedbackTime ↔
      FirstCopies (run s events).2 := by
  obtain ⟨tracks, _⟩ := run_tracks s events numbered
  generalize (run s events).1 = t at tracks ⊢
  generalize (run s events).2 = seen at tracks ⊢
  by_cases empty : seen.since = []
  · have nothing := addPacketsToFeedback_none s (tracks.packets.trans empty) feedbackTime
    rw [nothing]
    constructor
    · simp [FirstCopies, empty]
    · intro _
      exact ⟨fun _ => rfl, fun some => absurd empty some⟩
  · obtain ⟨low, ssrc, back, inSince, bounds, result⟩ := tracks.feedback s empty feedbackTime
    have each := fun number => (tracks.made s feedbackTime number).reports_iff ssrc
    rw [result]
    constructor
    · intro faithful p received
      obtain ⟨from_, back', inSince', bounds', all⟩ := faithful.covers empty
      have sameBack : back'.number = back.number := by
        have above := (bounds back' inSince').2
        have below := (bounds' back inSince).2
        omega
      have sameLow : from_ = low := by
        have length := all.length_eq
        have above := (bounds back inSince).1
        have above' := (bounds' back' inSince').1
        simp only [consecutive, List.length_map, List.length_range] at length
        omega
      rw [sameBack, sameLow, List.forall₂_map_left_iff] at all
      have inRange : p.number ∈ consecutive low (back.number + 1 - low).toNat := by
        obtain ⟨above, below⟩ := bounds p received
        refine List.mem_map.mpr ⟨(p.number - low).toNat, ?_, ?_⟩
        · rw [List.mem_range]
          omega
        · omega
      exact (each p.number).mp (List.forall₂_same.mp all p.number inRange) p received rfl
    · intro ordered
      refine ⟨fun none => absurd none empty, fun _ => ⟨low, back, inSince, bounds, ?_⟩⟩
      rw [List.forall₂_map_left_iff, List.forall₂_same]
      intro number _
      refine (each number).mpr fun p received same => ?_
      exact same ▸ ordered p received

section Concrete

instance : DecidableRel PacketInfo.le := fun a b => by
  unfold PacketInfo.le
  infer_instance

instance : Std.Total PacketInfo.le where
  total a b := by
    simp only [PacketInfo.le]
    omega

instance : IsTrans PacketInfo PacketInfo.le where
  trans a b c := by
    simp only [PacketInfo.le]
    omega

/-- A sort that keeps the order of equal packets. -/
def insertionSort : StdSort where
  sort packets := packets.insertionSort PacketInfo.le
  perm packets := packets.perm_insertionSort PacketInfo.le
  sorted packets := packets.pairwise_insertionSort PacketInfo.le

/-- Number 65535, the next one behind the wrap, and a copy of it that the clock puts first. -/
def reordered : List Event :=
  [.receive ⟨7, 65535, 10, .kEct0⟩, .receive ⟨7, 65536, 30, .kEct0⟩, .feedback 40,
    .receive ⟨7, 65536, 20, .kCe⟩]

theorem feedback_faithful_reordered :
    Faithful ((run insertionSort reordered).1.addPacketsToFeedback insertionSort 50).1
      (run insertionSort reordered).2 50 := by
  have numbered : Numbered reordered := ⟨by simp [numbers, reordered, PacketInfo.number], by decide⟩
  refine (feedback_faithful_iff insertionSort reordered numbered 50).mpr ?_
  unfold FirstCopies
  decide

/-- Number 1 comes in twice. -/
def repeated : List Event := [.receive ⟨7, 1, 10, .kNotEct⟩, .receive ⟨7, 1, 20, .kNotEct⟩]

/-- The feedback tells the arrival of the second copy. -/
theorem feedback_tells_last_copy :
    Numbered repeated ∧
    ((run insertionSort repeated).1.addPacketsToFeedback insertionSort 30).1 =
      [⟨7, 1, .finite 10, .kNotEct⟩] ∧
    ¬ Faithful ((run insertionSort repeated).1.addPacketsToFeedback insertionSort 30).1
      (run insertionSort repeated).2 30 := by
  have result : ((run insertionSort repeated).1.addPacketsToFeedback insertionSort 30).1 =
      [⟨7, 1, .finite 10, .kNotEct⟩] := by decide
  have since : (run insertionSort repeated).2.since =
      [⟨7, 1, 10, .kNotEct⟩, ⟨7, 1, 20, .kNotEct⟩] := by decide
  have first : (⟨7, 1, 10, .kNotEct⟩ : PacketInfo) ∈ (run insertionSort repeated).2.copies 1 := by decide
  have least : ∀ q ∈ (run insertionSort repeated).2.copies 1, (10 : Int) ≤ q.arrivalTime := by decide
  refine ⟨⟨by simp [numbers, repeated, PacketInfo.number], by decide⟩, result, fun faithful => ?_⟩
  obtain ⟨low, back, member, bounds, all⟩ := faithful.covers (by simp [since])
  rw [result] at all
  have numbers : back.number = 1 ∧ low = 1 := by
    have length := all.length_eq
    have below := (bounds back member).1
    simp only [since, List.mem_cons, List.not_mem_nil, or_false] at member
    simp only [consecutive, List.length_cons, List.length_nil, List.length_map, List.length_range]
      at length
    have one : back.number = 1 := by
      rcases member with rfl | rfl <;> rfl
    omega
  rw [numbers.1, numbers.2] at all
  cases all with
  | cons reports _ =>
    have arrival := reports.arrival _ first least
    simp at arrival

end Concrete

end MiniRtc.Qos.CongestionControlFeedbackTracker
