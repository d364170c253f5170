import MiniRtc.Qos.FeedbackTracker

/-! What the feedbacks of a tracker say about the packets that came in.
The specification keeps every copy that matters: those since the previous feedback, and for
each number of the bounded history all that came in since the number entered it. The tracker
keeps a summary of these. -/
namespace MiniRtc.Qos.CongestionControlFeedbackTracker
open Wrapping
open Rtcp (EcnMarking TimeDelta)

abbrev PacketInfo.number (p : PacketInfo) : Int := p.unwrappedSequenceNumber

/-! ### One report -/

/-- The report on a number, from its entry in the history and the copies since. -/
def mergeCopies (feedbackTime : Int) (m : Merged) : List PacketInfo → Merged
  | [] => m
  | p :: rest => rest.foldl (fun m p => m.duplicate feedbackTime p) (m.first feedbackTime p)

/-- The merged offset belongs to the latest arrival, and the mark to any copy. -/
structure Merges (feedbackTime : Int) (arrivals : List Int) (ce : Prop) (m : Merged) : Prop where
  none : arrivals = [] → m.arrivalTimeOffset = .minusInfinity
  latest : arrivals ≠ [] → ∃ a ∈ arrivals, m.arrivalTimeOffset = .finite (feedbackTime - a) ∧
    ∀ b ∈ arrivals, b ≤ a
  ce : m.ecn = .kCe ↔ ce

section Merge

variable {feedbackTime : Int} {arrivals : List Int} {ce : Prop} {m : Merged}

theorem minOffset_latest (merges : Merges feedbackTime arrivals ce m) (arrival : Int) :
    ∃ a ∈ arrivals ++ [arrival],
      minOffset m.arrivalTimeOffset (feedbackTime - arrival) = .finite (feedbackTime - a) ∧
        ∀ b ∈ arrivals ++ [arrival], b ≤ a := by
  by_cases none : arrivals = []
  · rw [merges.none none, none]
    exact ⟨arrival, by simp, rfl, by simp⟩
  · obtain ⟨a, member, offset, latest⟩ := merges.latest none
    rw [offset]
    by_cases later : a ≤ arrival
    · refine ⟨arrival, by simp, ?_, ?_⟩
      · simp only [minOffset, TimeDelta.finite.injEq]
        omega
      · intro b there
        rcases List.mem_append.mp there with old | new
        · exact Int.le_trans (latest b old) later
        · rw [List.mem_singleton.mp new]
    · refine ⟨a, List.mem_append_left _ member, ?_, ?_⟩
      · simp only [minOffset, TimeDelta.finite.injEq]
        omega
      · intro b there
        rcases List.mem_append.mp there with old | new
        · exact latest b old
        · rw [List.mem_singleton.mp new]
          omega

theorem Merges.first (merges : Merges feedbackTime arrivals ce m) (p : PacketInfo) :
    Merges feedbackTime (arrivals ++ [p.arrivalTime]) (ce ∨ p.ecn = .kCe) (m.first feedbackTime p) := by
  refine ⟨by simp, fun _ => minOffset_latest merges p.arrivalTime, ?_⟩
  rw [← merges.ce]
  simp only [Merged.first]
  split
  · rename_i marked
    simp [marked]
  · rename_i unmarked
    split
    · rename_i notEct
      simp [unmarked, notEct]
    · simp [unmarked]

theorem Merges.duplicate (merges : Merges feedbackTime arrivals ce m) (p : PacketInfo) :
    Merges feedbackTime (arrivals ++ [p.arrivalTime]) (ce ∨ p.ecn = .kCe)
      (m.duplicate feedbackTime p) := by
  refine ⟨by simp, fun _ => minOffset_latest merges p.arrivalTime, ?_⟩
  rw [← merges.ce]
  simp only [Merged.duplicate]
  split
  · rename_i marked
    simp [marked]
  · rename_i unmarked
    simp [unmarked]

theorem Merges.duplicates (merges : Merges feedbackTime arrivals ce m) (copies : List PacketInfo) :
    Merges feedbackTime (arrivals ++ copies.map PacketInfo.arrivalTime)
      (ce ∨ ∃ p ∈ copies, p.ecn = .kCe) (copies.foldl (fun m p => m.duplicate feedbackTime p) m) := by
  induction copies generalizing arrivals ce m with
  | nil => simpa using merges
  | cons p rest ih =>
    have next := ih (merges.duplicate p)
    simpa [or_assoc] using next

theorem Merges.copies (merges : Merges feedbackTime arrivals ce m) (copies : List PacketInfo) :
    Merges feedbackTime (arrivals ++ copies.map PacketInfo.arrivalTime)
      (ce ∨ ∃ p ∈ copies, p.ecn = .kCe) (mergeCopies feedbackTime m copies) := by
  cases copies with
  | nil => simpa [mergeCopies] using merges
  | cons p rest =>
    have next := (merges.first p).duplicates rest
    simpa [or_assoc, mergeCopies] using next

end Merge

/-! ### The range -/

/-- The loop over the further copies takes exactly those of the number. -/
theorem mergeDuplicates_eq (feedbackTime number : Int) (m : Merged) (packets : List PacketInfo)
    (sorted : packets.Pairwise PacketInfo.le) (from_ : ∀ p ∈ packets, number ≤ p.number) :
    mergeDuplicates feedbackTime number m packets =
      ((packets.filter fun p => p.number = number).foldl (fun m p => m.duplicate feedbackTime p) m,
        packets.filter fun p => p.number ≠ number) := by
  induction packets generalizing m with
  | nil => rfl
  | cons p rest ih =>
    obtain ⟨first, sorted⟩ := List.pairwise_cons.mp sorted
    unfold mergeDuplicates
    by_cases same : p.number = number
    · rw [if_pos same, ih _ sorted fun q member => from_ q (List.mem_cons_of_mem _ member)]
      simp [same]
    · have low := from_ p List.mem_cons_self
      have later : ∀ q ∈ p :: rest, q.number ≠ number := by
        intro q member
        rcases List.mem_cons.mp member with rfl | member
        · exact same
        · have order := first q member
          simp only [PacketInfo.le] at order
          simp only [PacketInfo.number] at low same ⊢
          omega
      have none : (p :: rest).filter (fun q => q.number = number) = [] := by
        simpa [List.filter_eq_nil_iff] using later
      have all : (p :: rest).filter (fun q => q.number ≠ number) = p :: rest := by
        simpa [List.filter_eq_self] using later
      rw [if_neg same, none, all]
      rfl

/-- The report of the loop on one number. -/
def reportOf (feedbackTime : Int) (history : List PacketInfo) (ssrc : BitVec 32)
    (packets : List PacketInfo) (number : Int) : Rtcp.PacketInfo :=
  let m := mergeCopies feedbackTime (Merged.ofHistory feedbackTime (findHistory history number))
    (packets.filter fun p => p.number = number)
  ⟨ssrc, BitVec.ofInt 16 number, m.arrivalTimeOffset, m.ecn⟩

theorem takeCopies_eq (feedbackTime number : Int) (m : Merged) (packets : List PacketInfo)
    (sorted : packets.Pairwise PacketInfo.le) (from_ : ∀ p ∈ packets, number ≤ p.number) :
    takeCopies feedbackTime number m packets =
      (mergeCopies feedbackTime m (packets.filter fun p => p.number = number),
        packets.filter fun p => p.number ≠ number) := by
  have whole := mergeDuplicates_eq feedbackTime number m packets sorted from_
  cases packets with
  | nil => rfl
  | cons p rest =>
    by_cases same : p.number = number
    · have rest_eq := mergeDuplicates_eq feedbackTime number (m.first feedbackTime p) rest
        (List.pairwise_cons.mp sorted).2 fun q member => from_ q (List.mem_cons_of_mem _ member)
      rw [takeCopies, if_pos same.symm, rest_eq]
      simp [same, mergeCopies]
    · have stays : ¬ number = p.unwrappedSequenceNumber := fun equal => same equal.symm
      rw [mergeDuplicates, if_neg same] at whole
      have all := (Prod.mk.inj whole).2
      have none : (p :: rest).filter (fun q => q.number = number) = [] := by
        rw [List.filter_eq_nil_iff]
        intro q member
        rw [all] at member
        simpa using (List.mem_filter.mp member).2
      rw [takeCopies, if_neg stays, none, mergeCopies, ← all]

theorem reportRange_eq (feedbackTime : Int) (history : List PacketInfo) (ssrc : BitVec 32)
    (count : Nat) (number : Int) (packets : List PacketInfo)
    (sorted : packets.Pairwise PacketInfo.le) (from_ : ∀ p ∈ packets, number ≤ p.number) :
    reportRange feedbackTime history ssrc count number packets =
      (List.range count).map fun (i : Nat) =>
        reportOf feedbackTime history ssrc packets (number + i) := by
  induction count generalizing number packets with
  | zero => rfl
  | succ count ih =>
    have later : ∀ p ∈ packets.filter (fun p => p.number ≠ number), number + 1 ≤ p.number := by
      intro p member
      obtain ⟨member, other⟩ := List.mem_filter.mp member
      have low := from_ p member
      simp only [ne_eq, decide_not, Bool.not_eq_true', decide_eq_false_iff_not] at other
      omega
    have same : ∀ i : Nat, (packets.filter fun p => p.number ≠ number).filter
        (fun p => p.number = number + 1 + i) = packets.filter fun p => p.number = number + 1 + i := by
      intro i
      rw [List.filter_filter]
      apply List.filter_congr
      intro p _
      by_cases this : p.number = number + 1 + i
      · have other : p.number ≠ number := by omega
        simp [this]
        omega
      · simp [this]
    simp only [reportRange, takeCopies_eq feedbackTime number _ packets sorted from_,
      ih (number + 1) _ (sorted.filter _) later, List.range_succ_eq_map, List.map_cons, List.map_map]
    congr 1
    · simp only [reportOf, Int.natCast_zero, Int.add_zero]
    · apply List.map_congr_left
      intro i _
      have step : number + ((i + 1 : Nat) : Int) = number + 1 + i := by omega
      simp only [reportOf, Function.comp_apply, Nat.succ_eq_add_one, step, same]

/-! ### What was seen -/

/-- The copies since the previous feedback, and those of every number in the history, the
oldest number first. -/
structure Seen where
  since : List PacketInfo := []
  remembered : List (Int × List PacketInfo) := []

namespace Seen

def find (remembered : List (Int × List PacketInfo)) (number : Int) :
    Option (Int × List PacketInfo) :=
  remembered.find? fun g => g.1 = number

/-- The history is bounded: the oldest number is forgotten for a new one. -/
def remember (remembered : List (Int × List PacketInfo)) (p : PacketInfo) :
    List (Int × List PacketInfo) :=
  match find remembered p.number with
  | some _ => remembered.map fun g => if g.1 = p.number then (g.1, g.2 ++ [p]) else g
  | none => if kMaxHistorySize ≤ remembered.length then remembered.tail ++ [(p.number, [p])]
    else remembered ++ [(p.number, [p])]

def receive (seen : Seen) (p : PacketInfo) : Seen where
  since := seen.since ++ [p]
  remembered := remember seen.remembered p

def report (seen : Seen) : Seen := { seen with since := [] }

/-- The copies of a number that a feedback is about. -/
def copies (seen : Seen) (number : Int) : List PacketInfo :=
  ((find seen.remembered number).map Prod.snd).getD [] ++
    seen.since.filter fun p => p.number = number

end Seen

/-- A packet comes in, with its number as an unbounded one, or a feedback is made. -/
inductive Event where
  | receive (p : PacketInfo)
  | feedback (feedbackTime : Int)

def receivedOf (p : PacketInfo) : RtpPacketReceived :=
  ⟨p.ssrc, BitVec.ofInt 16 p.number, p.arrivalTime, p.ecn⟩

def Event.apply (s : StdSort) (state : CongestionControlFeedbackTracker × Seen) :
    Event → CongestionControlFeedbackTracker × Seen
  | receive p => (state.1.receivedPacket (receivedOf p), state.2.receive p)
  | feedback feedbackTime => ((state.1.addPacketsToFeedback s feedbackTime).2, state.2.report)

/-- A tracker from its beginning on, with what it has seen. -/
def run (s : StdSort) (events : List Event) : CongestionControlFeedbackTracker × Seen :=
  events.foldl (Event.apply s) ({}, {})

def numbers (events : List Event) : List Int :=
  events.filterMap fun
    | .receive p => some p.number
    | .feedback _ => none

/-- The first packet stands for its own number, and every jump is below half the range. -/
structure Numbered (events : List Event) : Prop where
  first : ∀ x ∈ (numbers events).head?, 0 ≤ x ∧ x < 2 ^ 16
  jumps : (numbers events).IsChain (Near 16)

/-- An entry of the history sums up the copies of its number. -/
structure SumsUp (e : PacketInfo) (g : Int × List PacketInfo) : Prop where
  number : e.number = g.1
  first : ∃ q ∈ g.2, q.arrivalTime = e.arrivalTime
  least : ∀ q ∈ g.2, e.arrivalTime ≤ q.arrivalTime
  ce : e.ecn = .kCe ↔ ∃ q ∈ g.2, q.ecn = .kCe

/-! ### The summary of the history -/

/-- An entry is found where its copies are. -/
theorem find_summary {history : List PacketInfo} {remembered : List (Int × List PacketInfo)}
    (sums : List.Forall₂ SumsUp history remembered) (number : Int) :
    (findHistory history number = none ∧ Seen.find remembered number = none) ∨
      ∃ e g, findHistory history number = some e ∧ Seen.find remembered number = some g ∧ SumsUp e g := by
  induction sums with
  | nil => exact .inl ⟨rfl, rfl⟩
  | @cons e g history remembered here later ih =>
    by_cases same : e.number = number
    · refine .inr ⟨e, g, ?_, ?_, here⟩
      · simp [findHistory, same]
      · simp [Seen.find, ← here.number, same]
    · have other : g.1 ≠ number := by
        rw [← here.number]
        exact same
      simpa [findHistory, Seen.find, same, other] using ih

theorem SumsUp.merge {e p : PacketInfo} {g : Int × List PacketInfo} (sums : SumsUp e g) :
    SumsUp (mergeHistory e p) (g.1, g.2 ++ [p]) := by
  obtain ⟨q, member, first⟩ := sums.first
  refine ⟨sums.number, ?_, ?_, ?_⟩
  · simp only [mergeHistory]
    split
    · exact ⟨p, by simp, rfl⟩
    · exact ⟨q, List.mem_append_left _ member, first⟩
  · intro r there
    simp only [mergeHistory]
    rcases List.mem_append.mp there with old | new
    · have low := sums.least r old
      split <;> omega
    · rw [List.mem_singleton.mp new]
      split <;> omega
  · simp only [mergeHistory, List.mem_append, List.mem_singleton, or_and_right, exists_or,
      exists_eq_left, ← sums.ce]
    split
    · rename_i marked
      simp [marked]
    · rename_i unmarked
      simp [unmarked]

theorem SumsUp.single (p : PacketInfo) : SumsUp p (p.number, [p]) := by
  refine ⟨rfl, ⟨p, by simp, rfl⟩, by simp, by simp⟩

/-- The copies of a number whose entry is known. -/
theorem sums_map {history : List PacketInfo} {remembered : List (Int × List PacketInfo)}
    (sums : List.Forall₂ SumsUp history remembered) (p : PacketInfo) :
    List.Forall₂ SumsUp
      (history.map fun e => if e.unwrappedSequenceNumber = p.number then mergeHistory e p else e)
      (remembered.map fun g => if g.1 = p.number then (g.1, g.2 ++ [p]) else g) := by
  induction sums with
  | nil => exact .nil
  | @cons e g history remembered here later ih =>
    have head : SumsUp (if e.unwrappedSequenceNumber = p.number then mergeHistory e p else e)
        (if g.1 = p.number then (g.1, g.2 ++ [p]) else g) := by
      have number := here.number
      by_cases same : e.unwrappedSequenceNumber = p.number
      · rw [if_pos same, if_pos (number ▸ same)]
        exact here.merge
      · rw [if_neg same, if_neg (number ▸ same)]
        exact here
    exact .cons head ih

theorem numbers_map (history : List PacketInfo) (p : PacketInfo) (number : Int) :
    (history.map fun e => if e.unwrappedSequenceNumber = number then mergeHistory e p else e).map
        PacketInfo.number = history.map PacketInfo.number := by
  rw [List.map_map]
  apply List.map_congr_left
  intro e _
  simp only [Function.comp_apply]
  split <;> rfl

theorem not_mem_of_find_none {history : List PacketInfo} {number : Int}
    (none : findHistory history number = none) : number ∉ history.map PacketInfo.number := by
  intro member
  obtain ⟨e, there, same⟩ := List.mem_map.mp member
  have other := List.find?_eq_none.mp none e there
  simp [same] at other

/-- The history of the tracker sums up that of the specification, in its order. -/
structure Remembers (t : CongestionControlFeedbackTracker) (remembered : List (Int × List PacketInfo)) :
    Prop where
  history : List.Forall₂ SumsUp t.history remembered
  order : t.historyOrder = t.history.map PacketInfo.number
  nodup : (t.history.map PacketInfo.number).Nodup

/-- The oldest entry is the one that leaves. -/
theorem filter_oldest {e : PacketInfo} {rest : List PacketInfo}
    (nodup : ((e :: rest).map PacketInfo.number).Nodup) :
    (e :: rest).filter (fun x => x.unwrappedSequenceNumber ≠ e.number) = rest := by
  obtain ⟨other, _⟩ := List.nodup_cons.mp nodup
  rw [List.filter_cons_of_neg (by simp)]
  apply List.filter_eq_self.mpr
  intro x member
  have apart : x.number ≠ e.number := fun same => other (same ▸ List.mem_map_of_mem member)
  simpa using apart

theorem emplaceHistory_remembers {t : CongestionControlFeedbackTracker}
    {remembered : List (Int × List PacketInfo)} (remembers : Remembers t remembered) {p : PacketInfo}
    (new : p.number ∉ t.history.map PacketInfo.number) :
    Remembers (t.emplaceHistory p)
      (if kMaxHistorySize ≤ remembered.length then remembered.tail ++ [(p.number, [p])]
        else remembered ++ [(p.number, [p])]) := by
  obtain ⟨history, order, nodup⟩ := remembers
  have size := history.length_eq
  have last := List.Forall₂.cons (SumsUp.single p) List.Forall₂.nil
  have all : ((t.history ++ [p]).map PacketInfo.number).Nodup := by
    rw [List.map_append, List.nodup_append]
    refine ⟨nodup, by simp, ?_⟩
    intro a member b there
    rw [List.mem_singleton.mp there]
    exact fun same => new (same ▸ member)
  have length : (t.historyOrder ++ [p.number]).length = remembered.length + 1 := by
    rw [order, List.length_append, List.length_map, size]
    rfl
  unfold emplaceHistory
  simp only [length]
  by_cases full : kMaxHistorySize ≤ remembered.length
  · rw [if_pos (by omega), if_pos full]
    generalize known : t.history = entries at history order nodup new all
    cases history with
    | nil => exact absurd full (by decide)
    | @cons e g entries remembered here later =>
      have front := @filter_oldest e (entries ++ [p]) all
      simp only [order, List.map_cons, List.cons_append]
      refine ⟨?_, ?_, ?_⟩
      · rw [front]
        exact List.rel_append later last
      · rw [front]
        simp
      · rw [front]
        exact (List.nodup_cons.mp all).2
  · rw [if_neg (by omega), if_neg full]
    refine ⟨List.rel_append history last, ?_, all⟩
    rw [order]
    simp

theorem rememberPacket_remembers {t : CongestionControlFeedbackTracker}
    {remembered : List (Int × List PacketInfo)} (remembers : Remembers t remembered)
    (p : PacketInfo) : Remembers (t.rememberPacket p) (Seen.remember remembered p) := by
  unfold rememberPacket Seen.remember
  rcases find_summary remembers.history p.number with ⟨absent, unknown⟩ | ⟨e, g, there, known, _⟩
  · rw [unknown, absent]
    exact emplaceHistory_remembers remembers (not_mem_of_find_none absent)
  · rw [known, there]
    have numbers := numbers_map t.history p p.number
    refine ⟨sums_map remembers.history p, ?_, ?_⟩
    · exact remembers.order.trans numbers.symm
    · exact numbers.symm ▸ remembers.nodup

theorem rememberPacket_fields (t : CongestionControlFeedbackTracker) (p : PacketInfo) :
    (t.rememberPacket p).packets = t.packets ∧ (t.rememberPacket p).unwrapper = t.unwrapper ∧
      (t.rememberPacket p).lastSequenceNumberInFeedback = t.lastSequenceNumberInFeedback := by
  unfold rememberPacket
  split
  · simp only [emplaceHistory]
    split
    · split <;> exact ⟨rfl, rfl, rfl⟩
    · exact ⟨rfl, rfl, rfl⟩
  · exact ⟨rfl, rfl, rfl⟩

/-! ### The whole tracker -/

/-- A number that has copies since the previous feedback has one of them in its history. -/
def Fresh (seen : Seen) : Prop :=
  ∀ g ∈ seen.remembered, (∃ p ∈ seen.since, p.number = g.1) →
    ∃ q ∈ g.2, q ∈ seen.since ∧ q.number = g.1

/-- The tracker keeps track of what was seen. -/
structure Tracks (t : CongestionControlFeedbackTracker) (seen : Seen) : Prop where
  packets : t.packets = seen.since
  remembers : Remembers t seen.remembered
  fresh : Fresh seen
  next : ∀ last ∈ t.lastSequenceNumberInFeedback, ∀ p ∈ seen.since, last < p.number

theorem Fresh.receive {seen : Seen} (fresh : Fresh seen) (p : PacketInfo) : Fresh (seen.receive p) := by
  have old : ∀ g ∈ seen.remembered, g.1 ≠ p.number →
      (∃ q ∈ (seen.receive p).since, q.number = g.1) →
        ∃ q ∈ g.2, q ∈ (seen.receive p).since ∧ q.number = g.1 := by
    rintro g member other ⟨q, there, same⟩
    rcases List.mem_append.mp there with earlier | now
    · obtain ⟨r, inGroup, since, number⟩ := fresh g member ⟨q, earlier, same⟩
      exact ⟨r, inGroup, List.mem_append_left _ since, number⟩
    · rw [List.mem_singleton.mp now] at same
      exact absurd same.symm other
  have mine : p ∈ (seen.receive p).since := List.mem_append_right _ (List.mem_singleton_self p)
  intro g member copies
  simp only [Seen.receive, Seen.remember] at member
  split at member
  · obtain ⟨h, there, same⟩ := List.mem_map.mp member
    split at same
    · rename_i number
      exact ⟨p, by rw [← same]; simp, mine, by rw [← same, number]⟩
    · rename_i other
      subst same
      exact old h there other copies
  · rename_i unknown
    have apart : ∀ h ∈ seen.remembered, h.1 ≠ p.number := by
      intro h there
      simpa using List.find?_eq_none.mp unknown h there
    have cases : g ∈ seen.remembered ∨ g = (p.number, [p]) := by
      split at member
      · rcases List.mem_append.mp member with tail | new
        · exact .inl (List.mem_of_mem_tail tail)
        · exact .inr (List.mem_singleton.mp new)
      · rcases List.mem_append.mp member with there | new
        · exact .inl there
        · exact .inr (List.mem_singleton.mp new)
    rcases cases with there | rfl
    · exact old g there (apart g there) copies
    · exact ⟨p, by simp, mine, rfl⟩

theorem Tracks.receive {t : CongestionControlFeedbackTracker} {seen : Seen} (tracks : Tracks t seen)
    {p : PacketInfo} (unwraps : (t.unwrapper.unwrap (receivedOf p).sequenceNumber).1 = p.number) :
    Tracks (t.receivedPacket (receivedOf p)) (seen.receive p) := by
  obtain ⟨packets, remembers, fresh, next⟩ := tracks
  obtain ⟨samePackets, _, sameLast⟩ := rememberPacket_fields { t with
    unwrapper := (t.unwrapper.unwrap (receivedOf p).sequenceNumber).2
    lastSequenceNumberInFeedback := rewind t.lastSequenceNumberInFeedback p.number } p
  have remembered := rememberPacket_remembers (t := { t with
    unwrapper := (t.unwrapper.unwrap (receivedOf p).sequenceNumber).2
    lastSequenceNumberInFeedback := rewind t.lastSequenceNumberInFeedback p.number })
    ⟨remembers.history, remembers.order, remembers.nodup⟩ p
  simp only [receivedPacket, unwraps]
  refine ⟨?_, ⟨remembered.history, remembered.order, remembered.nodup⟩, fresh.receive p, ?_⟩
  · show _ ++ [p] = seen.since ++ [p]
    rw [← packets]
    exact congrArg (· ++ [p]) samePackets
  · intro last there q member
    obtain ⟨before, known, same⟩ := Option.map_eq_some_iff.mp (sameLast.symm.trans there)
    rcases List.mem_append.mp member with old | new
    · have low := next before known q old
      split at same <;> omega
    · rw [List.mem_singleton.mp new]
      split at same <;> omega

/-! ### A feedback -/

theorem sort_nil (s : StdSort) : s.sort [] = [] := (s.perm []).eq_nil

theorem addPacketsToFeedback_none (s : StdSort) {t : CongestionControlFeedbackTracker}
    (none : t.packets = []) (feedbackTime : Int) :
    t.addPacketsToFeedback s feedbackTime = ([], t) := by
  simp [addPacketsToFeedback, none, sort_nil]

/-- The sorted packets begin with the least number and end with the greatest. -/
theorem sort_bounds (s : StdSort) {packets : List PacketInfo} (nonempty : packets ≠ []) :
    ∃ front ∈ packets, ∃ back ∈ packets, (s.sort packets).head? = some front ∧
      (s.sort packets).getLast? = some back ∧
      ∀ p ∈ packets, front.number ≤ p.number ∧ p.number ≤ back.number := by
  have perm := s.perm packets
  have sorted := s.sorted packets
  have sortedNonempty : s.sort packets ≠ [] := fun empty =>
    nonempty (List.perm_nil.mp (empty ▸ perm.symm))
  have order : ∀ a b : PacketInfo, a.le b → a.number ≤ b.number := by
    intro a b le
    simp only [PacketInfo.le] at le
    simp only [PacketInfo.number]
    omega
  refine ⟨(s.sort packets).head sortedNonempty, perm.mem_iff.mp (List.head_mem _),
    (s.sort packets).getLast sortedNonempty, perm.mem_iff.mp (List.getLast_mem _),
    List.head?_eq_some_head _, List.getLast?_eq_some_getLast _, ?_⟩
  intro p member
  have there := perm.mem_iff.mpr member
  constructor
  · obtain ⟨front, rest, same⟩ := List.exists_cons_of_ne_nil sortedNonempty
    simp only [same, List.head_cons] at there sorted ⊢
    rcases List.mem_cons.mp there with rfl | later
    · exact Int.le_refl _
    · exact order _ _ ((List.pairwise_cons.mp sorted).1 p later)
  · obtain ⟨before, back, same⟩ := List.eq_nil_or_concat' (s.sort packets) |>.resolve_left sortedNonempty
    simp only [same, List.getLast_append_singleton] at there sorted ⊢
    rcases List.mem_append.mp there with earlier | here
    · exact order _ _ ((List.pairwise_append.mp sorted).2.2 p earlier back (by simp))
    · rw [List.mem_singleton.mp here]

/-- The bounds of the sorted packets, and the range between them that is reported. -/
theorem addPacketsToFeedback_nonempty (s : StdSort) {t : CongestionControlFeedbackTracker}
    (nonempty : t.packets ≠ []) (feedbackTime : Int) :
    ∃ front ∈ t.packets, ∃ back ∈ t.packets,
      (∀ p ∈ t.packets, front.number ≤ p.number ∧ p.number ≤ back.number) ∧
      t.addPacketsToFeedback s feedbackTime =
        (reportRange feedbackTime t.history front.ssrc
            (back.number - t.lastSequenceNumberInFeedback.getD (front.number - 1)).toNat
            (t.lastSequenceNumberInFeedback.getD (front.number - 1) + 1) (s.sort t.packets),
          { t with lastSequenceNumberInFeedback := some back.number, packets := [] }) := by
  obtain ⟨front, first, back, last, head, getLast, bounds⟩ := sort_bounds s nonempty
  refine ⟨front, first, back, last, bounds, ?_⟩
  simp only [addPacketsToFeedback, head, getLast]

theorem Tracks.report {t : CongestionControlFeedbackTracker} {seen : Seen} (tracks : Tracks t seen)
    (s : StdSort) (feedbackTime : Int) :
    Tracks (t.addPacketsToFeedback s feedbackTime).2 seen.report := by
  obtain ⟨packets, remembers, fresh, next⟩ := tracks
  by_cases none : t.packets = []
  · rw [addPacketsToFeedback_none s none]
    exact ⟨none, remembers, by simp [Fresh, Seen.report], by simp [Seen.report]⟩
  · obtain ⟨front, _, back, _, _, result⟩ := addPacketsToFeedback_nonempty s none feedbackTime
    rw [result]
    exact ⟨rfl, ⟨remembers.history, remembers.order, remembers.nodup⟩, by simp [Fresh, Seen.report],
      by simp [Seen.report]⟩

theorem addPacketsToFeedback_unwrapper (s : StdSort) (t : CongestionControlFeedbackTracker)
    (feedbackTime : Int) : (t.addPacketsToFeedback s feedbackTime).2.unwrapper = t.unwrapper := by
  simp only [addPacketsToFeedback]
  split <;> rfl

theorem receivedPacket_unwrapper (t : CongestionControlFeedbackTracker) (packet : RtpPacketReceived) :
    (t.receivedPacket packet).unwrapper = (t.unwrapper.unwrap packet.sequenceNumber).2 :=
  (rememberPacket_fields _ _).2.1

theorem Numbered.of_append (before after : List Event) (numbered : Numbered (before ++ after)) :
    Numbered before := by
  have split : numbers (before ++ after) = numbers before ++ numbers after := List.filterMap_append
  obtain ⟨first, jumps⟩ := numbered
  rw [split] at first jumps
  refine ⟨?_, (List.isChain_append.mp jumps).1⟩
  intro x head
  exact first x (by rw [List.head?_append, Option.mem_def.mp head]; rfl)

/-- What the run knows of the last number. -/
theorem run_tracks (s : StdSort) (events : List Event) (numbered : Numbered events) :
    Tracks (run s events).1 (run s events).2 ∧
      match (numbers events).getLast? with
      | none => (run s events).1.unwrapper = {}
      | some x => (run s events).1.unwrapper.At x := by
  induction events using List.reverseRecOn with
  | nil =>
    refine ⟨⟨rfl, ⟨.nil, rfl, List.nodup_nil⟩, by simp [Fresh, run], by simp [run]⟩, rfl⟩
  | append_singleton events e ih =>
    obtain ⟨tracks, known⟩ := ih (numbered.of_append events [e])
    have step : run s (events ++ [e]) = Event.apply s (run s events) e := by
      simp [run]
    rw [step]
    cases e with
    | feedback feedbackTime =>
      have same : numbers (events ++ [.feedback feedbackTime]) = numbers events := by
        simp [numbers]
      rw [same]
      refine ⟨tracks.report s feedbackTime, ?_⟩
      simp only [Event.apply, addPacketsToFeedback_unwrapper]
      exact known
    | receive p =>
      have same : numbers (events ++ [.receive p]) = numbers events ++ [p.number] := by
        simp [numbers]
      have unwraps : ((run s events).1.unwrapper.unwrap (receivedOf p).sequenceNumber).1 = p.number ∧
          ((run s events).1.unwrapper.unwrap (receivedOf p).sequenceNumber).2.At p.number := by
        obtain ⟨first, jumps⟩ := numbered
        rw [same] at first jumps
        cases last : (numbers events).getLast? with
        | none =>
          rw [last] at known
          rw [List.getLast?_eq_none_iff.mp last] at first
          obtain ⟨low, high⟩ := first p.number rfl
          rw [known]
          exact SeqNumUnwrapper.unwrap_first low high
        | some x =>
          rw [last] at known
          have near := (List.isChain_append.mp jumps).2.2 x last p.number rfl
          exact known.unwrap (by decide) near
      rw [same, List.getLast?_concat]
      refine ⟨tracks.receive unwraps.1, ?_⟩
      simp only [Event.apply, receivedPacket_unwrapper]
      exact unwraps.2

end MiniRtc.Qos.CongestionControlFeedbackTracker
