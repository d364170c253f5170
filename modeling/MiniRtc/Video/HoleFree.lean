import MiniRtc.Video.Holes

/-! No delta frame across a hole.
The worker's turns keep the invariant of `Holes`, and so does every step of a run that is
numbered and watchful. -/
namespace MiniRtc.Video
open Wrapping Rtp Runs

variable {P : Type}

namespace System

variable {s t : System P}

section Turn

variable (covered : s.Covered) {stamp : Int} {head : PendingFrame} {rest : List (Int × PendingFrame)}
  (pending : s.receiver.pendingFrames = (stamp, head) :: rest)
include covered pending

theorem initialized_of_pending : s.receiver.nack.initialized = true := by
  by_contra fresh
  have empty := (covered.early (by simpa using fresh)).1
  rw [pending] at empty
  cases empty

omit pending in
/-- The oldest frame goes, or keeps its numbers, and is not delivered. -/
theorem Covered.held {receiver : Receiver P} (worker : Worker)
    (spanned : ∀ e ∈ receiver.pendingFrames, e.2.isComplete = true → Spanned e.2)
    (frames : deliveredFrames receiver.history = deliveredFrames s.receiver.history)
    (tracks : receiver.nack.Tracks s.received) (initialized : receiver.nack.initialized = true)
    (watches : receiver.awaitingKeyframe = true ∨
      receiver.awaitingKeyframe = s.receiver.awaitingKeyframe ∧ receiver.nack = s.receiver.nack) :
    Covered { s with receiver, worker } := by
  refine covered.grow (List.Subset.refl _) tracks covered.came spanned frames ?_ ?_
  · intro fresh
    rw [initialized] at fresh
    cases fresh
  · intro _ calm current
    rcases watches with awaiting | ⟨awaiting, nack⟩
    · rw [awaiting] at current
      cases current
    · refine ⟨awaiting.symm.trans current, calm, ?_⟩
      intro last _ watches
      rw [nack]
      exact watches

/-- The oldest frame is delivered. -/
theorem Covered.deliver {receiver : Receiver P} (worker : Worker) {first last : Int}
    (isLast : head.lastSequenceNumber = some last) (isFirst : head.firstSequenceNumber = some first)
    (frames : receiver.pendingFrames = rest)
    (history : receiver.history = s.receiver.history ++ [.delivered stamp head])
    (tracks : receiver.nack.Tracks s.received) (initialized : receiver.nack.initialized = true)
    (noGap : head.isKeyframe = false → ∀ l ∈ s.lastNumber, ∀ n, l < n → n < first → n ∈ s.received)
    (watches : (∀ i ∈ s.insertions, i.overflowed = false) → receiver.nack.Watches s.received last) :
    Covered { s with receiver, worker } := by
  have delivered : deliveredFrames receiver.history = deliveredFrames s.receiver.history ++ [head] := by
    rw [history, deliveredFrames, List.filterMap_append]
    rfl
  have number : ({ s with receiver, worker } : System P).lastNumber = some last := by
    simp [lastNumber, delivered, isLast]
  refine ⟨tracks, covered.came, ?_, ?_, ?_, ?_⟩
  · intro e member
    rw [frames] at member
    exact covered.spanned e (pending ▸ List.mem_cons_of_mem _ member)
  · intro fresh
    rw [initialized] at fresh
    cases fresh
  · intro calm l isWatched
    have isNumber := (mem_watched.mp isWatched).2
    rw [number] at isNumber
    cases isNumber
    exact watches calm
  · unfold NoHole
    rw [delivered, List.isChain_append]
    refine ⟨covered.noHole, List.IsChain.singleton _, ?_⟩
    intro f isBefore f' isHead delta l ends x begins n after before
    cases isHead
    have same : x = first := Option.some.inj (begins.symm.trans isFirst)
    have isNumber : s.lastNumber = some l := by
      rw [lastNumber, Option.mem_def.mp isBefore]
      exact ends
    exact noGap delta l isNumber n after (same ▸ before)

omit covered in
theorem ready_of_verdict {timing : FrameRecoveryTiming} {nowMs : Int}
    (verdict : s.receiver.judge timing nowMs stamp head rest = .deliver ∨
      s.receiver.judge timing nowMs stamp head rest = .deliverKeyframe) : s.ready = some head := by
  unfold ready
  rw [pending]
  simp only [Receiver.judge] at verdict
  split_ifs at verdict with older newer key delta complete <;> simp only [or_self] at verdict
  all_goals simp_all

omit covered pending in
@[simp] theorem markFrameDiscarded_nack (r : Receiver P) (stamp : Int) :
    (r.markFrameDiscarded stamp).nack = r.nack := by
  unfold Receiver.markFrameDiscarded
  split
  · rfl
  · split <;> rfl

variable (window : ∀ x ∈ s.numbers, ∀ y ∈ s.numbers, Near 16 x y)
include window

theorem clearNacksUpTo_spec :
    let receiver := s.receiver.clearNacksUpTo head.lastSequenceNumber
    receiver.nack.Tracks s.received ∧ receiver.nack.initialized = true := by
  have started := initialized_of_pending covered pending
  unfold Receiver.clearNacksUpTo
  cases ends : head.lastSequenceNumber with
  | none => exact ⟨covered.tracks, started⟩
  | some last =>
    have alive := mem_numbers_pending (pending ▸ List.mem_cons_self) ends
    exact ⟨(NackRequester.clearUpTo_spec covered.tracks (window_cons window alive)).1, started⟩

/-- A key frame that was waited for: what is lost after it is in the list. -/
theorem Covered.deliverKeyframe (timing : FrameRecoveryTiming) (complete : head.isComplete = true)
    (key : head.isKeyframe = true)
    (watchful : ∀ last ∈ head.lastSequenceNumber, s.receiver.nack.Watches s.received last) :
    Covered { s with
      receiver := s.receiver.execute stamp head rest .deliverKeyframe, worker := .looping timing } := by
  have spanned : Spanned head := covered.spanned (stamp, head) (pending ▸ List.mem_cons_self) complete
  obtain ⟨first, last, isFirst, isLast, _⟩ := spanned
  have alive := mem_numbers_pending (pending ▸ List.mem_cons_self) isLast
  have cleared := (NackRequester.clearUpTo_spec covered.tracks (window_cons window alive)).2
  obtain ⟨tracks, started⟩ := clearNacksUpTo_spec covered pending window
  refine covered.deliver pending (.looping timing) isLast isFirst rfl rfl tracks started ?_ ?_
  · intro delta
    rw [key] at delta
    cases delta
  · intro _
    simp only [Receiver.execute, Receiver.clearNacksUpTo, isLast]
    exact cleared last le_rfl (watchful last isLast)

/-- A frame in its turn: a loss before it would be in the list and hold it up. -/
theorem Covered.deliverInTurn (timing : FrameRecoveryTiming) (complete : head.isComplete = true)
    (current : s.receiver.awaitingKeyframe = false) (free : s.receiver.hasBlockingNacks head = false)
    (numbered : ∀ last ∈ s.lastNumber, ∀ first ∈ head.firstSequenceNumber, last < first)
    (seen : head.isKeyframe = false → ∀ last ∈ s.watched, (∀ i ∈ s.insertions, i.overflowed = false) ∧
      ∀ first ∈ head.firstSequenceNumber, ∀ n, max last s.receiver.nack.newestSeqNum < n → n < first →
        n ∈ s.received)
    (watchful : s.watched = none →
      ∀ last ∈ head.lastSequenceNumber, s.receiver.nack.Watches s.received last) :
    Covered { s with
      receiver := s.receiver.execute stamp head rest .deliver, worker := .looping timing } := by
  have spanned : Spanned head := covered.spanned (stamp, head) (pending ▸ List.mem_cons_self) complete
  obtain ⟨first, last, isFirst, isLast, order⟩ := spanned
  have alive := mem_numbers_pending (pending ▸ List.mem_cons_self) isLast
  have later := NackRequester.not_mem_of_not_pending covered.tracks (window_cons window alive)
    (by simpa [Receiver.hasBlockingNacks, isLast] using free)
  refine covered.deliver pending (.looping timing) isLast isFirst rfl rfl covered.tracks
    (initialized_of_pending covered pending) ?_ ?_
  · intro delta l isNumber n after before
    have isWatched := mem_watched.mpr ⟨current, isNumber⟩
    obtain ⟨calm, beyond⟩ := seen delta l isWatched
    by_cases newer : s.receiver.nack.newestSeqNum < n
    · exact beyond first isFirst n (by omega) before
    · rcases covered.watches calm l isWatched n after (by omega) with there | ⟨e, member, rfl⟩
      · exact there
      · have := later e member
        omega
  · intro calm
    cases isWatched : s.watched with
    | none => exact watchful isWatched last isLast
    | some l =>
      have isNumber := (mem_watched.mp isWatched).2
      have := numbered l isNumber first isFirst
      exact (covered.watches calm l isWatched).mono (List.Subset.refl _) (by omega)

theorem Covered.turn (timing : FrameRecoveryTiming) {now : Int} (numbered : s.Numbered (.turn now))
    (watchful : s.Watchful (.turn now)) :
    let verdict := s.receiver.judge timing (roundMs now) stamp head rest
    Covered { s with
      receiver := s.receiver.execute stamp head rest verdict, worker := workerAfter timing stamp verdict } := by
  have started := initialized_of_pending covered pending
  have others : ∀ e ∈ rest, e.2.isComplete = true → Spanned e.2 := fun e member =>
    covered.spanned e (pending ▸ List.mem_cons_of_mem _ member)
  have marked : ∀ f : PendingFrame, (f.isComplete = true → Spanned f) →
      ∀ e ∈ (stamp, f) :: rest, e.2.isComplete = true → Spanned e.2 := by
    intro f spanned e member
    rcases List.mem_cons.mp member with rfl | later
    · exact spanned
    · exact others e later
  have first : head.isComplete = true → Spanned head :=
    covered.spanned (stamp, head) (pending ▸ List.mem_cons_self)
  have silent : ∀ timedOut, deliveredFrames (s.receiver.history ++ [.removed stamp timedOut]) =
      deliveredFrames s.receiver.history := by
    intro timedOut
    simp [deliveredFrames]
  intro verdict
  cases judged : verdict with
  | olderThanDecoded | dropDelta =>
    exact covered.held _ others (silent false) covered.tracks started (.inr ⟨rfl, rfl⟩)
  | newerKeyframe => exact covered.held _ others (silent false) covered.tracks started (.inl rfl)
  | timeout =>
    obtain ⟨tracks, initialized⟩ := clearNacksUpTo_spec covered pending window
    refine covered.held _ others (silent true) ?_ ?_ (.inl rfl)
    · simpa [Receiver.execute] using tracks
    · simpa [Receiver.execute] using initialized
  | escalate => exact covered.held _ (marked _ first) rfl covered.tracks started (.inr ⟨rfl, rfl⟩)
  | requestFir => exact covered.held _ (marked _ first) rfl covered.tracks started (.inr ⟨rfl, rfl⟩)
  | wait => exact covered.held _ covered.spanned rfl covered.tracks started (.inr ⟨rfl, rfl⟩)
  | deliverKeyframe =>
    have isReady := ready_of_verdict pending (.inr judged)
    obtain ⟨complete, key⟩ := judge_deliverKeyframe judged
    have unwatched : s.watched = none := by simp [watched, judge_awaited judged]
    exact covered.deliverKeyframe pending window timing complete key ((watchful head isReady).2 unwatched)
  | deliver =>
    have isReady := ready_of_verdict pending (.inl judged)
    obtain ⟨complete, current, free⟩ := judge_deliver judged
    obtain ⟨seen, unseen⟩ := watchful head isReady
    exact covered.deliverInTurn pending window timing complete current free (numbered.2 head isReady) seen unseen

end Turn

/-! ### Whole runs -/

theorem Covered.moves {cfg : Config P} (rtx : cfg.rtxEnabled = true) {a : Action} (covered : s.Covered)
    (numbered : s.Numbered a) (watchful : s.Watchful a) (moved : s.Moves cfg a t) : t.Covered := by
  unfold Moves at moved
  cases a with
  | arrive media recovered =>
    simp only [step] at moved
    split at moved
    · cases moved
      exact covered
    · rename_i starts
      cases moved
      exact covered.arrive starts
  | region index wait now =>
    simp only [step] at moved
    split at moved
    · cases moved
    · rename_i i here
      split at moved
      · cases moved
      · cases moved
        exact covered.advance numbered.1 rtx here (watchful i here) wait now
  | processNacks now =>
    cases moved
    rw [if_pos rtx]
    have numbers := s.receiver.nack.getNackBatch_numbers .timeOnly now
    exact covered.setNack (covered.tracks.of_same numbers rfl rfl rfl) rfl
      fun last _ watches => watches.of_same numbers rfl
  | nackBatchSent batch successful now =>
    cases moved
    obtain ⟨tracks, kept⟩ := NackRequester.onNackBatchSent_spec covered.tracks batch successful now
    exact covered.setNack tracks rfl fun last isWatched => kept last (watchful last isWatched)
  | rttUpdate rttMs =>
    cases moved
    rw [if_pos rtx]
    obtain ⟨rtt, sampled, same⟩ := s.receiver.nack.updateRtt_eq rttMs
    rw [same]
    exact covered.setNack ⟨covered.tracks.sorted, covered.tracks.below, covered.tracks.recovered⟩ rfl
      fun last _ watches => watches.of_same rfl rfl
  | requestKeyFrame =>
    cases moved
    exact covered.requestKeyFrame covered.came fun fresh => (covered.early fresh).2.2
  | tick =>
    simp only [step] at moved
    split at moved
    · cases moved
      exact covered.of_same s.receiver.assembly _
    · cases moved
  | turn now =>
    simp only [step] at moved
    split at moved
    · split at moved
      · cases moved
        exact covered.of_same s.receiver.assembly _
      · rename_i pending
        cases moved
        exact covered.turn pending numbered.1 _ numbered watchful
    · cases moved
  | drop =>
    simp only [step] at moved
    split at moved
    · split at moved
      · cases moved
      · cases moved
        exact covered.of_same _ _
    · cases moved

end System

end MiniRtc.Video
