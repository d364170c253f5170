import MiniRtc.Video.System

/-! Which frames `Process` delivers, and in which order.
Every step changes the frame state in one of four ways (`Change`); what is delivered
depends on nothing else. -/
namespace MiniRtc.Video
open Wrapping Rtp Runs

variable {P : Type}

namespace System

/-- What a step can do to the frame state. -/
inductive Change (s : System P) : Receiver P → Prop where
  | quiet (assembly : Assembly P) (nack : NackRequester) :
      Change s { s.receiver with assembly, nack }
  | requested : Change s s.receiver.requestKeyFrame
  | stored (i : Insertion P) (entry : PendingFrame) (assembly : Assembly P)
      (committed : Option CompleteFrame) : i ∈ s.insertions →
      entry.begun = i.begun ∨ entry.begun = ((s.receiver.find i.media.stamp).getD {}).begun →
      Change s { s.receiver with
        assembly
        pendingFrames := Receiver.storeIn i.media.stamp entry s.receiver.pendingFrames
        history := s.receiver.history ++ (committed.map (Event.committed i.media.stamp)).toList }
  | turned (timing : FrameRecoveryTiming) (nowMs stamp : Int) (head : PendingFrame)
      (rest : List (Int × PendingFrame)) : s.receiver.pendingFrames = (stamp, head) :: rest →
      Change s (s.receiver.execute stamp head rest (s.receiver.judge timing nowMs stamp head rest))

/-- Where an insertion after a step comes from. -/
inductive Descends (s : System P) (i : Insertion P) : Prop where
  | arrived (begun : i.begun = 0)
  | went (j : Insertion P) (member : j ∈ s.insertions) (media : i.media = j.media)
      (begun : i.begun = j.begun)
  | checked (j : Insertion P) (member : j ∈ s.insertions) (media : i.media = j.media)
      (begun : i.begun = s.receiver.history.length)
      (current : s.receiver.isFrameTimestampObsolete j.media.stamp = false)

theorem tracked_begun (entry : PendingFrame) (number nowMs : Int) :
    (Receiver.tracked entry number nowMs).begun = entry.begun := by
  unfold Receiver.tracked
  simp only
  repeat' split
  all_goals rfl

section Change

variable {cfg : Config P} {s : System P}

theorem change_commit {i : Insertion P} (member : i ∈ s.insertions) (assembly : Assembly P)
    (f : CompleteFrame) (require : Bool) (nowMs : Int) :
    Change s ({ s.receiver with assembly }.commitPendingFrame i.media.stamp i.media.number f require
      i.begun nowMs) := by
  have found : ({ s.receiver with assembly } : Receiver P).find i.media.stamp =
    s.receiver.find i.media.stamp := rfl
  unfold Receiver.commitPendingFrame
  rw [found]
  cases s.receiver.find i.media.stamp with
  | none =>
    cases require with
    | true => exact .quiet assembly s.receiver.nack
    | false => exact .stored i _ assembly (some f) member (.inl rfl)
  | some entry => exact .stored i _ assembly (some f) member (.inl rfl)

theorem change_track {i : Insertion P} (member : i ∈ s.insertions) (assembly : Assembly P) (nowMs : Int) :
    Change s ({ s.receiver with assembly }.trackPendingFramePacket i.media.stamp i.media.number
      nowMs) := by
  have found : ({ s.receiver with assembly } : Receiver P).find i.media.stamp =
    s.receiver.find i.media.stamp := rfl
  have kept : (Receiver.tracked ((s.receiver.find i.media.stamp).getD {}) i.media.number nowMs).begun =
      ((s.receiver.find i.media.stamp).getD {}).begun := tracked_begun ..
  have stored := Change.stored i _ assembly none member (.inr kept)
  rw [Receiver.trackPendingFramePacket, found]
  simpa using stored

/-- One region of an insertion. -/
theorem change_advance {i : Insertion P} (member : i ∈ s.insertions) (wait : Nat) (now : Int) :
    Change s (advance cfg s.receiver i wait now).1 ∧
      ∀ next, (advance cfg s.receiver i wait now).2 = some next → Descends s next := by
  have after : ∀ (j next : Insertion P), j.media = i.media → afterNack cfg j = some next →
      next.media = i.media ∧ next.begun = j.begun := by
    intro j next media entered
    unfold afterNack at entered
    split at entered
    · cases entered
    · split at entered
      all_goals
        cases entered
        exact ⟨media, rfl⟩
  have quiet : Change s s.receiver := .quiet s.receiver.assembly s.receiver.nack
  unfold advance
  split
  · split
    · refine ⟨quiet, ?_⟩
      intro next entered
      split at entered
      · cases entered
        exact .went i member rfl rfl
      · cases entered
    · rename_i current
      refine ⟨quiet, ?_⟩
      intro next entered
      simp only at entered
      split at entered
      · cases entered
        exact .checked i member rfl rfl (by simpa using current)
      · obtain ⟨media, begun⟩ := after { i with begun := s.receiver.history.length } next rfl entered
        exact .checked i member media begun (by simpa using current)
  · exact ⟨.quiet s.receiver.assembly _, by rintro next ⟨⟩⟩
  · refine ⟨.quiet s.receiver.assembly _, ?_⟩
    intro next entered
    simp only at entered
    split at entered
    · cases entered
      exact .went i member rfl rfl
    · obtain ⟨media, begun⟩ := after i next rfl entered
      exact .went i member media begun
  · refine ⟨.requested, ?_⟩
    intro next entered
    obtain ⟨media, begun⟩ := after i next rfl entered
    exact .went i member media begun
  · exact ⟨.requested, by rintro next ⟨⟩⟩
  · split
    · exact ⟨change_commit member s.receiver.assembly _ _ _, by rintro next ⟨⟩⟩
    · refine ⟨change_track member _ _, ?_⟩
      rintro next ⟨⟩
      exact .went i member rfl rfl
    · exact ⟨quiet, by rintro next ⟨⟩⟩
  · simp only
    split
    · exact ⟨.quiet _ s.receiver.nack, by rintro next ⟨⟩⟩
    · exact ⟨change_commit member _ _ _ _, by rintro next ⟨⟩⟩

theorem mem_replace {insertions : List (Insertion P)} {index : Nat} {next : Option (Insertion P)}
    {i : Insertion P} (member : i ∈ replace insertions index next) : i ∈ insertions ∨ next = some i := by
  cases next with
  | none => exact .inl (List.mem_of_mem_eraseIdx member)
  | some j =>
    rcases List.mem_or_eq_of_mem_set member with there | rfl
    · exact .inl there
    · exact .inr rfl

theorem moves_change {a : Action} {t : System P} (moved : s.Moves cfg a t) :
    Change s t.receiver ∧ ∀ i ∈ t.insertions, Descends s i := by
  have quiet : Change s s.receiver := .quiet s.receiver.assembly s.receiver.nack
  have stay : ∀ i ∈ s.insertions, Descends s i := fun i member => .went i member rfl rfl
  unfold Moves at moved
  cases a with
  | arrive media recovered =>
    simp only [step] at moved
    split at moved
    · cases moved
      exact ⟨quiet, stay⟩
    · rename_i i started
      cases moved
      refine ⟨quiet, ?_⟩
      intro j member
      rcases List.mem_append.mp member with there | new
      · exact stay j there
      · refine .arrived ?_
        rw [List.mem_singleton.mp new]
        unfold startInsertion at started
        split at started
        · cases started
          rfl
        · split at started
          · cases started
            rfl
          · cases started
  | region index wait now =>
    simp only [step] at moved
    split at moved
    · cases moved
    · rename_i i here
      split at moved
      · cases moved
      · cases moved
        have present := List.mem_of_getElem? here
        obtain ⟨change, next⟩ := change_advance present wait now
        refine ⟨change, ?_⟩
        intro j member
        rcases mem_replace member with there | new
        · exact stay j there
        · exact next j new
  | processNacks now =>
    cases moved
    split
    · exact ⟨.quiet s.receiver.assembly _, stay⟩
    · exact ⟨quiet, stay⟩
  | nackBatchSent batch successful now =>
    cases moved
    exact ⟨.quiet s.receiver.assembly _, stay⟩
  | rttUpdate rttMs =>
    cases moved
    split
    · exact ⟨.quiet s.receiver.assembly _, stay⟩
    · exact ⟨quiet, stay⟩
  | requestKeyFrame =>
    cases moved
    exact ⟨.requested, stay⟩
  | tick =>
    simp only [step] at moved
    split at moved
    · cases moved
      exact ⟨quiet, stay⟩
    · cases moved
  | turn now =>
    simp only [step] at moved
    split at moved
    · split at moved
      · cases moved
        exact ⟨quiet, stay⟩
      · rename_i stamp head rest here
        cases moved
        exact ⟨.turned _ _ stamp head rest here, stay⟩
    · cases moved
  | drop =>
    simp only [step] at moved
    split at moved
    · split at moved
      · cases moved
      · cases moved
        exact ⟨.quiet _ s.receiver.nack, stay⟩
    · cases moved

end Change

/-! ### What the worker decides -/

section Judge

variable {r : Receiver P} {timing : FrameRecoveryTiming} {nowMs stamp : Int} {head : PendingFrame}
  {rest : List (Int × PendingFrame)}

theorem judge_older : r.judge timing nowMs stamp head rest = .olderThanDecoded ↔
    r.isOlderThanDecodedFrame stamp = true := by
  constructor
  · intro verdict
    simp only [Receiver.judge] at verdict
    split_ifs at verdict with older
    exact older
  · intro older
    simp only [Receiver.judge, older, if_true]

theorem judge_deliverKeyframe (verdict : r.judge timing nowMs stamp head rest = .deliverKeyframe) :
    head.isComplete = true ∧ head.isKeyframe = true := by
  simp only [Receiver.judge] at verdict
  split_ifs at verdict with _ _ complete
  simp only [Bool.and_eq_true] at complete
  exact ⟨complete.1.1, complete.2⟩

theorem judge_awaited (verdict : r.judge timing nowMs stamp head rest = .deliverKeyframe) :
    r.awaitingKeyframe = true := by
  simp only [Receiver.judge] at verdict
  split_ifs at verdict with _ _ complete
  simp only [Bool.and_eq_true] at complete
  exact complete.1.2

theorem judge_dropDelta (verdict : r.judge timing nowMs stamp head rest = .dropDelta) :
    r.awaitingKeyframe = true := by
  simp only [Receiver.judge] at verdict
  split_ifs at verdict with _ _ _ complete
  simp only [Bool.and_eq_true] at complete
  exact complete.2

theorem judge_deliver (verdict : r.judge timing nowMs stamp head rest = .deliver) :
    head.isComplete = true ∧ r.awaitingKeyframe = false ∧ r.hasBlockingNacks head = false := by
  simp only [Receiver.judge] at verdict
  split_ifs at verdict with _ _ _ waiting complete
  simp only [Bool.and_eq_true, Bool.not_eq_eq_eq_not, Bool.not_true] at complete
  simp only [complete.1, Bool.true_and, Bool.not_eq_true] at waiting
  exact ⟨complete.1, waiting, complete.2⟩

end Judge

end System

end MiniRtc.Video
