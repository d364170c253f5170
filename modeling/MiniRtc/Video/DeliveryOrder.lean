import MiniRtc.Video.Delivery
import MiniRtc.Video.H264

/-! Frames are delivered in order, after a gap only from a key frame on, and never after
they were given up. The window of half the timestamp range is what makes the comparison of
residues an order. -/
namespace MiniRtc.Video
open Wrapping Rtp Runs

variable {P : Type}

/-! ### Reading the history -/

def deliveredStamps (history : List Event) : List Int :=
  history.filterMap fun
    | .delivered t _ => some t
    | _ => none

/-- Does an event call for a key frame? A removed frame does if it is newer than the last
delivered one. -/
def Demands (before : List Event) : Event → Prop
  | .keyFrameRequested => True
  | .removed t _ => ∀ d, (deliveredStamps before).getLast? = some d → d < t
  | _ => False

/-- A key frame was called for since the last delivery. -/
def Owed (history : List Event) : Prop :=
  ∃ before e after, history = before ++ e :: after ∧ Demands before e ∧ deliveredStamps after = []

/-- Whenever a key frame was called for, the next delivered frame is one. -/
def Gated (history : List Event) : Prop :=
  ∀ before t f after, history = before ++ .delivered t f :: after → Owed before →
    f.isComplete = true ∧ f.isKeyframe = true

/-- No timestamp up to the given one was given up among the first events. -/
def NotGivenUp (history : List Event) (begun : Nat) (stamp : Int) : Prop :=
  begun ≤ history.length ∧ ∀ t, .removed t true ∈ history.take begun → t < stamp

theorem deliveredStamps_append (h k : List Event) :
    deliveredStamps (h ++ k) = deliveredStamps h ++ deliveredStamps k :=
  List.filterMap_append

theorem append_singleton_eq {α : Type} {h before after : List α} {e x : α}
    (split : h ++ [e] = before ++ x :: after) :
    (after = [] ∧ before = h ∧ x = e) ∨ ∃ rest, after = rest ++ [e] ∧ h = before ++ x :: rest := by
  rcases List.eq_nil_or_concat after with rfl | ⟨rest, last, rfl⟩
  · have := List.append_inj' split rfl
    simp only [List.cons.injEq, and_true] at this
    exact .inl ⟨rfl, this.1.symm, this.2.symm⟩
  · have parts : h ++ [e] = (before ++ x :: rest) ++ [last] := by simpa using split
    have := List.append_inj' parts rfl
    simp only [List.cons.injEq, and_true] at this
    exact .inr ⟨rest, by simp [this.2], this.1⟩

theorem owed_append {h : List Event} {e : Event} (owed : Owed (h ++ [e])) :
    Demands h e ∨ (Owed h ∧ deliveredStamps [e] = []) := by
  obtain ⟨before, x, after, split, demands, none⟩ := owed
  rcases append_singleton_eq split with ⟨rfl, rfl, rfl⟩ | ⟨rest, rfl, rfl⟩
  · exact .inl demands
  · rw [deliveredStamps_append, List.append_eq_nil_iff] at none
    exact .inr ⟨⟨before, x, rest, rfl, demands, none.1⟩, none.2⟩

theorem Gated.append {h : List Event} (gated : Gated h) {e : Event}
    (last : ∀ t f, e = .delivered t f → Owed h → f.isComplete = true ∧ f.isKeyframe = true) :
    Gated (h ++ [e]) := by
  intro before t f after split owed
  rcases append_singleton_eq split with ⟨rfl, rfl, same⟩ | ⟨rest, rfl, rfl⟩
  · exact last t f same.symm owed
  · exact gated before t f rest rfl owed

theorem NotGivenUp.append {h : List Event} {begun : Nat} {stamp : Int}
    (fresh : NotGivenUp h begun stamp) (k : List Event) : NotGivenUp (h ++ k) begun stamp := by
  obtain ⟨inside, none⟩ := fresh
  refine ⟨by rw [List.length_append]; omega, ?_⟩
  rwa [List.take_append_of_le_length inside]

/-! ### Order and gating -/

structure InOrder (r : Receiver P) : Prop where
  increasing : (deliveredStamps r.history).Pairwise (· < ·)
  last : (deliveredStamps r.history).getLast? = r.lastCompleteFrameTs
  owed : Owed r.history → r.awaitingKeyframe = true
  gated : Gated r.history

namespace InOrder

variable {r r' : Receiver P} (inOrder : InOrder r)
include inOrder

/-- An event that is not a delivery. -/
theorem append {e : Event} (complete : r'.lastCompleteFrameTs = r.lastCompleteFrameTs)
    (history : r'.history = r.history ++ [e]) (silent : deliveredStamps [e] = [])
    (awaiting : Demands r.history e ∨ r.awaitingKeyframe = true → r'.awaitingKeyframe = true) :
    InOrder r' := by
  have same : deliveredStamps r'.history = deliveredStamps r.history := by
    rw [history, deliveredStamps_append, silent, List.append_nil]
  refine ⟨same ▸ inOrder.increasing, ?_, ?_, ?_⟩
  · rw [same, complete, inOrder.last]
  · intro owed
    rw [history] at owed
    rcases owed_append owed with demands | ⟨earlier, _⟩
    · exact awaiting (.inl demands)
    · exact awaiting (.inr (inOrder.owed earlier))
  · rw [history]
    apply inOrder.gated.append
    rintro t f rfl
    simp [deliveredStamps] at silent

/-- A delivery. -/
theorem deliver {stamp : Int} {frame : PendingFrame} (complete : r'.lastCompleteFrameTs = some stamp)
    (history : r'.history = r.history ++ [.delivered stamp frame])
    (newer : ∀ t, r.lastCompleteFrameTs = some t → t < stamp)
    (key : r.awaitingKeyframe = true → frame.isComplete = true ∧ frame.isKeyframe = true) :
    InOrder r' := by
  have more : deliveredStamps r'.history = deliveredStamps r.history ++ [stamp] := by
    rw [history, deliveredStamps_append]
    rfl
  refine ⟨?_, ?_, ?_, ?_⟩
  · rw [more, List.pairwise_append]
    refine ⟨inOrder.increasing, List.pairwise_singleton .., ?_⟩
    intro x member y single
    rw [List.mem_singleton.mp single]
    obtain ⟨before, last, split⟩ := (List.eq_nil_or_concat (deliveredStamps r.history)).resolve_left
      (List.ne_nil_of_mem member)
    have top : last < stamp := newer last (by rw [← inOrder.last, split]; simp)
    have increasing := inOrder.increasing
    rw [split, List.concat_eq_append] at increasing member
    rcases List.mem_append.mp member with earlier | same
    · exact lt_trans ((List.pairwise_append.mp increasing).2.2 x earlier last (by simp)) top
    · rw [List.mem_singleton.mp same]
      exact top
  · rw [more, complete]
    simp
  · intro owed
    rw [history] at owed
    rcases owed_append owed with demands | ⟨_, silent⟩
    · exact demands.elim
    · simp [deliveredStamps] at silent
  · rw [history]
    apply inOrder.gated.append
    rintro t f ⟨⟩ owed
    exact key (inOrder.owed owed)

end InOrder

theorem mem_stamps_pending {s : System P} {e : Int × PendingFrame}
    (member : e ∈ s.receiver.pendingFrames) : e.1 ∈ s.stamps := by
  simp only [System.stamps, List.mem_append, List.mem_map]
  exact .inl (.inl (.inl ⟨e, member, rfl⟩))

theorem mem_stamps_insertion {s : System P} {i : Insertion P} (member : i ∈ s.insertions) :
    i.media.stamp ∈ s.stamps := by
  simp only [System.stamps, List.mem_append, List.mem_map]
  exact .inr ⟨i, member, rfl⟩

theorem mem_stamps_complete {s : System P} {t : Int} (complete : s.receiver.lastCompleteFrameTs = some t) :
    t ∈ s.stamps := by
  simp [System.stamps, complete]

theorem mem_stamps_discarded {s : System P} {t : Int}
    (discarded : s.receiver.lastDiscardedFrameTs = some t) : t ∈ s.stamps := by
  simp [System.stamps, discarded]

section Window

variable {s : System P} (window : s.InWindow)
include window

/-- In the window the test on residues is the order of the timestamps. -/
theorem isOlderThanDecodedFrame_iff {stamp : Int} (alive : stamp ∈ s.stamps) :
    s.receiver.isOlderThanDecodedFrame stamp = true ↔
      ∃ t, s.receiver.lastCompleteFrameTs = some t ∧ stamp ≤ t := by
  unfold Receiver.isOlderThanDecodedFrame
  cases complete : s.receiver.lastCompleteFrameTs with
  | none => simp
  | some t =>
    have near := window stamp alive t (mem_stamps_complete complete)
    simp [aheadOf_ofInt_eq_false (by decide : 0 < 32) near]

theorem newer_of_judged {timing : FrameRecoveryTiming} {nowMs stamp : Int} {head : PendingFrame}
    {rest : List (Int × PendingFrame)} (alive : stamp ∈ s.stamps)
    (verdict : s.receiver.judge timing nowMs stamp head rest ≠ .olderThanDecoded) :
    ∀ t, s.receiver.lastCompleteFrameTs = some t → t < stamp := by
  intro t complete
  by_contra behind
  exact verdict (System.judge_older.mpr ((isOlderThanDecodedFrame_iff window alive).mpr
    ⟨t, complete, by omega⟩))

theorem inOrder_change {r : Receiver P} (inOrder : InOrder s.receiver) (change : s.Change r) :
    InOrder r := by
  cases change with
  | quiet assembly nack => exact ⟨inOrder.increasing, inOrder.last, inOrder.owed, inOrder.gated⟩
  | requested => exact inOrder.append rfl rfl rfl fun _ => rfl
  | stored i entry assembly committed member begun =>
    cases committed with
    | none =>
      have history : s.receiver.history ++ ((none : Option CompleteFrame).map
        (Event.committed i.media.stamp)).toList = s.receiver.history := List.append_nil _
      rw [history]
      exact ⟨inOrder.increasing, inOrder.last, inOrder.owed, inOrder.gated⟩
    | some f =>
      refine inOrder.append rfl rfl rfl ?_
      rintro (demands | awaiting)
      · exact demands.elim
      · exact awaiting
  | turned timing nowMs stamp head rest here =>
    have alive : stamp ∈ s.stamps := mem_stamps_pending (here ▸ List.mem_cons_self)
    cases verdict : s.receiver.judge timing nowMs stamp head rest with
    | olderThanDecoded =>
      obtain ⟨t, complete, behind⟩ :=
        (isOlderThanDecodedFrame_iff window alive).mp (System.judge_older.mp verdict)
      refine inOrder.append rfl rfl rfl ?_
      rintro (demands | awaiting)
      · have := demands t (inOrder.last.trans complete)
        omega
      · exact awaiting
    | newerKeyframe => exact inOrder.append rfl rfl rfl fun _ => rfl
    | dropDelta => exact inOrder.append rfl rfl rfl fun _ => System.judge_dropDelta verdict
    | timeout =>
      refine inOrder.append ?_ rfl rfl fun _ => rfl
      simp only [Receiver.execute, Receiver.markFrameDiscarded, Receiver.clearNacksUpTo]
      repeat' split
      all_goals rfl
    | deliverKeyframe =>
      have newer := newer_of_judged window alive (by rw [verdict]; decide)
      exact inOrder.deliver rfl rfl newer fun _ => System.judge_deliverKeyframe verdict
    | deliver =>
      have newer := newer_of_judged window alive (by rw [verdict]; decide)
      refine inOrder.deliver rfl rfl newer ?_
      intro awaiting
      cases (System.judge_deliver verdict).2.1.symm.trans awaiting
    | escalate => exact ⟨inOrder.increasing, inOrder.last, inOrder.owed, inOrder.gated⟩
    | requestFir => exact ⟨inOrder.increasing, inOrder.last, inOrder.owed, inOrder.gated⟩
    | wait => exact ⟨inOrder.increasing, inOrder.last, inOrder.owed, inOrder.gated⟩

end Window

/-! ### Given up frames -/

/-- What was given up is not in flight and not pending, unless an insertion had passed the
test before. -/
structure StaysGivenUp (r : Receiver P) (insertions : List (Insertion P)) : Prop where
  discarded : ∀ t, .removed t true ∈ r.history → ∃ d, r.lastDiscardedFrameTs = some d ∧ t ≤ d
  inFlight : ∀ i ∈ insertions, NotGivenUp r.history i.begun i.media.stamp
  pending : ∀ e ∈ r.pendingFrames, NotGivenUp r.history e.2.begun e.1
  delivered : ∀ t f, .delivered t f ∈ r.history → NotGivenUp r.history f.begun t

theorem notGivenUp_zero (history : List Event) (stamp : Int) : NotGivenUp history 0 stamp :=
  ⟨Nat.zero_le _, by simp⟩

theorem mem_storeIn {stamp : Int} {entry : PendingFrame} {l : List (Int × PendingFrame)}
    {e : Int × PendingFrame} (member : e ∈ Receiver.storeIn stamp entry l) :
    e ∈ l ∨ e.2 = entry ∧ (e.1 = stamp ∨ ∃ e' ∈ l, e'.1 = e.1 ∧ rtp e'.1 = rtp stamp) := by
  induction l with
  | nil =>
    rw [Receiver.storeIn, List.mem_singleton] at member
    rw [member]
    exact .inr ⟨rfl, .inl rfl⟩
  | cons f rest ih =>
    rw [Receiver.storeIn] at member
    split at member
    · rename_i same
      rcases List.mem_cons.mp member with rfl | later
      · exact .inr ⟨rfl, .inr ⟨f, by simp, rfl, same⟩⟩
      · exact .inl (List.mem_cons_of_mem _ later)
    · split at member
      · rcases List.mem_cons.mp member with rfl | later
        · exact .inr ⟨rfl, .inl rfl⟩
        · exact .inl later
      · rcases List.mem_cons.mp member with rfl | later
        · exact .inl List.mem_cons_self
        · rcases ih later with there | ⟨new, place⟩
          · exact .inl (List.mem_cons_of_mem _ there)
          · refine .inr ⟨new, place.imp_right ?_⟩
            rintro ⟨e', there, same⟩
            exact ⟨e', List.mem_cons_of_mem _ there, same⟩

theorem find_eq_some {r : Receiver P} {stamp : Int} {entry : PendingFrame}
    (found : r.find stamp = some entry) :
    ∃ e ∈ r.pendingFrames, e.2 = entry ∧ rtp e.1 = rtp stamp := by
  unfold Receiver.find at found
  obtain ⟨e, here, rfl⟩ := Option.map_eq_some_iff.mp found
  exact ⟨e, List.mem_of_find?_eq_some here, rfl, by simpa using List.find?_some here⟩

section Window

variable {s : System P} (window : s.InWindow)
include window

theorem stamp_eq_of_residue {i : Insertion P} {e : Int × PendingFrame} (member : i ∈ s.insertions)
    (there : e ∈ s.receiver.pendingFrames) (same : rtp e.1 = rtp i.media.stamp) : e.1 = i.media.stamp :=
  (ofInt_inj_of_near (by decide : 0 < 32)
    (window _ (mem_stamps_pending there) _ (mem_stamps_insertion member))).mp same

/-- Past the test a timestamp is newer than all that were given up. -/
theorem newer_of_not_obsolete {stamp : Int} (alive : stamp ∈ s.stamps)
    (current : s.receiver.isFrameTimestampObsolete stamp = false) :
    ∀ d, s.receiver.lastDiscardedFrameTs = some d → d < stamp := by
  intro d discarded
  have near := window stamp alive d (mem_stamps_discarded discarded)
  simp only [Receiver.isFrameTimestampObsolete, discarded, Bool.or_eq_false_iff, Bool.not_eq_false'] at current
  exact (aheadOf_ofInt (by decide : 0 < 32) near).mp current.2

variable (staysGivenUp : StaysGivenUp s.receiver s.insertions)
include staysGivenUp

theorem notGivenUp_descends {i : Insertion P} (descends : s.Descends i) :
    NotGivenUp s.receiver.history i.begun i.media.stamp := by
  cases descends with
  | arrived begun =>
    rw [begun]
    exact notGivenUp_zero ..
  | went j member media begun =>
    rw [begun, media]
    exact staysGivenUp.inFlight j member
  | checked j member media begun current =>
    rw [begun, media]
    refine ⟨le_rfl, ?_⟩
    rw [List.take_length]
    intro t removed
    obtain ⟨d, discarded, before⟩ := staysGivenUp.discarded t removed
    have := newer_of_not_obsolete window (mem_stamps_insertion member) current d discarded
    omega

theorem notGivenUp_stored {i : Insertion P} (member : i ∈ s.insertions) {entry : PendingFrame}
    (begun : entry.begun = i.begun ∨ entry.begun = ((s.receiver.find i.media.stamp).getD {}).begun) :
    ∀ e ∈ Receiver.storeIn i.media.stamp entry s.receiver.pendingFrames,
      NotGivenUp s.receiver.history e.2.begun e.1 := by
  have fresh : NotGivenUp s.receiver.history entry.begun i.media.stamp := by
    rcases begun with same | kept
    · rw [same]
      exact staysGivenUp.inFlight i member
    · rw [kept]
      cases found : s.receiver.find i.media.stamp with
      | none => exact notGivenUp_zero ..
      | some old =>
        obtain ⟨e, there, rfl, same⟩ := find_eq_some found
        have := staysGivenUp.pending e there
        rwa [stamp_eq_of_residue window member there same] at this
  intro e stored
  rcases mem_storeIn stored with old | ⟨rfl, same | ⟨e', there, same, residue⟩⟩
  · exact staysGivenUp.pending e old
  · rw [same]
    exact fresh
  · rw [← same, stamp_eq_of_residue window member there residue]
    exact fresh

/-- The history grows, what it says about frames stays. -/
theorem StaysGivenUp.grow {r : Receiver P} {insertions : List (Insertion P)} (events : List Event)
    (history : r.history = s.receiver.history ++ events)
    (kept : ∀ d, s.receiver.lastDiscardedFrameTs = some d →
      ∃ d', r.lastDiscardedFrameTs = some d' ∧ d ≤ d')
    (removed : ∀ t, .removed t true ∈ events → ∃ d, r.lastDiscardedFrameTs = some d ∧ t ≤ d)
    (pending : ∀ e ∈ r.pendingFrames, NotGivenUp s.receiver.history e.2.begun e.1)
    (delivered : ∀ t f, .delivered t f ∈ events → NotGivenUp s.receiver.history f.begun t)
    (descends : ∀ i ∈ insertions, s.Descends i) : StaysGivenUp r insertions := by
  refine ⟨?_, ?_, ?_, ?_⟩
  · intro t member
    rw [history] at member
    rcases List.mem_append.mp member with old | new
    · obtain ⟨d, discarded, before⟩ := staysGivenUp.discarded t old
      obtain ⟨d', discarded', later⟩ := kept d discarded
      exact ⟨d', discarded', by omega⟩
    · exact removed t new
  · intro i member
    rw [history]
    exact (notGivenUp_descends window staysGivenUp (descends i member)).append events
  · intro e member
    rw [history]
    exact (pending e member).append events
  · intro t f member
    rw [history] at member ⊢
    rcases List.mem_append.mp member with old | new
    · exact (staysGivenUp.delivered t f old).append events
    · exact (delivered t f new).append events

omit staysGivenUp in
/-- The mark of a hard timeout only moves forward. -/
theorem markFrameDiscarded_mono {r : Receiver P}
    (same : r.lastDiscardedFrameTs = s.receiver.lastDiscardedFrameTs) {stamp : Int}
    (alive : stamp ∈ s.stamps) : ∃ d, (r.markFrameDiscarded stamp).lastDiscardedFrameTs = some d ∧
      stamp ≤ d ∧ ∀ d', s.receiver.lastDiscardedFrameTs = some d' → d' ≤ d := by
  unfold Receiver.markFrameDiscarded
  rw [same]
  cases discarded : s.receiver.lastDiscardedFrameTs with
  | none => exact ⟨stamp, rfl, le_rfl, by simp⟩
  | some t =>
    have near := window stamp alive t (mem_stamps_discarded discarded)
    cases ahead : aheadOf (rtp stamp) (rtp t) with
    | true =>
      have later := (aheadOf_ofInt (by decide : 0 < 32) near).mp ahead
      exact ⟨stamp, by simp [ahead], le_rfl, by rintro d' ⟨⟩; omega⟩
    | false =>
      have earlier := (aheadOf_ofInt_eq_false (by decide : 0 < 32) near).mp ahead
      exact ⟨t, by simp [ahead, same, discarded], earlier, by rintro d' ⟨⟩; exact le_rfl⟩

theorem staysGivenUp_change {r : Receiver P} {insertions : List (Insertion P)} (change : s.Change r)
    (descends : ∀ i ∈ insertions, s.Descends i) : StaysGivenUp r insertions := by
  have same : ∀ d, s.receiver.lastDiscardedFrameTs = some d →
      ∃ d', s.receiver.lastDiscardedFrameTs = some d' ∧ d ≤ d' := fun d here => ⟨d, here, le_rfl⟩
  cases change with
  | quiet assembly nack =>
    exact StaysGivenUp.grow window staysGivenUp [] (List.append_nil _).symm same (by simp)
      staysGivenUp.pending (by simp) descends
  | requested =>
    exact StaysGivenUp.grow window staysGivenUp [.keyFrameRequested] rfl same (by simp)
      staysGivenUp.pending (by simp) descends
  | stored i entry assembly committed member begun =>
    refine StaysGivenUp.grow window staysGivenUp _ rfl same ?_
      (notGivenUp_stored window staysGivenUp member begun) ?_ descends
    · cases committed <;> simp
    · cases committed <;> simp
  | turned timing nowMs stamp head rest here =>
    have alive : stamp ∈ s.stamps := mem_stamps_pending (here ▸ List.mem_cons_self)
    have first : NotGivenUp s.receiver.history head.begun stamp :=
      staysGivenUp.pending (stamp, head) (here ▸ List.mem_cons_self)
    have others : ∀ e ∈ rest, NotGivenUp s.receiver.history e.2.begun e.1 := fun e member =>
      staysGivenUp.pending e (here ▸ List.mem_cons_of_mem _ member)
    cases s.receiver.judge timing nowMs stamp head rest with
    | olderThanDecoded | newerKeyframe | dropDelta =>
      exact StaysGivenUp.grow window staysGivenUp [.removed stamp false] rfl same (by simp) others (by simp)
        descends
    | timeout =>
      have cleared : (s.receiver.clearNacksUpTo head.lastSequenceNumber).lastDiscardedFrameTs =
          s.receiver.lastDiscardedFrameTs := by
        unfold Receiver.clearNacksUpTo
        split <;> rfl
      obtain ⟨d, discarded, covers, forward⟩ := markFrameDiscarded_mono window cleared alive
      refine StaysGivenUp.grow window staysGivenUp [.removed stamp true] rfl ?_ ?_ others (by simp) descends
      · intro d' before
        exact ⟨d, discarded, forward d' before⟩
      · intro t member
        cases List.mem_singleton.mp member
        exact ⟨d, discarded, covers⟩
    | deliverKeyframe =>
      have cleared : (s.receiver.clearNacksUpTo head.lastSequenceNumber).lastDiscardedFrameTs =
          s.receiver.lastDiscardedFrameTs := by
        unfold Receiver.clearNacksUpTo
        split <;> rfl
      refine StaysGivenUp.grow window staysGivenUp [.delivered stamp head] rfl ?_ (by simp) others ?_ descends
      · intro d before
        exact ⟨d, cleared.trans before, le_rfl⟩
      · intro t f member
        cases List.mem_singleton.mp member
        exact first
    | deliver =>
      refine StaysGivenUp.grow window staysGivenUp [.delivered stamp head] rfl same (by simp) others ?_ descends
      intro t f member
      cases List.mem_singleton.mp member
      exact first
    | escalate | requestFir =>
      refine StaysGivenUp.grow window staysGivenUp [] (List.append_nil _).symm same (by simp) ?_ (by simp)
        descends
      intro e member
      rcases List.mem_cons.mp member with rfl | later
      · exact first
      · exact others e later
    | wait =>
      exact StaysGivenUp.grow window staysGivenUp [] (List.append_nil _).symm same (by simp)
        staysGivenUp.pending (by simp) descends

end Window

/-! ### Whole runs -/

/-- Deliveries of a run in the window: in order, gated, and none of a frame that was given up
before the insertion that completed it began. -/
structure DeliversInOrder (history : List Event) : Prop where
  increasing : (deliveredStamps history).Pairwise (· < ·)
  gated : Gated history
  givenUp : ∀ t f, .delivered t f ∈ history → .removed t true ∉ history.take f.begun

/-- The invariant of a run in the window. -/
structure System.Sound (s : System P) : Prop where
  inOrder : InOrder s.receiver
  staysGivenUp : StaysGivenUp s.receiver s.insertions

theorem System.sound_start : ({} : System P).Sound := by
  refine ⟨⟨List.Pairwise.nil, rfl, ?_, ?_⟩, ⟨by simp, by simp, by simp, by simp⟩⟩
  · rintro ⟨before, e, after, split, _⟩
    simp at split
  · intro before t f after split
    simp at split

theorem System.Sound.moves {cfg : Config P} {s t : System P} {a : Action} (sound : s.Sound)
    (window : s.InWindow) (moved : s.Moves cfg a t) : t.Sound := by
  obtain ⟨change, descends⟩ := System.moves_change moved
  exact ⟨inOrder_change window sound.inOrder change,
    staysGivenUp_change window sound.staysGivenUp change descends⟩

theorem delivers_in_order (cfg : Config P) (s : System P)
    (reachable : Reachable System.Starts (Guarded (fun s _ => s.InWindow) (System.Moves cfg)) s) :
    DeliversInOrder s.receiver.history := by
  have sound : s.Sound := by
    refine reachable.invariant ?_ ?_
    · rintro s rfl
      exact System.sound_start
    · rintro s t sound ⟨a, window, moved⟩
      exact sound.moves window moved
  refine ⟨sound.inOrder.increasing, sound.inOrder.gated, ?_⟩
  intro t f delivered removed
  exact lt_irrefl t ((sound.staysGivenUp.delivered t f delivered).2 t removed)

/-- A NAL unit of its own with a key frame, at a number and a timestamp. -/
def unitOf (number : BitVec 16) (timestamp : BitVec 32) : MediaPacket :=
  .sent ⟨.h264, 7, number, [], 1150, none⟩ true timestamp (RtpPacketizerH264.naluBody [0, 0, 1, 5])

/-- Two units that come in the other order are both delivered, the older one first. -/
theorem delivers_in_order_swapped : ∃ s : System RtpPacketH264,
    DeliversInOrder s.receiver.history ∧ deliveredStamps s.receiver.history = [5, 9] := by
  have ran : ∃ s, run (fun s _ => s.InWindow) (System.step ⟨h264, 7, 0⟩) {}
      [.arrive (unitOf 2 9) false, .region 0 0 0, .region 0 0 0, .arrive (unitOf 1 5) false, .region 0 0 0,
        .region 0 0 0, .tick, .turn 0, .turn 0] = some s ∧
      deliveredStamps s.receiver.history = [5, 9] := ⟨_, rfl, rfl⟩
  obtain ⟨s, here, delivered⟩ := ran
  exact ⟨s, delivers_in_order ⟨h264, 7, 0⟩ s (Reachable.run _ _ _ (.start rfl) here), delivered⟩

end MiniRtc.Video
