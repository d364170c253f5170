import MiniRtc.Video.DeliveryOrder
import MiniRtc.Video.NackWatch

/-! Delta frames and holes in the sequence numbers.
A delta frame is delivered across a hole only where the NACK list loses track of a loss:
the loss is too old or was asked for too often, the list ran over, or the frame or the
key frame before it lies where the list does not look. -/
namespace MiniRtc.Video
open Wrapping Rtp Runs

variable {P : Type}

def deliveredFrames (history : List Event) : List PendingFrame :=
  history.filterMap fun
    | .delivered _ f => some f
    | _ => none

/-- A key frame, or one before whose first packet nothing is missing. -/
def NoGap (received : List Int) (f f' : PendingFrame) : Prop :=
  f'.isKeyframe = false → ∀ last ∈ f.lastSequenceNumber, ∀ first ∈ f'.firstSequenceNumber,
    ∀ n, last < n → n < first → n ∈ received

def NoHole (received : List Int) (history : List Event) : Prop :=
  (deliveredFrames history).IsChain (NoGap received)

theorem NoHole.mono {received more : List Int} {history : List Event} (noHole : NoHole received history)
    (subset : received ⊆ more) : NoHole more history :=
  List.IsChain.imp (fun _ _ noGap delta last isLast first isFirst n after before =>
    subset (noGap delta last isLast first isFirst n after before)) noHole

instance (received : List Int) (f f' : PendingFrame) : Decidable (NoGap received f f') :=
  inferInstanceAs (Decidable (f'.isKeyframe = false → ∀ last ∈ f.lastSequenceNumber,
    ∀ first ∈ f'.firstSequenceNumber, ∀ n, last < n → n < first → n ∈ received))

instance (received : List Int) (history : List Event) : Decidable (NoHole received history) :=
  inferInstanceAs (Decidable ((deliveredFrames history).IsChain (NoGap received)))

instance (n : NackRequester) (received : List Int) (last : Int) : Decidable (n.Watches received last) :=
  inferInstanceAs (Decidable (∀ m, last < m → m ≤ n.newestSeqNum →
    m ∈ received ∨ ∃ e ∈ n.nackList, e.seqNum = m))

instance (n : NackRequester) (x last : Int) : Decidable (n.NotAged x last) :=
  inferInstanceAs (Decidable (n.newestSeqNum < x → ∀ e ∈ n.nackList, last < e.seqNum →
    aheadOf (seq x - kMaxPacketAge) (seq e.seqNum) = false))

instance (n : NackRequester) (batch : List Int) (successful : Bool) (last : Int) :
    Decidable (n.NotExhausted batch successful last) :=
  inferInstanceAs (Decidable (∀ e ∈ n.nackList, last < e.seqNum → seq e.seqNum ∈ batch.map seq →
    e.sendPending = true → successful = true → e.retries + 1 < kMaxNackRetries))

/-- The NACK list ran over and the key frame is not asked for yet. -/
def Insertion.overflowed (i : Insertion P) : Bool :=
  match i.phase with
  | .requestKeyFrame => true
  | _ => false

/-- Is the packet about to be shown to the NACK list? -/
def Insertion.listing (i : Insertion P) : Bool :=
  match i.phase with
  | .nack => true
  | _ => false

/-- Phases up to the NACK list. -/
def Insertion.early (i : Insertion P) : Bool :=
  match i.phase with
  | .check | .retire | .nack => true
  | _ => false

namespace System

/-- The number with which the last delivered frame ended. -/
def lastNumber (s : System P) : Option Int :=
  (deliveredFrames s.receiver.history).getLast?.bind PendingFrame.lastSequenceNumber

/-- The number after which losses hold up a delta frame. -/
def watched (s : System P) : Option Int :=
  if s.receiver.awaitingKeyframe then none else s.lastNumber

/-- The oldest pending frame if nothing in `Process` holds it up. -/
def ready (s : System P) : Option PendingFrame :=
  match s.receiver.pendingFrames with
  | [] => none
  | (stamp, head) :: rest =>
    if s.receiver.isOlderThanDecodedFrame stamp then none
    else if s.receiver.newerCompleteKeyframeAvailable head rest then none
    else if !head.isComplete then none
    else if s.receiver.awaitingKeyframe then if head.isKeyframe then some head else none
    else if s.receiver.hasBlockingNacks head then none
    else some head

/-- The sequence numbers that are alive. -/
def numbers (s : System P) : List Int :=
  s.receiver.nack.numbers ++ (s.insertions.map fun i => i.media.number) ++
    s.receiver.pendingFrames.filterMap fun e => e.2.lastSequenceNumber

/-- The numbers in use lie within half the range, and a frame begins after the end of the
one before it. -/
def Numbered (s : System P) (a : Action) : Prop :=
  (∀ x ∈ s.numbers, ∀ y ∈ s.numbers, Near 16 x y) ∧
    match a with
    | .turn _ => ∀ head ∈ s.ready, ∀ last ∈ s.lastNumber, ∀ first ∈ head.firstSequenceNumber, last < first
    | _ => True

/-- No step makes the NACK list lose track of a loss that matters. -/
def Watchful (s : System P) : Action → Prop
  | .region index _ _ => ∀ i ∈ s.insertions[index]?, i.listing = true → i.recovered = false →
    ∀ last ∈ s.watched, s.receiver.nack.NotAged i.media.number last
  | .nackBatchSent batch successful _ => ∀ last ∈ s.watched,
    s.receiver.nack.NotExhausted batch successful last
  | .turn _ => ∀ head ∈ s.ready,
    (head.isKeyframe = false → ∀ last ∈ s.watched, (∀ i ∈ s.insertions, i.overflowed = false) ∧
      ∀ first ∈ head.firstSequenceNumber, ∀ n, max last s.receiver.nack.newestSeqNum < n → n < first →
        n ∈ s.received) ∧
    (s.watched = none → ∀ last ∈ head.lastSequenceNumber, s.receiver.nack.Watches s.received last)
  | _ => True

instance (s : System P) (a : Action) : Decidable (s.Numbered a) :=
  match a with
  | .turn _ => inferInstanceAs (Decidable ((∀ x ∈ s.numbers, ∀ y ∈ s.numbers, Near 16 x y) ∧
      ∀ head ∈ s.ready, ∀ last ∈ s.lastNumber, ∀ first ∈ head.firstSequenceNumber, last < first))
  | .arrive .. | .region .. | .processNacks .. | .nackBatchSent .. | .rttUpdate .. | .requestKeyFrame
  | .tick | .drop => inferInstanceAs (Decidable ((∀ x ∈ s.numbers, ∀ y ∈ s.numbers, Near 16 x y) ∧ True))

instance (s : System P) (a : Action) : Decidable (s.Watchful a) :=
  match a with
  | .region index _ _ => inferInstanceAs (Decidable (∀ i ∈ s.insertions[index]?, i.listing = true →
      i.recovered = false → ∀ last ∈ s.watched, s.receiver.nack.NotAged i.media.number last))
  | .nackBatchSent batch successful _ => inferInstanceAs (Decidable (∀ last ∈ s.watched,
      s.receiver.nack.NotExhausted batch successful last))
  | .turn _ => inferInstanceAs (Decidable (∀ head ∈ s.ready,
      (head.isKeyframe = false → ∀ last ∈ s.watched, (∀ i ∈ s.insertions, i.overflowed = false) ∧
        ∀ first ∈ head.firstSequenceNumber, ∀ n, max last s.receiver.nack.newestSeqNum < n → n < first →
          n ∈ s.received) ∧
      (s.watched = none → ∀ last ∈ head.lastSequenceNumber, s.receiver.nack.Watches s.received last)))
  | .arrive .. | .processNacks .. | .rttUpdate .. | .requestKeyFrame | .tick | .drop =>
    inferInstanceAs (Decidable True)

/-! ### The invariant -/

/-- The first packet of a complete frame does not come after its last one. -/
def Spanned (f : PendingFrame) : Prop :=
  ∃ first last, f.firstSequenceNumber = some first ∧ f.lastSequenceNumber = some last ∧ first ≤ last

structure Covered (s : System P) : Prop where
  tracks : s.receiver.nack.Tracks s.received
  came : ∀ i ∈ s.insertions, i.media.number ∈ s.received
  spanned : ∀ e ∈ s.receiver.pendingFrames, e.2.isComplete = true → Spanned e.2
  /-- Before its first packet the NACK list has nothing to look for. -/
  early : s.receiver.nack.initialized = false →
    s.receiver.pendingFrames = [] ∧ s.lastNumber = none ∧ ∀ i ∈ s.insertions, i.early = true
  watches : (∀ i ∈ s.insertions, i.overflowed = false) →
    ∀ last ∈ s.watched, s.receiver.nack.Watches s.received last
  noHole : NoHole s.received s.receiver.history

variable {s t : System P}

theorem mem_watched {last : Int} :
    last ∈ s.watched ↔ s.receiver.awaitingKeyframe = false ∧ last ∈ s.lastNumber := by
  unfold watched
  cases s.receiver.awaitingKeyframe <;> simp

/-- A step that delivers nothing. -/
theorem Covered.grow (covered : s.Covered) (subset : s.received ⊆ t.received)
    (tracks : t.receiver.nack.Tracks t.received) (came : ∀ i ∈ t.insertions, i.media.number ∈ t.received)
    (spanned : ∀ e ∈ t.receiver.pendingFrames, e.2.isComplete = true → Spanned e.2)
    (frames : deliveredFrames t.receiver.history = deliveredFrames s.receiver.history)
    (early : t.receiver.nack.initialized = false → s.receiver.nack.initialized = false ∧
      t.receiver.pendingFrames = [] ∧ ∀ i ∈ t.insertions, i.early = true)
    (watches : s.receiver.nack.initialized = true → (∀ i ∈ t.insertions, i.overflowed = false) →
      t.receiver.awaitingKeyframe = false → s.receiver.awaitingKeyframe = false ∧
        (∀ i ∈ s.insertions, i.overflowed = false) ∧
        ∀ last ∈ s.watched, s.receiver.nack.Watches s.received last →
          t.receiver.nack.Watches t.received last) : t.Covered := by
  have number : t.lastNumber = s.lastNumber := by unfold lastNumber; rw [frames]
  refine ⟨tracks, came, spanned, ?_, ?_, ?_⟩
  · intro fresh
    obtain ⟨before, empty, phases⟩ := early fresh
    exact ⟨empty, number.trans (covered.early before).2.1, phases⟩
  · intro calm last isLast
    obtain ⟨current, delivered⟩ := mem_watched.mp isLast
    rw [number] at delivered
    have started : s.receiver.nack.initialized = true := by
      by_contra fresh
      rw [(covered.early (by simpa using fresh)).2.1] at delivered
      cases delivered
    obtain ⟨before, calm', kept⟩ := watches started calm current
    have isWatched := mem_watched.mpr ⟨before, delivered⟩
    exact kept last isWatched (covered.watches calm' last isWatched)
  · have kept := NoHole.mono covered.noHole subset
    unfold NoHole at kept ⊢
    rwa [frames]

/-! ### Steps that do not deliver -/

/-- Only the NACK object changes, and it keeps watching. -/
theorem Covered.setNack (covered : s.Covered) {nack : NackRequester} (tracks : nack.Tracks s.received)
    (initialized : nack.initialized = s.receiver.nack.initialized)
    (watches : ∀ last ∈ s.watched, s.receiver.nack.Watches s.received last → nack.Watches s.received last) :
    (s.setNack nack).Covered := by
  refine covered.grow (List.Subset.refl _) tracks covered.came covered.spanned rfl ?_ ?_
  · intro fresh
    have before := initialized.symm.trans fresh
    obtain ⟨empty, _, phases⟩ := covered.early before
    exact ⟨before, empty, phases⟩
  · intro _ calm current
    exact ⟨current, calm, watches⟩

/-- Nothing but the worker and the frame assembly change. -/
theorem Covered.of_same (covered : s.Covered) (assembly : Assembly P) (worker : Worker) :
    Covered { s with receiver := { s.receiver with assembly }, worker } :=
  ⟨covered.tracks, covered.came, covered.spanned, covered.early, covered.watches, covered.noHole⟩

theorem Covered.requestKeyFrame (covered : s.Covered) {insertions : List (Insertion P)}
    (came : ∀ i ∈ insertions, i.media.number ∈ s.received)
    (early : s.receiver.nack.initialized = false → ∀ i ∈ insertions, i.early = true) :
    Covered { s with receiver := s.receiver.requestKeyFrame, insertions } := by
  refine covered.grow (List.Subset.refl _) covered.tracks came covered.spanned ?_ ?_ ?_
  · simp [Receiver.requestKeyFrame, deliveredFrames]
  · intro fresh
    exact ⟨fresh, (covered.early fresh).1, early fresh⟩
  · intro _ _ current
    cases current

theorem Covered.arrive {cfg : Config P} (covered : s.Covered) {media : MediaPacket} {recovered : Bool}
    {i : Insertion P} (starts : startInsertion cfg media recovered = some i) :
    Covered { s with insertions := s.insertions ++ [i], received := media.number :: s.received } := by
  have new : i.media = media ∧ i.early = true ∧ i.overflowed = false := by
    unfold startInsertion at starts
    split_ifs at starts
    all_goals
      cases starts
      exact ⟨rfl, rfl, rfl⟩
  obtain ⟨isMedia, isEarly, _⟩ := new
  have more : s.received ⊆ media.number :: s.received := fun _ member => List.mem_cons_of_mem _ member
  refine covered.grow more (covered.tracks.mono more) ?_ covered.spanned rfl ?_ ?_
  · intro j member
    rcases List.mem_append.mp member with there | here
    · exact more (covered.came j there)
    · rw [List.mem_singleton.mp here, isMedia]
      exact List.mem_cons_self
  · intro fresh
    obtain ⟨empty, _, phases⟩ := covered.early fresh
    refine ⟨fresh, empty, ?_⟩
    intro j member
    rcases List.mem_append.mp member with there | here
    · exact phases j there
    · rw [List.mem_singleton.mp here]
      exact isEarly
  · intro _ calm current
    refine ⟨current, fun j member => calm j (List.mem_append_left _ member), ?_⟩
    intro last _ watches
    exact watches.mono more le_rfl

/-! ### Regions of an insertion -/

/-- The others stay. -/
theorem mem_replace_of_mem {insertions : List (Insertion P)} {index : Nat} {i j : Insertion P}
    (here : insertions[index]? = some i) (member : j ∈ insertions) (next : Option (Insertion P)) :
    j = i ∨ j ∈ replace insertions index next := by
  obtain ⟨k, there⟩ := List.mem_iff_getElem?.mp member
  by_cases same : k = index
  · rw [same, here] at there
    exact .inl (Option.some.inj there).symm
  · refine .inr ?_
    cases next with
    | none => exact List.mem_eraseIdx_iff_getElem?.mpr ⟨k, same, there⟩
    | some i' =>
      refine List.mem_iff_getElem?.mpr ⟨k, ?_⟩
      rw [replace, List.getElem?_set_ne (Ne.symm same)]
      exact there

theorem mem_replace_self {insertions : List (Insertion P)} {index : Nat} {i : Insertion P}
    (here : insertions[index]? = some i) (next : Insertion P) : next ∈ replace insertions index (some next) :=
  List.mem_iff_getElem?.mpr ⟨index, by
    rw [replace, List.getElem?_set_self (List.getElem?_eq_some_iff.mp here).1]⟩

/-- A region that asks for no key frame. -/
theorem Covered.region (covered : s.Covered) {index : Nat} {i : Insertion P}
    (here : s.insertions[index]? = some i) {receiver : Receiver P} {next : Option (Insertion P)}
    (media : ∀ j ∈ next, j.media = i.media) (calm : i.overflowed = false)
    (tracks : receiver.nack.Tracks s.received)
    (spanned : ∀ e ∈ receiver.pendingFrames, e.2.isComplete = true → Spanned e.2)
    (frames : deliveredFrames receiver.history = deliveredFrames s.receiver.history)
    (awaiting : receiver.awaitingKeyframe = s.receiver.awaitingKeyframe)
    (early : receiver.nack.initialized = false → s.receiver.nack.initialized = false ∧
      receiver.pendingFrames = [] ∧ ∀ j ∈ next, j.early = true)
    (watches : s.receiver.nack.initialized = true → (∀ j ∈ next, j.overflowed = false) →
      ∀ last ∈ s.watched, s.receiver.nack.Watches s.received last →
        receiver.nack.Watches s.received last) :
    Covered { s with receiver, insertions := replace s.insertions index next } := by
  have present := List.mem_of_getElem? here
  refine covered.grow (List.Subset.refl _) tracks ?_ spanned frames ?_ ?_
  · intro j member
    rcases mem_replace member with there | new
    · exact covered.came j there
    · rw [media j new]
      exact covered.came i present
  · intro fresh
    obtain ⟨before, empty, phases⟩ := early fresh
    refine ⟨before, empty, ?_⟩
    intro j member
    rcases mem_replace member with there | new
    · exact (covered.early before).2.2 j there
    · exact phases j new
  · intro started calm' current
    refine ⟨awaiting.symm.trans current, ?_, watches started ?_⟩
    · intro j member
      rcases mem_replace_of_mem here member next with rfl | there
      · exact calm
      · exact calm' j there
    · rintro j rfl
      exact calm' j (mem_replace_self here j)

/-- A region that leaves the NACK object alone. -/
theorem Covered.store (covered : s.Covered) {index : Nat} {i : Insertion P}
    (here : s.insertions[index]? = some i) {receiver : Receiver P} {next : Option (Insertion P)}
    (media : ∀ j ∈ next, j.media = i.media) (late : i.overflowed = false ∧ i.early = false)
    (nack : receiver.nack = s.receiver.nack)
    (spanned : ∀ e ∈ receiver.pendingFrames, e.2.isComplete = true → Spanned e.2)
    (frames : deliveredFrames receiver.history = deliveredFrames s.receiver.history)
    (awaiting : receiver.awaitingKeyframe = s.receiver.awaitingKeyframe) :
    Covered { s with receiver, insertions := replace s.insertions index next } := by
  refine covered.region here media late.1 (nack ▸ covered.tracks) spanned frames awaiting ?_ ?_
  · intro fresh
    have := (covered.early (nack ▸ fresh)).2.2 i (List.mem_of_getElem? here)
    rw [late.2] at this
    cases this
  · intro _ _ last _ watches
    rw [nack]
    exact watches

theorem afterNack_media {cfg : Config P} {i : Insertion P} : ∀ j ∈ afterNack cfg i, j.media = i.media := by
  intro j entered
  unfold afterNack at entered
  split at entered
  · cases entered
  · split at entered
    all_goals
      cases entered
      rfl

theorem afterNack_calm {cfg : Config P} {i : Insertion P} : ∀ j ∈ afterNack cfg i, j.overflowed = false := by
  intro j entered
  unfold afterNack at entered
  split at entered
  · cases entered
  · split at entered
    all_goals
      cases entered
      rfl

theorem spanned_storeIn {stamp : Int} {entry : PendingFrame} {l : List (Int × PendingFrame)}
    (old : ∀ e ∈ l, e.2.isComplete = true → Spanned e.2) (new : entry.isComplete = true → Spanned entry) :
    ∀ e ∈ Receiver.storeIn stamp entry l, e.2.isComplete = true → Spanned e.2 := by
  intro e member complete
  rcases mem_storeIn member with there | ⟨same, _⟩
  · exact old e there complete
  · rw [same] at complete ⊢
    exact new complete

theorem spanned_commit (covered : s.Covered) (assembly : Assembly P) (stamp number : Int) (f : CompleteFrame)
    (require : Bool) (begun : Nat) (nowMs : Int) :
    ∀ e ∈ ({ s.receiver with assembly }.commitPendingFrame stamp number f require begun nowMs).pendingFrames,
      e.2.isComplete = true → Spanned e.2 := by
  unfold Receiver.commitPendingFrame
  split
  · exact covered.spanned
  · exact spanned_storeIn covered.spanned fun _ => ⟨_, _, rfl, rfl, by omega⟩

section Commit

variable (r : Receiver P) (stamp number : Int) (f : CompleteFrame) (require : Bool) (begun : Nat) (nowMs : Int)

theorem commit_nack : (r.commitPendingFrame stamp number f require begun nowMs).nack = r.nack := by
  unfold Receiver.commitPendingFrame
  split <;> rfl

theorem commit_awaiting : (r.commitPendingFrame stamp number f require begun nowMs).awaitingKeyframe =
    r.awaitingKeyframe := by
  unfold Receiver.commitPendingFrame
  split <;> rfl

theorem commit_frames : deliveredFrames (r.commitPendingFrame stamp number f require begun nowMs).history =
    deliveredFrames r.history := by
  unfold Receiver.commitPendingFrame
  split
  · rfl
  · simp [deliveredFrames]

end Commit

/-- One more packet of a complete frame moves its end forward only. -/
theorem spanned_tracked {entry : PendingFrame} {number : Int} (nowMs : Int)
    (near : ∀ last ∈ entry.lastSequenceNumber, Near 16 number last)
    (spanned : entry.isComplete = true → Spanned entry)
    (complete : (Receiver.tracked entry number nowMs).isComplete = true) :
    Spanned (Receiver.tracked entry number nowMs) := by
  have kept : ∀ e : PendingFrame, e.isComplete = entry.isComplete →
      e.firstSequenceNumber = entry.firstSequenceNumber → e.lastSequenceNumber = entry.lastSequenceNumber →
      e.isComplete = true → Spanned e := by
    intro e same first last complete
    obtain ⟨x, y, isFirst, isLast, order⟩ := spanned (same ▸ complete)
    exact ⟨x, y, first.trans isFirst, last.trans isLast, order⟩
  have stamped : ∃ e : PendingFrame, (if entry.arrivalTime = 0 then { entry with arrivalTime := nowMs } else entry) = e ∧
      e.isComplete = entry.isComplete ∧ e.firstSequenceNumber = entry.firstSequenceNumber ∧
      e.lastSequenceNumber = entry.lastSequenceNumber := by
    split <;> exact ⟨_, rfl, rfl, rfl, rfl⟩
  obtain ⟨e, isE, same, first, last⟩ := stamped
  unfold Receiver.tracked at complete ⊢
  simp only [isE] at complete ⊢
  cases ends : e.lastSequenceNumber with
  | none =>
    simp only [ends] at complete ⊢
    obtain ⟨x, y, _, isLast, _⟩ := spanned (same ▸ complete)
    rw [last, isLast] at ends
    cases ends
  | some y =>
    simp only [ends] at complete ⊢
    split at complete
    · rename_i ahead
      rw [if_pos ahead]
      obtain ⟨x, y', isFirst, isLast, order⟩ := spanned (same ▸ complete)
      have equal : y' = y := Option.some.inj (isLast.symm.trans (last.symm.trans ends))
      have further := (aheadOf_ofInt (by decide : 0 < 16) (near y (last.symm.trans ends))).mp ahead
      exact ⟨x, number, first.trans isFirst, rfl, by omega⟩
    · rename_i behind
      rw [if_neg behind]
      exact kept e same first last complete

section Guarded

variable (window : ∀ x ∈ s.numbers, ∀ y ∈ s.numbers, Near 16 x y)
include window

/-- The window of a number that is alive and those of the NACK list. -/
theorem window_cons {x : Int} (alive : x ∈ s.numbers) :
    ∀ a ∈ x :: s.receiver.nack.numbers, ∀ b ∈ x :: s.receiver.nack.numbers, Near 16 a b := by
  have inside : ∀ a ∈ x :: s.receiver.nack.numbers, a ∈ s.numbers := by
    intro a member
    rcases List.mem_cons.mp member with rfl | there
    · exact alive
    · exact List.mem_append_left _ (List.mem_append_left _ there)
  intro a left b right
  exact window a (inside a left) b (inside b right)

omit window in
theorem mem_numbers_insertion {i : Insertion P} (member : i ∈ s.insertions) : i.media.number ∈ s.numbers :=
  List.mem_append_left _ (List.mem_append_right _ (List.mem_map_of_mem member))

omit window in
theorem mem_numbers_pending {e : Int × PendingFrame} {last : Int} (member : e ∈ s.receiver.pendingFrames)
    (ends : e.2.lastSequenceNumber = some last) : last ∈ s.numbers :=
  List.mem_append_right _ (List.mem_filterMap.mpr ⟨e, member, ends⟩)

theorem spanned_track (covered : s.Covered) {i : Insertion P} (member : i ∈ s.insertions)
    (assembly : Assembly P) (nowMs : Int) :
    ∀ e ∈ ({ s.receiver with assembly }.trackPendingFramePacket i.media.stamp i.media.number
      nowMs).pendingFrames, e.2.isComplete = true → Spanned e.2 := by
  refine spanned_storeIn covered.spanned ?_
  have found : ({ s.receiver with assembly } : Receiver P).find i.media.stamp =
    s.receiver.find i.media.stamp := rfl
  rw [found]
  cases stored : s.receiver.find i.media.stamp with
  | none => exact spanned_tracked nowMs (by simp) (by simp)
  | some entry =>
    obtain ⟨e, there, rfl, _⟩ := find_eq_some stored
    refine spanned_tracked nowMs ?_ (covered.spanned e there)
    intro last ends
    exact window _ (mem_numbers_insertion member) _ (mem_numbers_pending there ends)

/-- The two regions that show the packet to the NACK list. -/
theorem Covered.list (covered : s.Covered) {index : Nat} {i : Insertion P}
    (here : s.insertions[index]? = some i) (isRecovered : Bool) (wait : Nat) (now : Int)
    (notAged : isRecovered = false → ∀ last ∈ s.watched, s.receiver.nack.NotAged i.media.number last)
    {nack : NackRequester} {next : Option (Insertion P)}
    (same : ∃ pending, nack = { (s.receiver.nack.onReceivedPacket i.media.number isRecovered wait now).2 with
      keyframeRequestPending := pending })
    (media : ∀ j ∈ next, j.media = i.media) (calm : i.overflowed = false)
    (overflow : isRecovered = false →
      (s.receiver.nack.onReceivedPacket i.media.number isRecovered wait now).2.keyframeRequestPending = true →
      ∃ j ∈ next, j.overflowed = true) :
    Covered { s with
      receiver := { s.receiver with nack }, insertions := replace s.insertions index next } := by
  have present := List.mem_of_getElem? here
  obtain ⟨tracks, started, kept⟩ := NackRequester.onReceivedPacket_spec covered.tracks
    (covered.came i present) (window_cons window (mem_numbers_insertion present)) isRecovered wait now
  obtain ⟨pending, rfl⟩ := same
  refine covered.region here media calm ⟨tracks.sorted, tracks.below, tracks.recovered⟩
    covered.spanned rfl rfl ?_ ?_
  · intro fresh
    rw [started] at fresh
    cases fresh
  · intro before quiet last isWatched watches
    rcases kept before with ⟨direct, full⟩ | still
    · obtain ⟨j, isNext, overflowed⟩ := overflow direct full
      rw [quiet j isNext] at overflowed
      cases overflowed
    · exact (still last (fun direct => notAged direct last isWatched) watches).of_same rfl rfl

theorem Covered.advance {cfg : Config P} (rtx : cfg.rtxEnabled = true) (covered : s.Covered) {index : Nat}
    {i : Insertion P} (here : s.insertions[index]? = some i)
    (notAged : i.listing = true → i.recovered = false →
      ∀ last ∈ s.watched, s.receiver.nack.NotAged i.media.number last) (wait : Nat) (now : Int) :
    Covered { s with
      receiver := (advance cfg s.receiver i wait now).1
      insertions := replace s.insertions index (advance cfg s.receiver i wait now).2 } := by
  have present := List.mem_of_getElem? here
  have late : i.early = false → s.receiver.nack.initialized = false → False := by
    intro isLate fresh
    rw [(covered.early fresh).2.2 i present] at isLate
    cases isLate
  have asked : i.early = false → ∀ next : Option (Insertion P), (∀ j ∈ next, j.media = i.media) →
      Covered { s with receiver := s.receiver.requestKeyFrame, insertions := replace s.insertions index next } := by
    intro isLate next media
    refine covered.requestKeyFrame ?_ fun fresh => (late isLate fresh).elim
    intro j member
    rcases mem_replace member with there | new
    · exact covered.came j there
    · rw [media j new]
      exact covered.came i present
  unfold Video.advance
  cases phase : i.phase with
  | check =>
    have stay : ∀ next : Option (Insertion P), (∀ j ∈ next, j.media = i.media ∧ j.early = true) →
        Covered { s with insertions := replace s.insertions index next } := by
      intro next same
      refine covered.region here (fun j isNext => (same j isNext).1) (by simp [Insertion.overflowed, phase])
        covered.tracks covered.spanned rfl rfl ?_ fun _ _ _ _ watches => watches
      intro fresh
      exact ⟨fresh, (covered.early fresh).1, fun j isNext => (same j isNext).2⟩
    simp only [rtx, if_true]
    split
    · refine stay _ ?_
      intro j isNext
      split at isNext
      · cases isNext
        exact ⟨rfl, rfl⟩
      · cases isNext
    · refine stay _ ?_
      intro j isNext
      cases isNext
      exact ⟨rfl, rfl⟩
  | retire =>
    exact covered.list window here true wait now (by simp) ⟨_, rfl⟩ (by simp)
      (by simp [Insertion.overflowed, phase]) (by simp)
  | nack =>
    simp only [NackRequester.consumeKeyFrameRequest]
    refine covered.list window here i.recovered wait now (notAged (by simp [Insertion.listing, phase]))
      ⟨false, rfl⟩ ?_ (by simp [Insertion.overflowed, phase]) ?_
    · intro j isNext
      rcases ite_eq_iff.mp (Option.mem_def.mp isNext) with ⟨_, isNext⟩ | ⟨_, isNext⟩
      · cases isNext
        rfl
      · exact afterNack_media j isNext
    · intro _ full
      simp only [full, if_true]
      exact ⟨_, rfl, rfl⟩
  | requestKeyFrame => exact asked (by simp [Insertion.early, phase]) _ afterNack_media
  | refuse => exact asked (by simp [Insertion.early, phase]) none (by simp)
  | assemble p =>
    have isLate : i.overflowed = false ∧ i.early = false := by
      simp [Insertion.overflowed, Insertion.early, phase]
    cases kind : cfg.codec.unitKind p with
    | single =>
      simp only [kind]
      exact covered.store here (by simp) isLate (commit_nack ..)
        (spanned_commit covered s.receiver.assembly _ _ _ _ _ _) (commit_frames ..) (commit_awaiting ..)
    | fragment =>
      simp only [kind]
      refine covered.store here ?_ isLate rfl (spanned_track window covered present _ _) rfl rfl
      intro j isNext
      cases isNext
      rfl
    | other =>
      simp only [kind]
      exact covered.store here (by simp) isLate rfl covered.spanned rfl rfl
  | commit p =>
    have isLate : i.overflowed = false ∧ i.early = false := by
      simp [Insertion.overflowed, Insertion.early, phase]
    simp only
    cases (s.receiver.assembly.checkFrameCompleted cfg.codec.toCodec p).2 with
    | none => exact covered.store here (by simp) isLate rfl covered.spanned rfl rfl
    | some f =>
      exact covered.store here (by simp) isLate (commit_nack ..) (spanned_commit covered _ _ _ _ _ _ _)
        (commit_frames ..) (commit_awaiting ..)

end Guarded

end System

end MiniRtc.Video
