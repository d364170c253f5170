import MiniRtc.Web.MediaFlow

/-! The sequence numbers of the packets that are handed to `send`, and what holds in every run of
the media handler. A packet that was taken from the queue counts as handed over already: its number
is chosen then. -/
namespace MiniRtc.Web

namespace WebMediaHandler

/-- The streams of a handler go on with their numbers. -/
def Continues (h h' : WebMediaHandler) : Prop :=
  ∀ ssrc s, h.streams ssrc = some s → ∃ t, h'.streams ssrc = some t ∧
    t.sequenceStarted = s.sequenceStarted ∧ t.nextSequence = s.nextSequence

theorem Continues.refl (h : WebMediaHandler) : Continues h h := fun _ s found => ⟨s, found, rfl, rfl⟩

theorem continues_setStream {h : WebMediaHandler} {ssrc : BitVec 32} {s : StreamState}
    (same : ∀ t, h.streams ssrc = some t → s.sequenceStarted = t.sequenceStarted ∧
      s.nextSequence = t.nextSequence) : Continues h (h.setStream ssrc s) := by
  intro other t found
  by_cases here : other = ssrc
  · subst here
    exact ⟨s, setStream_self _ _, same t found⟩
  · exact ⟨t, (setStream_other here s).trans found, rfl, rfl⟩

theorem continues_recover (h : WebMediaHandler) (ssrc : BitVec 32) : Continues h (h.recover ssrc) := by
  unfold WebMediaHandler.recover
  split
  · rename_i s found
    exact continues_setStream fun t there => by
      rw [found, Option.some.injEq] at there
      exact there ▸ ⟨rfl, rfl⟩
  · exact .refl h

theorem Offers.continues {h h' : WebMediaHandler} {units : Nat} {result : Outgoing}
    (offers : Offers h units result h') : Continues h h' := by
  cases offers with
  | nothing => exact .refl h
  | refused waits => exact .refl h
  | recovered found => exact continues_recover h _
  | delta found active packets => exact .refl h
  | @key ssrc s packets found nonempty own =>
    refine continues_setStream (h := h.discardStreamPackets ssrc) fun t there => ?_
    rw [discardStreamPackets_streams, found, Option.some.injEq] at there
    exact there ▸ ⟨rfl, rfl⟩

theorem Answers.continues {h h' : WebMediaHandler} (answers : Answers h h') : Continues h h' := by
  intro ssrc s found
  have same := answers.streams ssrc
  rw [found, Option.map_some, Option.map_eq_some_iff] at same
  obtain ⟨t, there, alike⟩ := same
  exact ⟨t, there, congrArg (·.2.1) alike, congrArg (·.2.2) alike⟩

end WebMediaHandler

namespace MediaWorld
open WebMediaHandler

/-! ### Sequence numbers -/

/-- The log, with the packet that will be handed over next. -/
def ahead (w : MediaWorld) : List MediaEntry := (inFlight w.worker).map .handed ++ w.log

/-- Entries that hand nothing over. -/
def Quiet (entries : List MediaEntry) : Prop := ∀ p, .handed p ∉ entries

theorem quiet_discards (w : MediaWorld) (ssrc : BitVec 32) : Quiet (w.discards ssrc) := by
  intro p member
  obtain ⟨q, _, same⟩ := List.mem_map.mp member
  cases same

theorem quiet_cons (entry : MediaEntry) (other : ∀ p, entry ≠ .handed p) : Quiet [entry] :=
  fun p member => other p (List.mem_singleton.mp member).symm

theorem Quiet.append {first second : List MediaEntry} (quiet : Quiet first) (too : Quiet second) :
    Quiet (first ++ second) :=
  fun p member => (List.mem_append.mp member).elim (quiet p) (too p)

theorem Quiet.tail {entry : MediaEntry} {entries : List MediaEntry} (quiet : Quiet (entry :: entries)) :
    Quiet entries :=
  fun p member => quiet p (List.mem_cons_of_mem _ member)

theorem lastSequence_quiet {entries : List MediaEntry} (quiet : Quiet entries) (ssrc : BitVec 32)
    (log : List MediaEntry) : lastSequence ssrc (entries ++ log) = lastSequence ssrc log := by
  induction entries with
  | nil => rfl
  | cons entry rest ih =>
    cases entry with
    | handed p => exact absurd List.mem_cons_self (quiet p)
    | refused s unit => exact ih quiet.tail
    | discarded p => exact ih quiet.tail
    | expired p => exact ih quiet.tail
    | failed p => exact ih quiet.tail

theorem consecutive_quiet {entries : List MediaEntry} (quiet : Quiet entries) (log : List MediaEntry) :
    Consecutive (entries ++ log) ↔ Consecutive log := by
  induction entries with
  | nil => rfl
  | cons entry rest ih =>
    cases entry with
    | handed p => exact absurd List.mem_cons_self (quiet p)
    | refused s unit => exact ih quiet.tail
    | discarded p => exact ih quiet.tail
    | expired p => exact ih quiet.tail
    | failed p => exact ih quiet.tail

/-- Two logs that tell the same of the sequence numbers. -/
structure SameNumbers (log log' : List MediaEntry) : Prop where
  last : ∀ ssrc, lastSequence ssrc log' = lastSequence ssrc log
  consecutive : Consecutive log → Consecutive log'

theorem SameNumbers.refl (log : List MediaEntry) : SameNumbers log log := ⟨fun _ => rfl, id⟩

theorem SameNumbers.quiet {entries : List MediaEntry} (quiet : Quiet entries) (log : List MediaEntry) :
    SameNumbers log (entries ++ log) :=
  ⟨fun ssrc => lastSequence_quiet quiet ssrc log, (consecutive_quiet quiet log).mpr⟩

theorem SameNumbers.handed {log log' : List MediaEntry} (same : SameNumbers log log') (p : Packet) :
    SameNumbers (.handed p :: log) (.handed p :: log') := by
  constructor
  · intro ssrc
    simp only [lastSequence, same.last]
  · rintro ⟨next, rest⟩
    exact ⟨fun first n last => next first n ((same.last _).symm.trans last), same.consecutive rest⟩

theorem SameNumbers.repair {p : Packet} (repair : p.isRepair = true) (log : List MediaEntry) :
    SameNumbers log (.handed p :: log) := by
  constructor
  · intro ssrc
    simp [lastSequence, repair]
  · intro rest
    exact ⟨fun first => absurd (repair.symm.trans first) (by simp), rest⟩

theorem SameNumbers.ahead {log log' : List MediaEntry} (same : SameNumbers log log') (flying : List Packet) :
    SameNumbers (flying.map .handed ++ log) (flying.map .handed ++ log') := by
  induction flying with
  | nil => exact same
  | cons p rest ih => exact ih.handed p

/-- The next packet of a stream gets the number after the last one. -/
structure Numbered (w : MediaWorld) : Prop where
  next : ∀ ssrc n, lastSequence ssrc w.ahead = some n → ∃ s, w.handler.streams ssrc = some s ∧
    s.sequenceStarted = true ∧ s.nextSequence = n + 1
  consecutive : Consecutive w.ahead

variable {w : MediaWorld}

theorem Numbered.go (numbered : Numbered w) {w' : MediaWorld} (streams : Continues w.handler w'.handler)
    (same : SameNumbers w.ahead w'.ahead) : Numbered w' := by
  constructor
  · intro ssrc n last
    rw [same.last] at last
    obtain ⟨s, found, started, next⟩ := numbered.next ssrc n last
    obtain ⟨t, there, startedToo, nextToo⟩ := streams ssrc s found
    exact ⟨t, there, startedToo.trans started, nextToo.trans next⟩
  · exact same.consecutive numbered.consecutive

theorem Numbered.note (numbered : Numbered w) {handler : WebMediaHandler}
    {entries : List MediaEntry} (units : Nat) (streams : Continues w.handler handler) (quiet : Quiet entries) :
    Numbered { w with handler, units, log := entries ++ w.log } :=
  numbered.go streams ((SameNumbers.quiet quiet w.log).ahead (inFlight w.worker))

theorem Numbered.outgoing (numbered : Numbered w) (messages : List Message) (nowMs : Int) :
    Numbered (w.outgoing messages nowMs) := by
  have streams := (outgoing_offers w.handler messages nowMs w.units).continues
  unfold MediaWorld.outgoing
  split
  · exact numbered
  · rename_i ssrc handler result
    rw [result] at streams
    exact numbered.note _ streams (quiet_cons _ fun p same => by cases same)
  · rename_i ssrc handler result
    rw [result] at streams
    have noted := numbered.note (w.units + 1) streams ((quiet_discards w ssrc).append
      (quiet_cons (.refused ssrc w.units) fun p same => by cases same))
    rwa [List.append_assoc] at noted
  · rename_i ssrc keyframe handler result
    rw [result] at streams
    refine numbered.note _ streams ?_
    split
    · exact quiet_discards w ssrc
    · exact fun p => List.not_mem_nil

theorem Numbered.recover (numbered : Numbered w) (p : Packet) {entry : MediaEntry}
    (other : ∀ p, entry ≠ .handed p) : Numbered (w.recover p entry) := by
  have noted := numbered.note w.units (continues_recover w.handler p.ssrc)
    ((quiet_discards w p.ssrc).append (quiet_cons entry other))
  rwa [List.append_assoc] at noted

/-- A packet that departs gets the next number of its stream. -/
theorem Numbered.departs (numbered : Numbered w) {p p' : Packet} {handler : WebMediaHandler}
    (first : p.isRepair = false) (idle : inFlight w.worker = []) {h : WebMediaHandler}
    (departs : Departs h p p' handler) (streams : h.streams = w.handler.streams) (nowMs : Int) :
    Numbered { w with handler, worker := .popped p' nowMs } := by
  have before : w.ahead = w.log := by rw [MediaWorld.ahead, idle]; rfl
  obtain ⟨s, found, after, number⟩ := departs.stream
  rw [streams] at found
  constructor
  · intro ssrc n last
    have last : lastSequence ssrc (.handed p' :: w.log) = some n := last
    simp only [lastSequence, departs.same.1] at last
    split at last
    · rename_i here
      rw [← here.1]
      refine ⟨_, after, rfl, ?_⟩
      rw [Option.some.injEq] at last
      exact congrArg (· + 1) last
    · rename_i elsewhere
      rw [← before] at last
      obtain ⟨t, there, started, next⟩ := numbered.next ssrc n last
      by_cases same : ssrc = p.ssrc
      · exact absurd ⟨same.symm, departs.same.2.1.trans first⟩ elsewhere
      · refine ⟨t, ?_, started, next⟩
        rw [departs.others ssrc same, streams, there]
  · refine ⟨fun first n last => ?_, ?_⟩
    · rw [departs.same.1, ← before] at last
      obtain ⟨t, there, started, next⟩ := numbered.next p.ssrc n last
      rw [found, Option.some.injEq] at there
      subst there
      exact (number started).trans next
    · have consecutive := numbered.consecutive
      rwa [before] at consecutive

/-- The worker goes on, with the same packet in flight. -/
theorem Numbered.workers (numbered : Numbered w) {worker : PacerWorker}
    (flying : inFlight worker = inFlight w.worker) : Numbered { w with worker } := by
  have same : ({ w with worker } : MediaWorld).ahead = w.ahead := by
    simp only [MediaWorld.ahead, flying]
  exact numbered.go (.refl _) (same ▸ .refl _)

theorem Numbered.drain (numbered : Numbered w) (kept : Kept w.handler w.units) (affords : Bool) (us : Nat) :
    Numbered (w.drain affords us) := by
  unfold MediaWorld.drain
  split
  · rename_i nowMs working _
    exact numbered.workers (by rw [working]; rfl)
  · rename_i nowMs p packets working queue
    have idle : inFlight w.worker = [] := by rw [working]; rfl
    have before : w.ahead = w.log := by rw [MediaWorld.ahead, idle]; rfl
    have proper : Proper w.handler w.units p := kept.books.queue p (queue ▸ List.mem_cons_self)
    dsimp only
    split
    · split
      · have streams : Continues w.handler { w.handler with
            packets
            queuedBytes := w.handler.queuedBytes - p.cost } := .refl w.handler
        exact numbered.note w.units streams (quiet_cons (.expired p) fun q same => by cases same)
      · exact numbered.recover p fun q same => by cases same
    · split
      · exact numbered.workers (by rw [working]; rfl)
      · split
        · rename_i repair
          refine numbered.go (.refl _) ?_
          rw [before]
          exact .repair repair w.log
        · rename_i first
          have active : ∀ s, w.handler.streams p.ssrc = some s → s.waitingForKeyframe = false := by
            intro s found
            by_contra waits
            have cleared := kept.silent p.ssrc s found (Bool.eq_true_of_not_eq_false waits)
            exact cleared.1 p (queue ▸ List.mem_cons_self) rfl
          obtain ⟨_, departs, _⟩ :=
            departs_spec (kept.take queue) (proper.later (fun _ => id) le_rfl) active nowMs us
          generalize WebMediaHandler.departs _ p nowMs us = departed at departs ⊢
          obtain ⟨p', handler⟩ := departed
          exact numbered.departs (Bool.eq_false_iff.mpr first) idle departs rfl nowMs
  · exact numbered

theorem Numbered.hand (numbered : Numbered w) : Numbered w.hand := by
  unfold MediaWorld.hand
  split
  · rename_i p nowMs working
    refine numbered.go (.refl _) ?_
    rw [MediaWorld.ahead, MediaWorld.ahead, working]
    exact .refl _
  · exact numbered

theorem Numbered.sent (numbered : Numbered w) (failed : Bool) : Numbered (w.sent failed) := by
  unfold MediaWorld.sent
  split
  · rename_i p nowMs working
    have draining : Numbered { w with worker := .draining nowMs } :=
      numbered.workers (by rw [working]; rfl)
    dsimp only
    split
    · exact draining.recover p fun q same => by cases same
    · exact draining
  · exact numbered

theorem Numbered.apply (numbered : Numbered w) (kept : Kept w.handler w.units) (e : MediaEvent) :
    Numbered (w.apply e) := by
  cases e with
  | registerStream ssrc =>
    simp only [MediaWorld.apply, WebMediaHandler.registerStream]
    split
    · rename_i missing
      refine numbered.go (continues_setStream fun t there => ?_) (.refl _)
      rw [missing] at there
      cases there
    · exact numbered
  | setFrameDeadline deadlineMs => exact numbered.go (.refl _) (.refl _)
  | outgoing messages nowMs => exact numbered.outgoing messages nowMs
  | incoming messages nowMs affords =>
    exact numbered.go (kept.incoming messages nowMs affords).2.continues (.refl _)
  | wake budget nowMs =>
    simp only [MediaWorld.apply]
    split
    · rename_i idle
      refine numbered.go (.refl _) ?_
      rw [MediaWorld.ahead, MediaWorld.ahead, idle]
      exact .refl _
    · exact numbered
  | drain affords us => exact numbered.drain kept affords us
  | hand => exact numbered.hand
  | sent failed => exact numbered.sent failed

/-! ### Runs -/

/-- What the media handler promises. -/
structure Paced (w : MediaWorld) : Prop where
  queued : w.handler.queuedBytes = (w.handler.packets.map Packet.cost).sum ∧ 0 ≤ w.handler.queuedBytes
  cached : w.handler.cacheBytes = w.handler.cache.total cachedSize ∧ 0 ≤ w.handler.cacheBytes
  silent : ∀ ssrc s, w.handler.streams ssrc = some s → s.waitingForKeyframe = true →
    Cleared w.handler ssrc
  decodable : Decodable original w.log
  consecutive : Consecutive w.log

theorem Flow.paces (flow : Flow w) (numbered : Numbered w) : Paced w := by
  have books := flow.kept.books
  refine ⟨⟨books.queued, ?_⟩, ⟨books.cached, ?_⟩, flow.kept.silent, flow.decodable, ?_⟩
  · rw [books.queued]
    refine List.sum_nonneg fun cost member => ?_
    obtain ⟨p, _, rfl⟩ := List.mem_map.mp member
    simp only [Packet.cost, Message.size, kPacketOverhead]
    omega
  · rw [books.cached]
    exact SortedMap.total_nonneg _ fun e _ => Int.natCast_nonneg _
  · have consecutive := numbered.consecutive
    unfold MediaWorld.ahead at consecutive
    generalize inFlight w.worker = flying at consecutive
    induction flying with
    | nil => exact consecutive
    | cons p rest ih => exact ih consecutive.2

theorem flow_empty : Flow {} := by
  refine ⟨⟨⟨rfl, rfl, ?_, ?_⟩, ?_⟩, ?_, ?_, ?_, ?_, ?_, trivial⟩
  · exact fun p member => absurd member List.not_mem_nil
  · exact fun e member => absurd member List.not_mem_nil
  · exact fun ssrc s found => by cases found
  · exact fun p working => by cases working
  · exact fun ssrc => List.Pairwise.nil
  · exact fun ssrc unit member => absurd member List.not_mem_nil
  · exact fun ssrc => trivial
  · exact fun ssrc s found => by cases found

theorem numbered_empty : Numbered {} :=
  ⟨fun _ _ last => absurd last (Option.some_ne_none _).symm, trivial⟩

/-- In every run the bytes of the queue and of the cache are counted right, a stream that waits for
a key frame has nothing in either, what is handed over can be decoded, and is numbered without gaps. -/
theorem paced {w : MediaWorld}
    (reachable : Runs.Reachable (· = {}) (Runs.Steps fun w e w' => w.apply e = w') w) : Paced w := by
  have both : Flow w ∧ Numbered w := by
    refine @Runs.Reachable.invariant _ _ _ (fun w => Flow w ∧ Numbered w) ?_ ?_ _ reachable
    · rintro _ rfl
      exact ⟨flow_empty, numbered_empty⟩
    · rintro w _ ⟨flow, numbered⟩ ⟨e, _, rfl⟩
      exact ⟨flow.apply e, numbered.apply flow.kept e⟩
  exact both.1.paces both.2

/-! ### A run

A frame is taken from the queue, and before it is handed over the browser asks for the frame before
it and a key frame takes the place of what is queued. -/

def rtpMessage (nalu : BitVec 8) : Message := { data := [0x80, 96, 0, 7, 0, 0, 0, 0, 0, 0, 0, 1, nalu] }

def nackMessage (seq : BitVec 16) : Message where
  control := true
  data := [0x81, 205, 0, 3, 0, 0, 0, 0, 0, 0, 0, 1] ++ Wire.put16 seq ++ [0, 0]

def sends (nowMs : Int) : List MediaEvent :=
  [.wake { networkBps := 1000000 } nowMs, .drain true 0, .hand, .sent false, .drain true 0]

def overtaken : List MediaEvent :=
  [.registerStream 1, .wake { networkBps := 1000000 } 0, .drain true 0, .outgoing [rtpMessage 0x65] 1] ++
    sends 5 ++ [.outgoing [rtpMessage 0x41] 10] ++ sends 15 ++
    [.outgoing [rtpMessage 0x41] 20, .wake { networkBps := 1000000 } 25, .drain true 0,
      .incoming [nackMessage 8] 26 fun _ _ => true, .outgoing [rtpMessage 0x65] 27, .hand]

theorem paced_overtaken : Paced (run {} overtaken) :=
  paced (Runs.Reachable.foldl overtaken (.start rfl))

/-- The key frame discards the repair of the frame before, and the later frame is handed over. -/
theorem repair_discarded : ∃ w, Runs.Reachable (· = {}) (Runs.Steps fun w e w' => MediaWorld.apply w e = w') w ∧
    ¬ Decodable (fun _ => true) w.log := by
  refine ⟨run {} overtaken, Runs.Reachable.foldl overtaken (.start rfl), fun decodable => ?_⟩
  have later := decodable.1 rfl rfl 1 (by decide)
  exact absurd later (by decide)

end MediaWorld

end MiniRtc.Web
