import MiniRtc.Video.Receiver
import MiniRtc.Video.Reassembly

/-! A packet insertion that nothing interrupts.
Before anything was delivered or given up, an insertion feeds the assembly and commits
what it completes; NACK state and key frame requests make no difference to that. -/
namespace MiniRtc.Video
open Wire Wrapping Rtp

variable {P : Type}

/-- The packet that the assembly sees. -/
def fragmentView (codec : VideoCodec P) (p : RtpPacket) : Option P :=
  if p.payloadType = codec.payloadType then
    (codec.depacketize p).filter fun q => codec.unitKind q = .fragment
  else none

/-- What an insertion commits. -/
def completes (codec : VideoCodec P) (a : Assembly P) (p : RtpPacket) : Option CompleteFrame :=
  if p.payloadType = codec.payloadType then
    match codec.depacketize p with
    | none => none
    | some q =>
      match codec.unitKind q with
      | .single => some (Assembly.assembled codec.toCodec (codec.timestamp q) (codec.sequenceNumber q) [q])
      | .fragment => (a.process codec.toCodec q).2
      | .other => none
  else none

theorem fragmentView_of_read {codec : VideoCodec P} {p : RtpPacket} {q : P}
    (type : p.payloadType = codec.payloadType) (read : codec.depacketize p = some q) :
    fragmentView codec p = if codec.unitKind q = .fragment then some q else none := by
  rw [fragmentView, if_pos type, read]
  by_cases kind : codec.unitKind q = .fragment <;> simp [Option.filter, kind]

/-- Only a unit of its own is committed past the assembly. -/
theorem completes_eq_accept (codec : VideoCodec P) (a : Assembly P) (p : RtpPacket)
    (fragmented : ∀ q, codec.depacketize p = some q → codec.unitKind q ≠ .single) :
    completes codec a p = (a.accept codec.toCodec (fragmentView codec) p).2 := by
  unfold completes Assembly.accept
  by_cases type : p.payloadType = codec.payloadType
  · rw [if_pos type]
    cases read : codec.depacketize p with
    | none => simp [fragmentView, read]
    | some q =>
      rw [fragmentView_of_read type read]
      cases kind : codec.unitKind q with
      | single => exact absurd kind (fragmented q read)
      | fragment => simp only [kind, if_true]
      | other => simp [kind]
  · simp [fragmentView, type]

def commits (r : Receiver P) : List (Int × CompleteFrame) :=
  r.history.filterMap fun
    | .committed stamp f => some (stamp, f)
    | _ => none

/-- Nothing was delivered or given up yet. -/
structure Fresh (r : Receiver P) : Prop where
  complete : r.lastCompleteFrameTs = none
  discarded : r.lastDiscardedFrameTs = none

/-- One insertion into a fresh receiver: what it completes is committed and pending. -/
structure Inserted (codec : VideoCodec P) (r : Receiver P) (media : MediaPacket) (r' : Receiver P) :
    Prop where
  fresh : Fresh r'
  assembly : r'.assembly = (r.assembly.accept codec.toCodec (fragmentView codec) media.packet).1
  committed : commits r' =
    commits r ++ ((completes codec r.assembly media.packet).map fun f => (media.stamp, f)).toList
  pending : ∀ f, completes codec r.assembly media.packet = some f →
    ∃ entry, r'.find media.stamp = some entry ∧ entry.isComplete = true ∧
      entry.frame = some f.frame ∧ entry.isKeyframe = f.isKeyframe

theorem find_storeIn (stamp : Int) (entry : PendingFrame) (l : List (Int × PendingFrame)) :
    ((Receiver.storeIn stamp entry l).find? fun e => decide (rtp e.1 = rtp stamp)).map Prod.snd =
      some entry := by
  induction l with
  | nil => simp [Receiver.storeIn]
  | cons e rest ih =>
    unfold Receiver.storeIn
    by_cases same : rtp e.1 = rtp stamp
    · rw [if_pos same]
      simp [same]
    · rw [if_neg same]
      split
      · simp
      · rw [List.find?_cons_of_neg (by simpa using same)]
        exact ih

section Finish

variable (cfg : Config P) (wait : Nat) (now : Int)

@[simp] theorem finishInsertion_none (turns : Nat) (r : Receiver P) :
    finishInsertion cfg wait now turns (r, none) = r := by
  cases turns <;> rfl

theorem finishInsertion_some (turns : Nat) (r : Receiver P) (i : Insertion P) :
    finishInsertion cfg wait now (turns + 1) (r, some i) =
      finishInsertion cfg wait now turns (advance cfg r i wait now) := rfl

/-- A commit that is not refused for want of an entry. -/
theorem commitPendingFrame_spec (r : Receiver P) (stamp number : Int) (f : CompleteFrame)
    (require : Bool) (begun : Nat) (nowMs : Int) (there : require = true → (r.find stamp).isSome) :
    let r' := r.commitPendingFrame stamp number f require begun nowMs
    r'.assembly = r.assembly ∧ commits r' = commits r ++ [(stamp, f)] ∧
      r'.lastCompleteFrameTs = r.lastCompleteFrameTs ∧
      r'.lastDiscardedFrameTs = r.lastDiscardedFrameTs ∧
      ∃ entry, r'.find stamp = some entry ∧ entry.isComplete = true ∧ entry.frame = some f.frame ∧
        entry.isKeyframe = f.isKeyframe := by
  intro r'
  have stored : ∃ entry : PendingFrame, entry.isComplete = true ∧ entry.frame = some f.frame ∧
      entry.isKeyframe = f.isKeyframe ∧ r' = { r with
        pendingFrames := Receiver.storeIn stamp entry r.pendingFrames
        history := r.history ++ [.committed stamp f] } := by
    unfold r' Receiver.commitPendingFrame
    cases existing : r.find stamp with
    | none =>
      cases require with
      | true => simp [existing] at there
      | false => exact ⟨_, rfl, rfl, rfl, rfl⟩
    | some e => exact ⟨_, rfl, rfl, rfl, rfl⟩
  obtain ⟨entry, complete, frame, key, same⟩ := stored
  rw [same]
  refine ⟨rfl, ?_, rfl, rfl, entry, find_storeIn .., complete, frame, key⟩
  simp [commits, List.filterMap_append]

omit cfg wait now in
theorem track_find (r : Receiver P) (stamp number nowMs : Int) :
    ((r.trackPendingFramePacket stamp number nowMs).find stamp).isSome := by
  unfold Receiver.trackPendingFramePacket Receiver.find
  simp only [find_storeIn, Option.isSome_some]

omit cfg wait now in
theorem track_assembly (r : Receiver P) (stamp number nowMs : Int) :
    (r.trackPendingFramePacket stamp number nowMs).assembly = r.assembly := rfl

/-- From the assembly on. -/
theorem finish_assemble (turns : Nat) (r : Receiver P) (i : Insertion P) (p : P) (fresh : Fresh r)
    (type : i.media.packet.payloadType = cfg.codec.payloadType)
    (read : cfg.codec.depacketize i.media.packet = some p) :
    Inserted cfg.codec r i.media
      (finishInsertion cfg wait now (turns + 2) (r, some { i with phase := .assemble p })) := by
  rw [finishInsertion_some]
  cases kind : cfg.codec.unitKind p with
  | single =>
    have view : fragmentView cfg.codec i.media.packet = none := by
      simp [fragmentView, type, read, kind]
    have done : completes cfg.codec r.assembly i.media.packet =
        some (Assembly.assembled cfg.codec.toCodec (cfg.codec.timestamp p)
          (cfg.codec.sequenceNumber p) [p]) := by
      simp [completes, type, read, kind]
    simp only [advance, kind, finishInsertion_none]
    obtain ⟨same, commit, complete, discarded, entry⟩ := commitPendingFrame_spec r i.media.stamp
      i.media.number (Assembly.assembled cfg.codec.toCodec (cfg.codec.timestamp p)
        (cfg.codec.sequenceNumber p) [p]) false i.begun (roundMs now) (by simp)
    refine ⟨⟨complete.trans fresh.complete, discarded.trans fresh.discarded⟩, ?_, ?_, ?_⟩
    · rw [same, Assembly.accept, view]
    · rw [commit, done]
      rfl
    · rw [done]
      rintro f ⟨⟩
      exact entry
  | fragment =>
    have view : fragmentView cfg.codec i.media.packet = some p := by
      simp [fragmentView, type, read, kind]
    have done : completes cfg.codec r.assembly i.media.packet =
        (r.assembly.process cfg.codec.toCodec p).2 := by
      simp [completes, type, read, kind]
    simp only [advance, kind, finishInsertion_some]
    have tracked := track_find { r with assembly := r.assembly.store cfg.codec.toCodec p }
      i.media.stamp i.media.number (roundMs now)
    cases completed : (r.assembly.process cfg.codec.toCodec p).2 with
    | none =>
      have nothing : ((r.assembly.store cfg.codec.toCodec p).checkFrameCompleted cfg.codec.toCodec p).2 =
        none := completed
      simp only [track_assembly, nothing, finishInsertion_none]
      refine ⟨⟨fresh.complete, fresh.discarded⟩, ?_, ?_, ?_⟩
      · rw [Assembly.accept, view]
        rfl
      · rw [done, completed]
        exact (List.append_nil _).symm
      · rw [done, completed]
        rintro f ⟨⟩
    | some f =>
      have some : ((r.assembly.store cfg.codec.toCodec p).checkFrameCompleted cfg.codec.toCodec p).2 =
        some f := completed
      simp only [track_assembly, some, finishInsertion_none]
      obtain ⟨same, commit, complete, discarded, entry⟩ := commitPendingFrame_spec
        { ({ r with assembly := r.assembly.store cfg.codec.toCodec p } : Receiver P).trackPendingFramePacket
            i.media.stamp i.media.number (roundMs now) with
          assembly := ((r.assembly.store cfg.codec.toCodec p).checkFrameCompleted cfg.codec.toCodec p).1 }
        i.media.stamp i.media.number f true i.begun (roundMs now) (fun _ => tracked)
      refine ⟨⟨complete.trans fresh.complete, discarded.trans fresh.discarded⟩, ?_, ?_, ?_⟩
      · rw [same, Assembly.accept, view]
        rfl
      · rw [commit, done, completed]
        rfl
      · rw [done, completed]
        rintro g ⟨⟩
        exact entry
  | other =>
    have view : fragmentView cfg.codec i.media.packet = none := by
      simp [fragmentView, type, read, kind]
    have done : completes cfg.codec r.assembly i.media.packet = none := by
      simp [completes, type, read, kind]
    simp only [advance, kind, finishInsertion_none]
    refine ⟨fresh, ?_, ?_, ?_⟩
    · rw [Assembly.accept, view]
    · rw [done]
      simp
    · rw [done]
      rintro f ⟨⟩

/-- From the depacketizer on. -/
theorem finish_afterNack (turns : Nat) (r : Receiver P) (i : Insertion P) (fresh : Fresh r)
    (plain : i.padding = false) (type : i.media.packet.payloadType = cfg.codec.payloadType) :
    Inserted cfg.codec r i.media (finishInsertion cfg wait now (turns + 2) (r, afterNack cfg i)) := by
  rw [afterNack, if_neg (by simp [plain])]
  cases read : cfg.codec.depacketize i.media.packet with
  | none =>
    simp only [finishInsertion_some, advance, finishInsertion_none]
    refine ⟨⟨fresh.complete, fresh.discarded⟩, ?_, ?_, ?_⟩
    · simp [Assembly.accept, fragmentView, read, Receiver.requestKeyFrame]
    · simp [completes, read, commits, Receiver.requestKeyFrame]
    · simp [completes, read]
  | some p => exact finish_assemble cfg wait now turns r i p fresh type read

/-- The same result whatever the NACK state is and whether a key frame was requested. -/
theorem Inserted.of_same {codec : VideoCodec P} {r s r' : Receiver P} {media : MediaPacket}
    (inserted : Inserted codec s media r') (assembly : s.assembly = r.assembly)
    (same : commits s = commits r) : Inserted codec r media r' := by
  obtain ⟨fresh, result, commit, pending⟩ := inserted
  rw [assembly] at result commit pending
  rw [same] at commit
  exact ⟨fresh, result, commit, pending⟩

/-- From the NACK region on. -/
theorem finish_nack (turns : Nat) (r : Receiver P) (i : Insertion P) (fresh : Fresh r)
    (plain : i.padding = false) (type : i.media.packet.payloadType = cfg.codec.payloadType) :
    Inserted cfg.codec r i.media
      (finishInsertion cfg wait now (turns + 4) (r, some { i with phase := .nack })) := by
  simp only [finishInsertion_some, advance]
  generalize r.nack.onReceivedPacket i.media.number i.recovered wait now = result
  cases overflow : result.2.keyframeRequestPending with
  | false =>
    simp only [NackRequester.consumeKeyFrameRequest, overflow, Bool.false_eq_true, if_false]
    refine Inserted.of_same (finish_afterNack cfg wait now (turns + 1) _ { i with phase := .nack } ?_
      plain type) rfl rfl
    exact ⟨fresh.complete, fresh.discarded⟩
  | true =>
    simp only [NackRequester.consumeKeyFrameRequest, overflow, if_true, finishInsertion_some, advance]
    refine Inserted.of_same (finish_afterNack cfg wait now turns _ { i with phase := .requestKeyFrame }
      ?_ plain type) rfl (by simp [commits, Receiver.requestKeyFrame])
    exact ⟨fresh.complete, fresh.discarded⟩

end Finish

/-- `InsertMediaPacket` on a fresh receiver. -/
theorem insertMediaPacket_inserted (cfg : Config P) (r : Receiver P) (media : MediaPacket)
    (recovered : Bool) (wait : Nat) (now : Int) (fresh : Fresh r) :
    Inserted cfg.codec r media (insertMediaPacket cfg r media recovered wait now) := by
  unfold insertMediaPacket startInsertion
  by_cases type : media.packet.payloadType = cfg.codec.payloadType
  · rw [if_pos type]
    have current : r.isFrameTimestampObsolete media.stamp = false := by
      simp [Receiver.isFrameTimestampObsolete, fresh.complete, fresh.discarded]
    rw [finishInsertion_some]
    simp only [advance, current, Bool.false_eq_true, if_false]
    cases rtx : cfg.rtxEnabled with
    | true =>
      exact finish_nack cfg wait now 0 r
        { media, recovered, padding := false, phase := .check, begun := r.history.length } fresh rfl type
    | false =>
      exact finish_afterNack cfg wait now 2 r
        { media, recovered, padding := false, phase := .check, begun := r.history.length } fresh rfl type
  · rw [if_neg type]
    have view : fragmentView cfg.codec media.packet = none := by simp [fragmentView, type]
    have none : completes cfg.codec r.assembly media.packet = none := by simp [completes, type]
    have same : ∀ r' : Receiver P, r'.assembly = r.assembly → commits r' = commits r → Fresh r' →
        Inserted cfg.codec r media r' := by
      intro r' assembly commit fresh'
      refine ⟨fresh', ?_, ?_, ?_⟩
      · rw [assembly, Assembly.accept, view]
      · rw [commit, none]
        exact (List.append_nil _).symm
      · rw [none]
        rintro f ⟨⟩
    split
    · -- padding reaches the NACK region and no further
      simp only [finishInsertion_some, advance]
      generalize r.nack.onReceivedPacket media.number recovered wait now = result
      cases overflow : result.2.keyframeRequestPending with
      | false =>
        simp only [NackRequester.consumeKeyFrameRequest, overflow, afterNack]
        exact same _ rfl rfl ⟨fresh.complete, fresh.discarded⟩
      | true =>
        simp only [NackRequester.consumeKeyFrameRequest, overflow, if_true, finishInsertion_some, advance,
          afterNack]
        exact same _ rfl (by simp [commits, Receiver.requestKeyFrame])
          ⟨fresh.complete, fresh.discarded⟩
    · rw [finishInsertion_none]
      exact same r rfl rfl fresh

/-- A call of `InsertMediaPacket` with what it depends on besides the packet. -/
structure Arrival where
  media : MediaPacket
  recovered : Bool
  wait : Nat
  now : Int

def insertAll (cfg : Config P) (r : Receiver P) (input : List Arrival) : Receiver P :=
  input.foldl (fun r a => insertMediaPacket cfg r a.media a.recovered a.wait a.now) r

/-- After any insertions the assembly has seen the fragments among them. -/
theorem insertAll_assembly (cfg : Config P) (input : List Arrival) :
    Fresh (insertAll cfg {} input) ∧ (insertAll cfg {} input).assembly =
      Assembly.acceptAll cfg.codec.toCodec (fragmentView cfg.codec) {}
        (input.map fun a => a.media.packet) := by
  induction input using List.reverseRecOn with
  | nil => exact ⟨⟨rfl, rfl⟩, rfl⟩
  | append_singleton input a ih =>
    obtain ⟨fresh, assembly⟩ := ih
    have inserted := insertMediaPacket_inserted cfg _ a.media a.recovered a.wait a.now fresh
    simp only [insertAll, List.foldl_append, List.foldl_cons, List.foldl_nil]
    refine ⟨inserted.fresh, inserted.assembly.trans ?_⟩
    simp only [Assembly.acceptAll, List.map_append, List.foldl_append, List.map_cons, List.map_nil,
      List.foldl_cons, List.foldl_nil]
    rw [assembly]
    rfl

/-- Every commit of a run is the commit of one of its insertions. -/
theorem commits_insertAll (cfg : Config P) (input : List Arrival) :
    ∀ c ∈ commits (insertAll cfg {} input), ∃ before next after, input = before ++ next :: after ∧
      completes cfg.codec (insertAll cfg {} before).assembly next.media.packet = some c.2 := by
  induction input using List.reverseRecOn with
  | nil => simp [insertAll, commits]
  | append_singleton input a ih =>
    have inserted := insertMediaPacket_inserted cfg (insertAll cfg {} input) a.media a.recovered a.wait
      a.now (insertAll_assembly cfg input).1
    have last : insertAll cfg {} (input ++ [a]) =
        insertMediaPacket cfg (insertAll cfg {} input) a.media a.recovered a.wait a.now := by
      simp [insertAll, List.foldl_append]
    intro c member
    rw [last, inserted.committed] at member
    rcases List.mem_append.mp member with earlier | now
    · obtain ⟨before, next, after, rfl, completed⟩ := ih c earlier
      exact ⟨before, next, after ++ [a], by simp, completed⟩
    · rw [Option.mem_toList, Option.map_eq_some_iff] at now
      obtain ⟨f, completed, rfl⟩ := now
      exact ⟨input, a, [], rfl, completed⟩

theorem acceptAll_eq_processAll {Q : Type} (c : Codec P) (view : Q → Option P) (a : Assembly P)
    (input : List Q) : Assembly.acceptAll c view a input = Assembly.processAll c a (input.filterMap view) := by
  induction input generalizing a with
  | nil => rfl
  | cons q rest ih =>
    have step : Assembly.acceptAll c view a (q :: rest) =
        Assembly.acceptAll c view (a.accept c view q).1 rest := rfl
    rw [step, ih]
    cases seen : view q with
    | none => rw [List.filterMap_cons_none seen, Assembly.accept, seen]
    | some p =>
      rw [List.filterMap_cons_some seen, Assembly.accept, seen]
      rfl

/-- A frame as an insertion commits it: a unit of its own, or consecutive packets of one
timestamp from one that starts a frame to one that ends it. -/
def CompleteFrame.Genuine (codec : VideoCodec P) (arrived : List RtpPacket) (f : CompleteFrame)
    (packets : List P) : Prop :=
  (∃ p ∈ arrived, ∃ q, codec.depacketize p = some q ∧ packets = [q] ∧ codec.timestamp q = f.timestamp ∧
      f.frame = codec.header q ++ codec.payload q) ∨
    f.Whole codec.toCodec (arrived.filterMap (fragmentView codec)) packets

theorem CompleteFrame.Genuine.mono {codec : VideoCodec P} {arrived more : List RtpPacket}
    {f : CompleteFrame} {packets : List P} (genuine : f.Genuine codec arrived packets)
    (subset : arrived ⊆ more) : f.Genuine codec more packets := by
  have seen : ∀ q ∈ arrived.filterMap (fragmentView codec), q ∈ more.filterMap (fragmentView codec) := by
    intro q member
    obtain ⟨p, there, view⟩ := List.mem_filterMap.mp member
    exact List.mem_filterMap.mpr ⟨p, subset there, view⟩
  rcases genuine with ⟨p, there, single⟩ | whole
  · exact .inl ⟨p, subset there, single⟩
  · obtain ⟨first, start, isStart⟩ := whole.start
    obtain ⟨final, last, isEnd⟩ := whole.last
    exact .inr { whole with
      came := fun p member => ⟨seen p (whole.came p member).1, (whole.came p member).2⟩
      start := ⟨first, seen first start, isStart⟩
      last := ⟨final, seen final last, isEnd⟩ }

/-- Whatever comes in, no committed frame mixes two timestamps or lacks a part. -/
theorem completes_genuine (cfg : Config P) (input : List Arrival) (p : RtpPacket) (f : CompleteFrame)
    (completed : completes cfg.codec (insertAll cfg {} input).assembly p = some f) :
    ∃ packets, f.Genuine cfg.codec ((input.map fun a => a.media.packet) ++ [p]) packets := by
  unfold completes at completed
  split at completed
  · rename_i type
    split at completed
    · cases completed
    · rename_i q read
      split at completed
      · rw [← Option.some.inj completed]
        exact ⟨[q], .inl ⟨p, by simp, q, read, rfl, rfl, by simp [Assembly.assembled]⟩⟩
      · rename_i kind
        rw [(insertAll_assembly cfg input).2, acceptAll_eq_processAll] at completed
        obtain ⟨packets, whole⟩ := processAll_whole _ q f completed
        have view : fragmentView cfg.codec p = some q := by simp [fragmentView, type, read, kind]
        refine ⟨packets, .inr ?_⟩
        rw [List.filterMap_append]
        simpa [view] using whole
      · cases completed
  · cases completed

end MiniRtc.Video
