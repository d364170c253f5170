import MiniRtc.Video.Insertion

/-! The packets of one frame among packets of other timestamps, for every codec.
What a packetizer has to show is that the receiver sees its packets as a frame. -/
namespace MiniRtc.Video
open Wire Wrapping Rtp

/-- The packet is one of the frame, or of another timestamp with a number of its own. -/
def OwnOrOther (packets : List RtpPacket) (timestamp : BitVec 32) (p : RtpPacket) : Prop :=
  p ∈ packets ∨ p.timestamp ≠ timestamp ∧ ∀ q ∈ packets, p.sequenceNumber ≠ q.sequenceNumber

/-- What one more packet does after some others. -/
structure Reassembles {P : Type} (cfg : Config P) (timestamp : BitVec 32) (packets : List RtpPacket)
    (expected : CompleteFrame → Prop) (input : List Arrival) (next : Arrival)
    (committed : Option CompleteFrame) : Prop where
  commit : commits (insertAll cfg {} (input ++ [next])) = commits (insertAll cfg {} input) ++
    (committed.map fun f => (next.media.stamp, f)).toList
  exactly : (∃ f, committed = some f ∧ f.timestamp = timestamp) ↔
    ∀ p ∈ packets, p ∈ sinceComplete packets (input.map fun a => a.media.packet) ++ [next.media.packet]
  content : ∀ f, committed = some f → f.timestamp = timestamp → expected f
  pending : ∀ f, committed = some f → ∃ entry,
    (insertAll cfg {} (input ++ [next])).find next.media.stamp = some entry ∧
      entry.isComplete = true ∧ entry.frame = some f.frame ∧ entry.isKeyframe = f.isKeyframe

/-- Depacketizing keeps the timestamp and the number. -/
def VideoCodec.KeepsFields {P : Type} (codec : VideoCodec P) : Prop :=
  ∀ (m : MediaPacket) (q : P), codec.depacketize m.packet = some q →
    codec.timestamp q = m.packet.timestamp ∧ codec.sequenceNumber q = m.packet.sequenceNumber

section Fragments

variable {P : Type} {codec : VideoCodec P} (keeps : codec.KeepsFields)
include keeps

theorem completes_timestamp (a : Assembly P) (m : MediaPacket) {f : CompleteFrame}
    (completed : completes codec a m.packet = some f) : f.timestamp = m.packet.timestamp := by
  unfold completes at completed
  split at completed
  · split at completed
    · cases completed
    · rename_i q read
      have stamp := (keeps m q read).1
      split at completed
      · cases completed
        exact stamp
      · obtain ⟨_, _, _, _, _, _, _, _, rfl, _⟩ := checkFrameCompleted_eq_some completed
        exact stamp
      · cases completed
  · cases completed

end Fragments

theorem fragmentView_read {P : Type} {codec : VideoCodec P} {p : RtpPacket} {q : P}
    (seen : fragmentView codec p = some q) :
    codec.depacketize p = some q ∧ codec.unitKind q = .fragment := by
  unfold fragmentView at seen
  split at seen
  · have filtered := Option.filter_eq_some_iff.mp seen
    exact ⟨filtered.1, of_decide_eq_true filtered.2⟩
  · cases seen

theorem IsFrame.nodup {P : Type} {c : Codec P} {timestamp : BitVec 32} {start : BitVec 16}
    {packets : List P} (frame : IsFrame c timestamp start packets) : packets.Nodup := by
  simp only [List.nodup_iff_getElem?_ne_getElem?]
  intro i j order inside same
  simp only [List.getElem?_eq_getElem (Nat.lt_trans order inside), List.getElem?_eq_getElem inside,
    Option.some.injEq] at same
  have equal := congrArg c.sequenceNumber same
  simp only [frame.number] at equal
  have := frame.index_inj (Nat.lt_trans order inside) inside equal
  omega

/-- The packets that a packetizer emitted, and the frame as the receiver sees it. -/
structure SeenAs {P : Type} (codec : VideoCodec P) (own : List RtpPacket) (packets : List P)
    (timestamp : BitVec 32) (start : BitVec 16) : Prop where
  frame : IsFrame codec.toCodec timestamp start packets
  viewed : own.map (fragmentView codec) = packets.map some
  numbers : own.map RtpPacket.sequenceNumber = packets.map codec.sequenceNumber

section Seen

variable {P : Type} {codec : VideoCodec P} (keeps : codec.KeepsFields) {own : List RtpPacket}
  {packets : List P} {timestamp : BitVec 32} {start : BitVec 16}
  (seen : SeenAs codec own packets timestamp start)
include seen

theorem SeenAs.nodup : own.Nodup := by
  have images := seen.frame.nodup.map (Option.some_injective P)
  rw [← seen.viewed] at images
  exact images.of_map

theorem SeenAs.nonempty : own ≠ [] := by
  intro empty
  have viewed := seen.viewed
  simp only [empty, List.map_nil] at viewed
  exact seen.frame.nonempty (List.map_eq_nil_iff.mp viewed.symm)

theorem SeenAs.view {p : RtpPacket} (member : p ∈ own) :
    ∃ q ∈ packets, fragmentView codec p = some q := by
  have image : fragmentView codec p ∈ packets.map some := by
    rw [← seen.viewed]
    exact List.mem_map_of_mem member
  obtain ⟨q, there, same⟩ := List.mem_map.mp image
  exact ⟨q, there, same.symm⟩

include keeps

theorem SeenAs.own_timestamp {m : MediaPacket} (member : m.packet ∈ own) :
    m.packet.timestamp = timestamp := by
  obtain ⟨q, there, view⟩ := seen.view member
  exact (keeps m q (fragmentView_read view).1).1.symm.trans (seen.frame.stamp q there)

theorem SeenAs.known {m : MediaPacket} (known : OwnOrOther own timestamp m.packet) :
    Known codec.toCodec (fragmentView codec) own packets timestamp m.packet := by
  rcases known with member | ⟨stamp, number⟩
  · exact .inl member
  · refine .inr ⟨fun member => stamp (seen.own_timestamp keeps member), ?_⟩
    intro q view
    obtain ⟨sameStamp, sameNumber⟩ := keeps m q (fragmentView_read view).1
    refine ⟨sameStamp ▸ stamp, ?_⟩
    intro r there
    have image : codec.sequenceNumber r ∈ own.map RtpPacket.sequenceNumber := by
      rw [seen.numbers]
      exact List.mem_map_of_mem there
    obtain ⟨p, here, same⟩ := List.mem_map.mp image
    rw [sameNumber, ← same]
    exact number p here

/-- The frame is committed by the last packet that is missing, and whole. -/
theorem SeenAs.completes (cfg : Config P) (same : cfg.codec = codec) (input : List Arrival)
    (m : MediaPacket) (others : ∀ a ∈ input, OwnOrOther own timestamp a.media.packet)
    (known : OwnOrOther own timestamp m.packet) :
    ((∃ f, Video.completes codec (insertAll cfg {} input).assembly m.packet = some f ∧
        f.timestamp = timestamp) ↔
      ∀ p ∈ own, p ∈ sinceComplete own (input.map fun a => a.media.packet) ++ [m.packet]) ∧
    ∀ f, Video.completes codec (insertAll cfg {} input).assembly m.packet = some f →
      f.timestamp = timestamp → f = Assembly.assembled codec.toCodec timestamp
        (sequenceNumberAt start (packets.length - 1)) packets := by
  have holds := holds_acceptAll seen.frame seen.viewed seen.nodup (input.map fun a => a.media.packet) (by
    intro p member
    obtain ⟨a, there, rfl⟩ := List.mem_map.mp member
    exact seen.known keeps (others a there))
  have assembly := (insertAll_assembly cfg input).2
  rw [same] at assembly
  rw [← assembly] at holds
  obtain ⟨_, exactly, content⟩ := holds.accept seen.frame seen.viewed seen.nodup
    (sinceComplete_waiting seen.nonempty _) m.packet (seen.known keeps known)
  -- a unit of its own is of another timestamp, so that only the assembly matters
  have through : ∀ f, f.timestamp = timestamp →
      (Video.completes codec (insertAll cfg {} input).assembly m.packet = some f ↔
        ((insertAll cfg {} input).assembly.accept codec.toCodec (fragmentView codec) m.packet).2 =
          some f) := by
    intro f stamp
    by_cases single : ∃ q, codec.depacketize m.packet = some q ∧ codec.unitKind q = .single
    · obtain ⟨q, read, kind⟩ := single
      have unseen : fragmentView codec m.packet = none := by
        cases view : fragmentView codec m.packet with
        | none => rfl
        | some q' =>
          obtain ⟨read', kind'⟩ := fragmentView_read view
          cases Option.some.inj (read.symm.trans read')
          cases kind.symm.trans kind'
      have foreign : m.packet.timestamp ≠ timestamp := by
        rcases known with member | other
        · obtain ⟨q', _, view⟩ := seen.view member
          cases unseen.symm.trans view
        · exact other.1
      rw [Assembly.accept, unseen]
      constructor
      · intro completed
        exact absurd ((completes_timestamp keeps _ m completed).symm.trans stamp) foreign
      · rintro ⟨⟩
    · rw [completes_eq_accept codec _ _ fun q read kind => single ⟨q, read, kind⟩]
  refine ⟨?_, fun f completed stamp => content f ((through f stamp).mp completed) stamp⟩
  rw [← exactly]
  exact exists_congr fun f => and_congr_left fun stamp => through f stamp

end Seen

section Run

variable {P : Type} (cfg : Config P) {packets : List RtpPacket} {timestamp : BitVec 32}
  {expected : CompleteFrame → Prop}

/-- What every single insertion completes is what a run commits. -/
theorem reassembles
    (each : ∀ (input : List Arrival) (m : MediaPacket),
      (∀ a ∈ input, OwnOrOther packets timestamp a.media.packet) →
      OwnOrOther packets timestamp m.packet →
      ((∃ f, completes cfg.codec (insertAll cfg {} input).assembly m.packet = some f ∧
          f.timestamp = timestamp) ↔
        ∀ p ∈ packets, p ∈ sinceComplete packets (input.map fun a => a.media.packet) ++ [m.packet]) ∧
      ∀ f, completes cfg.codec (insertAll cfg {} input).assembly m.packet = some f →
        f.timestamp = timestamp → expected f)
    (input : List Arrival) (others : ∀ a ∈ input, OwnOrOther packets timestamp a.media.packet) :
    (∀ c ∈ commits (insertAll cfg {} input), (c.2.timestamp = timestamp → expected c.2) ∧
      ∃ units, c.2.Genuine cfg.codec (input.map fun a => a.media.packet) units) ∧
    ∀ next : Arrival, OwnOrOther packets timestamp next.media.packet →
      ∃ committed, Reassembles cfg timestamp packets expected input next committed := by
  refine ⟨?_, ?_⟩
  · intro c member
    obtain ⟨before, next, after, rfl, completed⟩ := commits_insertAll cfg input c member
    obtain ⟨units, genuine⟩ := completes_genuine cfg before next.media.packet c.2 completed
    have content := (each before next.media (fun a there => others a (by simp [there]))
      (others next (by simp))).2 c.2 completed
    exact ⟨content, units, genuine.mono (by simp)⟩
  · intro next known
    obtain ⟨exactly, content⟩ := each input next.media others known
    have inserted := insertMediaPacket_inserted cfg (insertAll cfg {} input) next.media next.recovered
      next.wait next.now (insertAll_assembly cfg input).1
    have last : insertAll cfg {} (input ++ [next]) =
        insertMediaPacket cfg (insertAll cfg {} input) next.media next.recovered next.wait next.now := by
      simp [insertAll, List.foldl_append]
    refine ⟨completes cfg.codec (insertAll cfg {} input).assembly next.media.packet, ?_, exactly, content,
      ?_⟩
    · rw [last]
      exact inserted.committed
    · rw [last]
      exact inserted.pending

end Run

end MiniRtc.Video
