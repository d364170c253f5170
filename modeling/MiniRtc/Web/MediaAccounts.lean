import MiniRtc.Web.MediaHandler

/-! What the operations of the media handler keep: the bytes of the queue and of the cache are
counted, and a stream that waits for a key frame has nothing in either. -/
namespace MiniRtc.Web
open Wire

namespace WebMediaHandler

variable {h : WebMediaHandler} {units : Nat}

/-- A packet of a known stream with an RTP header, of an access unit that has arrived. -/
structure Proper (h : WebMediaHandler) (units : Nat) (p : Packet) : Prop where
  stream : h.streams p.ssrc ≠ none
  header : 12 ≤ p.message.data.length
  unit : p.unit < units

def cachedSize (e : Nat × CachedPacket) : Int := e.2.packet.message.size

structure Books (h : WebMediaHandler) (units : Nat) : Prop where
  queued : h.queuedBytes = (h.packets.map Packet.cost).sum
  cached : h.cacheBytes = h.cache.total cachedSize
  queue : ∀ p ∈ h.packets, Proper h units p
  cache : ∀ e ∈ h.cache.entries, Proper h units e.2.packet

/-- Nothing of a stream is queued or cached. -/
def Cleared (h : WebMediaHandler) (ssrc : BitVec 32) : Prop :=
  (∀ p ∈ h.packets, p.ssrc ≠ ssrc) ∧ ∀ e ∈ h.cache.entries, e.2.packet.ssrc ≠ ssrc

def Silent (h : WebMediaHandler) : Prop :=
  ∀ ssrc s, h.streams ssrc = some s → s.waitingForKeyframe = true → Cleared h ssrc

theorem Proper.later {p : Packet} (proper : Proper h units p) {h' : WebMediaHandler} {units' : Nat}
    (streams : ∀ ssrc, h.streams ssrc ≠ none → h'.streams ssrc ≠ none) (more : units ≤ units') :
    Proper h' units' p :=
  ⟨streams _ proper.stream, proper.header, proper.unit.trans_le more⟩

/-! ### Streams -/

@[simp] theorem setStream_self (ssrc : BitVec 32) (s : StreamState) :
    (h.setStream ssrc s).streams ssrc = some s :=
  Function.update_self ..

theorem setStream_other {ssrc other : BitVec 32} (differs : other ≠ ssrc) (s : StreamState) :
    (h.setStream ssrc s).streams other = h.streams other :=
  Function.update_of_ne differs ..

theorem setStream_ne_none {ssrc : BitVec 32} {s : StreamState} {other : BitVec 32}
    (there : h.streams other ≠ none) : (h.setStream ssrc s).streams other ≠ none := by
  by_cases same : other = ssrc
  · simp [same]
  · rwa [setStream_other same]

theorem Books.setStream (books : Books h units) (ssrc : BitVec 32) (s : StreamState) :
    Books (h.setStream ssrc s) units :=
  ⟨books.queued, books.cached,
    fun p member => (books.queue p member).later (fun _ => setStream_ne_none) le_rfl,
    fun e member => (books.cache e member).later (fun _ => setStream_ne_none) le_rfl⟩

theorem Silent.setStream (silent : Silent h) {ssrc : BitVec 32} {s : StreamState}
    (cleared : s.waitingForKeyframe = true → Cleared h ssrc) : Silent (h.setStream ssrc s) := by
  intro other t found waits
  by_cases same : other = ssrc
  · subst same
    rw [setStream_self, Option.some.injEq] at found
    exact cleared (found ▸ waits)
  · rw [setStream_other same] at found
    exact silent other t found waits

theorem Books.more (books : Books h units) {units' : Nat} (more : units ≤ units') : Books h units' :=
  ⟨books.queued, books.cached, fun p member => (books.queue p member).later (fun _ => id) more,
    fun e member => (books.cache e member).later (fun _ => id) more⟩

/-! ### Discarding -/

theorem dropPackets_eq (ssrc : BitVec 32) (packets : List Packet) (queuedBytes : Int) :
    dropPackets ssrc packets queuedBytes = (packets.filter fun p => p.ssrc ≠ ssrc,
      queuedBytes - ((packets.filter fun p => p.ssrc = ssrc).map Packet.cost).sum) := by
  induction packets generalizing queuedBytes with
  | nil => simp [dropPackets]
  | cons p rest ih =>
    by_cases same : p.ssrc = ssrc
    · simp [dropPackets, same, ih, sub_sub]
    · simp [dropPackets, same, ih]

theorem sum_filter (ssrc : BitVec 32) (packets : List Packet) :
    (packets.map Packet.cost).sum = ((packets.filter fun p => p.ssrc = ssrc).map Packet.cost).sum +
      ((packets.filter fun p => p.ssrc ≠ ssrc).map Packet.cost).sum := by
  induction packets with
  | nil => rfl
  | cons p rest ih =>
    by_cases same : p.ssrc = ssrc
    · simp only [List.map_cons, List.sum_cons, same, ne_eq, not_true_eq_false, decide_true, decide_false,
        List.filter_cons_of_pos, Bool.false_eq_true, not_false_eq_true, List.filter_cons_of_neg, ih]
      omega
    · simp only [List.map_cons, List.sum_cons, same, ne_eq, not_false_eq_true, decide_true, decide_false,
        List.filter_cons_of_pos, Bool.false_eq_true, List.filter_cons_of_neg, ih]
      omega

section Cache

variable (goes : CachedPacket → Int → Bool)

theorem dropCached_subset (keys : List Nat) (cache : SortedMap Nat CachedPacket) (cacheBytes : Int) :
    ∀ e ∈ (dropCached goes keys (cache, cacheBytes)).1.entries, e ∈ cache.entries := by
  induction keys generalizing cache cacheBytes with
  | nil => exact fun e => id
  | cons key keys ih =>
    simp only [dropCached]
    split
    · split
      · exact fun e member => (SortedMap.mem_erase.mp (ih _ _ e member)).1
      · exact ih cache cacheBytes
    · exact ih cache cacheBytes

theorem dropCached_total (keys : List Nat) (cache : SortedMap Nat CachedPacket) (cacheBytes : Int)
    (counted : cacheBytes = cache.total cachedSize) :
    (dropCached goes keys (cache, cacheBytes)).2 =
      (dropCached goes keys (cache, cacheBytes)).1.total cachedSize := by
  induction keys generalizing cache cacheBytes with
  | nil => exact counted
  | cons key keys ih =>
    simp only [dropCached]
    split
    · rename_i c found
      split
      · refine ih _ _ ?_
        have sum := SortedMap.total_erase cachedSize found
        simp only [cachedSize] at sum ⊢
        rw [counted, sum]
        exact add_sub_cancel_left _ _
      · exact ih cache cacheBytes counted
    · exact ih cache cacheBytes counted

theorem dropCached_stays {g : CachedPacket → Bool} (always : ∀ c cacheBytes, goes c cacheBytes = g c)
    (keys : List Nat) (cache : SortedMap Nat CachedPacket) (cacheBytes : Int) :
    ∀ e ∈ (dropCached goes keys (cache, cacheBytes)).1.entries, e.1 ∈ keys → g e.2 = false := by
  induction keys generalizing cache cacheBytes with
  | nil => exact fun e _ absent => absurd absent List.not_mem_nil
  | cons key keys ih =>
    intro e member inKeys
    simp only [dropCached] at member
    split at member
    · rename_i c found
      split at member
      · rename_i gone
        rcases List.mem_cons.mp inKeys with same | later
        · have there := dropCached_subset goes keys _ _ e member
          exact absurd same (SortedMap.mem_erase.mp there).2
        · exact ih _ _ e member later
      · rename_i remains
        rcases List.mem_cons.mp inKeys with same | later
        · have there := dropCached_subset goes keys _ _ e member
          have only := SortedMap.eq_of_key there (SortedMap.find_eq_some.mp found) same
          rw [only, ← always c cacheBytes]
          exact Bool.eq_false_iff.mpr remains
        · exact ih _ _ e member later
    · rename_i missing
      rcases List.mem_cons.mp inKeys with same | later
      · have there := dropCached_subset goes keys _ _ e member
        exact absurd same (SortedMap.find_eq_none.mp missing e there)
      · exact ih _ _ e member later

end Cache

@[simp] theorem discardStreamPackets_packets (ssrc : BitVec 32) :
    (h.discardStreamPackets ssrc).packets = h.packets.filter fun p => p.ssrc ≠ ssrc := by
  simp [discardStreamPackets, dropPackets_eq]

@[simp] theorem discardStreamPackets_streams (ssrc : BitVec 32) :
    (h.discardStreamPackets ssrc).streams = h.streams := rfl

theorem discardStreamPackets_subset (ssrc : BitVec 32) :
    ∀ e ∈ (h.discardStreamPackets ssrc).cache.entries, e ∈ h.cache.entries :=
  dropCached_subset _ _ _ _

theorem discardStreamPackets_cleared (ssrc : BitVec 32) : Cleared (h.discardStreamPackets ssrc) ssrc := by
  constructor
  · intro p member
    simp at member
    exact member.2
  · intro e member
    have key : e.1 ∈ h.cacheKeys :=
      List.mem_map_of_mem (discardStreamPackets_subset ssrc e member)
    have stays := dropCached_stays (fun c _ => c.packet.ssrc = ssrc) (g := fun c => c.packet.ssrc = ssrc)
      (fun _ _ => rfl) h.cacheKeys h.cache h.cacheBytes e member key
    exact of_decide_eq_false stays

theorem Books.discard (books : Books h units) (ssrc : BitVec 32) :
    Books (h.discardStreamPackets ssrc) units := by
  refine ⟨?_, ?_, ?_, ?_⟩
  · have sum := sum_filter ssrc h.packets
    simp only [discardStreamPackets_packets]
    simp only [discardStreamPackets, dropPackets_eq, books.queued]
    omega
  · exact dropCached_total _ _ _ _ books.cached
  · intro p member
    rw [discardStreamPackets_packets] at member
    exact (books.queue p (List.mem_of_mem_filter member)).later (fun _ => id) le_rfl
  · intro e member
    exact (books.cache e (discardStreamPackets_subset ssrc e member)).later (fun _ => id) le_rfl

theorem Silent.discard (silent : Silent h) (ssrc : BitVec 32) : Silent (h.discardStreamPackets ssrc) := by
  intro other s found waits
  have cleared := silent other s found waits
  constructor
  · intro p member
    rw [discardStreamPackets_packets] at member
    exact cleared.1 p (List.mem_of_mem_filter member)
  · intro e member
    exact cleared.2 e (discardStreamPackets_subset ssrc e member)

theorem Books.recover (books : Books h units) (ssrc : BitVec 32) : Books (h.recover ssrc) units := by
  unfold WebMediaHandler.recover
  split
  · exact (books.setStream _ _).discard ssrc
  · exact books

theorem recover_ne_none {ssrc other : BitVec 32} (there : h.streams other ≠ none) :
    (h.recover ssrc).streams other ≠ none := by
  unfold WebMediaHandler.recover
  split
  · exact setStream_ne_none there
  · exact there

theorem recover_packets {ssrc : BitVec 32} (there : h.streams ssrc ≠ none) :
    (h.recover ssrc).packets = h.packets.filter fun p => p.ssrc ≠ ssrc := by
  obtain ⟨s, found⟩ := Option.ne_none_iff_exists'.mp there
  simp only [WebMediaHandler.recover, found]
  exact discardStreamPackets_packets ssrc

theorem recover_self {ssrc : BitVec 32} {s : StreamState} (found : (h.recover ssrc).streams ssrc = some s) :
    s.waitingForKeyframe = true ∧ ∃ t, h.streams ssrc = some t ∧ s.sequenceStarted = t.sequenceStarted ∧
      s.nextSequence = t.nextSequence := by
  unfold WebMediaHandler.recover at found
  split at found
  · rename_i t there
    rw [discardStreamPackets_streams, setStream_self, Option.some.injEq] at found
    exact ⟨found ▸ rfl, t, there, found ▸ rfl, found ▸ rfl⟩
  · rename_i missing
    rw [missing] at found
    cases found

theorem recover_other {ssrc other : BitVec 32} (differs : other ≠ ssrc) :
    (h.recover ssrc).streams other = h.streams other := by
  unfold WebMediaHandler.recover
  split
  · rw [discardStreamPackets_streams, setStream_other differs]
  · rfl

theorem Silent.recover (silent : Silent h) (ssrc : BitVec 32) : Silent (h.recover ssrc) := by
  unfold WebMediaHandler.recover
  split
  · rename_i s _
    intro other t found waits
    by_cases same : other = ssrc
    · rw [same]
      exact discardStreamPackets_cleared ssrc
    · rw [discardStreamPackets_streams, setStream_other same] at found
      have cleared := silent other t found waits
      constructor
      · intro p member
        rw [discardStreamPackets_packets] at member
        exact cleared.1 p (List.mem_of_mem_filter member)
      · intro e member
        exact cleared.2 e (discardStreamPackets_subset ssrc e member)
  · exact silent

/-! ### Access units -/

theorem addSendTimeExtension_length {packet : Bytes} (long : 12 ≤ packet.length) :
    12 ≤ (addSendTimeExtension packet).length := by
  simp only [addSendTimeExtension]
  split
  · exact long
  · split
    · exact long
    · rename_i inside
      have offset : headerSize packet ≤ packet.length := not_lt.mp (not_or.mp inside).2
      have grown : (packet.take (headerSize packet) ++ List.replicate 8 0 ++
          packet.drop (headerSize packet)).length = packet.length + 8 := by
        simp only [List.length_append, List.length_take, List.length_replicate, List.length_drop]
        omega
      have first : (overwrite (packet.take (headerSize packet) ++ List.replicate 8 0 ++
          packet.drop (headerSize packet)) 0 [byteAt (packet.take (headerSize packet) ++
            List.replicate 8 0 ++ packet.drop (headerSize packet)) 0 ||| 16]).length =
          packet.length + 8 := by
        rw [overwrite_length (by rw [grown]; simp), grown]
      rw [overwrite_length (by rw [first]; simp; omega), first]
      omega

theorem mediaOf_header {messages : List Message} : ∀ m ∈ mediaOf messages, 12 ≤ m.data.length := by
  intro m member
  simp only [mediaOf, List.mem_map, List.mem_filter, Bool.and_eq_true, decide_eq_true_eq] at member
  obtain ⟨m, ⟨_, _, long⟩, rfl⟩ := member
  exact addSendTimeExtension_length long

theorem Books.enqueue (books : Books h units) {packets : List Packet}
    (proper : ∀ p ∈ packets, Proper h units p) : Books (h.enqueue packets) units := by
  have counts : ∀ (ps : List Packet) (bytes : Int),
      ps.foldl (fun bytes p => bytes + p.cost) bytes = bytes + (ps.map Packet.cost).sum := by
    intro ps
    induction ps with
    | nil => simp
    | cons p rest ih => simp [ih, add_assoc]
  refine ⟨?_, books.cached, ?_, fun e member => (books.cache e member).later (fun _ => id) le_rfl⟩
  · simp [WebMediaHandler.enqueue, counts, books.queued]
  · intro p member
    rcases List.mem_append.mp member with old | new
    · exact (books.queue p old).later (fun _ => id) le_rfl
    · exact (proper p new).later (fun _ => id) le_rfl

/-- What is left of the handler after an access unit came. -/
inductive Offers (h : WebMediaHandler) (units : Nat) : Outgoing → WebMediaHandler → Prop where
  | nothing : Offers h units .nothing h
  | refused {ssrc : BitVec 32} : (∀ s, h.streams ssrc = some s → s.waitingForKeyframe = true) →
      Offers h units (.refused ssrc) h
  | recovered {ssrc : BitVec 32} {s : StreamState} : h.streams ssrc = some s →
      Offers h units (.recovered ssrc) (h.recover ssrc)
  | delta {ssrc : BitVec 32} {s : StreamState} {packets : List Packet} : h.streams ssrc = some s →
      s.waitingForKeyframe = false →
      (∀ p ∈ packets, p.ssrc = ssrc ∧ p.isRepair = false ∧ p.unit = units ∧ p.keyframe = false ∧
        12 ≤ p.message.data.length) →
      Offers h units (.accepted ssrc false) (h.enqueue packets)
  | key {ssrc : BitVec 32} {s : StreamState} {packets : List Packet} : h.streams ssrc = some s →
      packets ≠ [] →
      (∀ p ∈ packets, p.ssrc = ssrc ∧ p.isRepair = false ∧ p.unit = units ∧ p.keyframe = true ∧
        12 ≤ p.message.data.length) →
      Offers h units (.accepted ssrc true) (((h.discardStreamPackets ssrc).setStream ssrc { s with
        waitingForKeyframe := false
        requestKeyframe := false }).enqueue packets)

theorem outgoing_offers (h : WebMediaHandler) (messages : List Message) (nowMs : Int) (units : Nat) :
    Offers h units (h.outgoing messages nowMs units).1 (h.outgoing messages nowMs units).2 := by
  have packets : ∀ (ssrc : BitVec 32) (deadlineMs : Int) (keyframe : Bool),
      ∀ p ∈ packetsOf (mediaOf messages) ssrc nowMs deadlineMs units keyframe, p.ssrc = ssrc ∧
        p.isRepair = false ∧ p.unit = units ∧ p.keyframe = keyframe ∧ 12 ≤ p.message.data.length := by
    intro ssrc deadlineMs keyframe p member
    obtain ⟨m, inMedia, rfl⟩ := List.mem_map.mp member
    exact ⟨rfl, rfl, rfl, rfl, mediaOf_header m inMedia⟩
  simp only [WebMediaHandler.outgoing]
  split
  · exact .nothing
  · rename_i last someMedia
    split
    · rename_i missing
      exact .refused fun s found => by simp [missing] at found
    · rename_i s found
      split
      · rename_i refuses
        exact .refused fun t there => by
          rw [found, Option.some.injEq] at there
          exact there ▸ refuses.1
      · rename_i takes
        generalize (if ((mediaOf messages).any fun m => isKeyFrame m.data) = true then 2000
          else h.frameDeadlineMs) = deadlineMs
        split
        · exact .recovered found
        · cases keyframe : (mediaOf messages).any fun m => isKeyFrame m.data with
          | true =>
            simp only [if_true]
            refine .key found ?_ (packets _ _ true)
            intro none
            rw [packetsOf, List.map_eq_nil_iff] at none
            simp [none] at someMedia
          | false =>
            simp only [Bool.false_eq_true, if_false]
            refine .delta found ?_ (packets _ _ false)
            simpa [keyframe] using takes

theorem Offers.books {result : Outgoing} {h' : WebMediaHandler} (offers : Offers h units result h')
    (books : Books h units) : Books h' (units + 1) := by
  cases offers with
  | nothing => exact books.more (Nat.le_succ _)
  | refused waits => exact books.more (Nat.le_succ _)
  | recovered found => exact (books.recover _).more (Nat.le_succ _)
  | delta found active packets =>
    refine (books.more (Nat.le_succ _)).enqueue fun p member => ?_
    obtain ⟨rfl, _, unit, _, header⟩ := packets p member
    exact ⟨by simp [found], header, by omega⟩
  | key found some packets =>
    refine (((books.discard _).setStream _ _).more (Nat.le_succ _)).enqueue fun p member => ?_
    obtain ⟨rfl, _, unit, _, header⟩ := packets p member
    exact ⟨by simp, header, by omega⟩

theorem Silent.enqueue (silent : Silent h) {ssrc : BitVec 32} {s : StreamState}
    (found : h.streams ssrc = some s) (active : s.waitingForKeyframe = false) {packets : List Packet}
    (mine : ∀ p ∈ packets, p.ssrc = ssrc) : Silent (h.enqueue packets) := by
  intro other t there waits
  have cleared := silent other t there waits
  refine ⟨fun p member => ?_, cleared.2⟩
  rcases List.mem_append.mp member with old | new
  · exact cleared.1 p old
  · rintro rfl
    have same : h.streams p.ssrc = some t := there
    rw [mine p new, found, Option.some.injEq] at same
    exact Bool.false_ne_true (active.symm.trans (same ▸ waits))

theorem Offers.silent {result : Outgoing} {h' : WebMediaHandler} (offers : Offers h units result h')
    (silent : Silent h) : Silent h' := by
  cases offers with
  | nothing => exact silent
  | refused waits => exact silent
  | recovered found => exact silent.recover _
  | delta found active packets => exact silent.enqueue found active fun p member => (packets p member).1
  | key found some packets =>
    refine Silent.enqueue ((silent.discard _).setStream ?_) (setStream_self _ _) rfl
      fun p member => (packets p member).1
    exact fun waits => absurd waits (by simp)

/-! ### RTCP -/

/-- What the pacing reads of a stream. -/
def pacing (s : StreamState) : Bool × Bool × BitVec 16 :=
  (s.waitingForKeyframe, s.sequenceStarted, s.nextSequence)

/-- What feedback does: repairs come to the head of the queue, and key frames are requested. -/
structure Answers (h h' : WebMediaHandler) : Prop where
  packets : ∃ repairs : List Packet, (∀ p ∈ repairs, p.isRepair = true) ∧ h'.packets = repairs ++ h.packets
  streams : ∀ ssrc, (h'.streams ssrc).map pacing = (h.streams ssrc).map pacing

theorem Answers.refl (h : WebMediaHandler) : Answers h h := ⟨⟨[], by simp, rfl⟩, fun _ => rfl⟩

theorem Answers.trans {h₁ h₂ h₃ : WebMediaHandler} (first : Answers h₁ h₂) (second : Answers h₂ h₃) :
    Answers h₁ h₃ := by
  obtain ⟨repairs, all, same⟩ := first.packets
  obtain ⟨more, allToo, sameToo⟩ := second.packets
  refine ⟨⟨more ++ repairs, ?_, by rw [sameToo, same, List.append_assoc]⟩,
    fun ssrc => (second.streams ssrc).trans (first.streams ssrc)⟩
  intro p member
  rcases List.mem_append.mp member with new | old
  · exact allToo p new
  · exact all p old

theorem Answers.ne_none {h' : WebMediaHandler} (answers : Answers h h') {ssrc : BitVec 32}
    (there : h.streams ssrc ≠ none) : h'.streams ssrc ≠ none := by
  intro missing
  have same := answers.streams ssrc
  rw [missing, Option.map_none, eq_comm, Option.map_eq_none_iff] at same
  exact there same

/-- What both the bytes and the silence of the streams rest on. -/
structure Kept (h : WebMediaHandler) (units : Nat) : Prop where
  books : Books h units
  silent : Silent h

theorem update_subset {cache : SortedMap Nat CachedPacket} {key : Nat} {c : CachedPacket} :
    ∀ e ∈ (cache.update key c).entries, e ∈ cache.entries ∨ e.2 = c := by
  intro e member
  obtain ⟨d, there, rfl⟩ := List.mem_map.mp member
  split
  · exact .inr rfl
  · exact .inl there

theorem Kept.requestRepair (kept : Kept h units) (ssrc : BitVec 32) (seq : BitVec 16) (nowMs : Int)
    (affords : Bool) : Kept (h.requestRepair ssrc seq nowMs affords) units ∧
      Answers h (h.requestRepair ssrc seq nowMs affords) := by
  obtain ⟨books, silent⟩ := kept
  simp only [WebMediaHandler.requestRepair]
  split
  · exact ⟨⟨books, silent⟩, .refl h⟩
  · rename_i cached found
    split
    · exact ⟨⟨books, silent⟩, .refl h⟩
    · have entry := SortedMap.find_eq_some.mp found
      have proper := books.cache _ entry
      have size := SortedMap.total_update cachedSize found (v := { cached with
        lastRepairMs := nowMs
        repairs := cached.repairs + 1 })
      refine ⟨⟨⟨?_, ?_, ?_, ?_⟩, ?_⟩, ⟨[_], by simp, rfl⟩, fun _ => rfl⟩
      · simp only [List.map_cons, List.sum_cons, books.queued]
        exact add_comm _ _
      · rw [books.cached]
        simp only [cachedSize] at size
        dsimp only
        omega
      · intro p member
        rcases List.mem_cons.mp member with rfl | old
        · exact ⟨proper.stream, proper.header, proper.unit⟩
        · exact (books.queue p old).later (fun _ => id) le_rfl
      · intro e member
        rcases update_subset e member with old | new
        · exact (books.cache e old).later (fun _ => id) le_rfl
        · rw [new]
          exact ⟨proper.stream, proper.header, proper.unit⟩
      · intro other s there waits
        have cleared := silent other s there waits
        constructor
        · intro p member
          rcases List.mem_cons.mp member with rfl | old
          · exact cleared.2 _ entry
          · exact cleared.1 p old
        · intro e member
          rcases update_subset e member with old | new
          · exact cleared.2 e old
          · rw [new]
            exact cleared.2 _ entry

theorem Kept.perform (kept : Kept h units) (nowMs : Int) (affords : BitVec 32 → BitVec 16 → Bool)
    (action : RtcpAction) : Kept (perform nowMs affords h action) units ∧
      Answers h (perform nowMs affords h action) := by
  cases action with
  | requestKeyframe ssrc =>
    simp only [WebMediaHandler.perform]
    split
    · rename_i s found
      refine ⟨⟨kept.books.setStream _ _, kept.silent.setStream fun waits => ?_⟩,
        ⟨[], by simp, rfl⟩, fun other => ?_⟩
      · exact kept.silent ssrc s found waits
      · by_cases same : other = ssrc
        · rw [same, setStream_self, found]
          rfl
        · rw [setStream_other same]
    · exact ⟨kept, .refl h⟩
  | requestRepair ssrc seq =>
    simp only [WebMediaHandler.perform]
    split
    · exact ⟨kept, .refl h⟩
    · exact kept.requestRepair ssrc seq nowMs _

theorem Kept.incoming (kept : Kept h units) (messages : List Message) (nowMs : Int)
    (affords : BitVec 32 → BitVec 16 → Bool) : Kept (h.incoming messages nowMs affords) units ∧
      Answers h (h.incoming messages nowMs affords) := by
  unfold WebMediaHandler.incoming
  generalize (messages.filter Message.control).flatMap (fun m => rtcpActions m.data.length m.data) =
    actions
  induction actions generalizing h with
  | nil => exact ⟨kept, .refl h⟩
  | cons action rest ih =>
    obtain ⟨after, answers⟩ := kept.perform nowMs affords action
    obtain ⟨final, more⟩ := ih after
    exact ⟨final, answers.trans more⟩

/-! ### Pacing -/

theorem Kept.refresh (kept : Kept h units) (budget : Budget) (nowMs : Int) :
    Kept (h.refresh budget nowMs) units := by
  obtain ⟨books, silent⟩ := kept
  refine ⟨⟨books.queued, dropCached_total _ _ _ _ books.cached, ?_, ?_⟩, ?_⟩
  · exact fun p member => (books.queue p member).later (fun _ => id) le_rfl
  · intro e member
    exact (books.cache e (dropCached_subset _ _ _ _ e member)).later (fun _ => id) le_rfl
  · intro ssrc s found waits
    have cleared := silent ssrc s found waits
    exact ⟨cleared.1, fun e member => cleared.2 e (dropCached_subset _ _ _ _ e member)⟩

/-- The head of the queue is taken. -/
theorem Kept.take (kept : Kept h units) {p : Packet} {packets : List Packet}
    (head : h.packets = p :: packets) :
    Kept { h with packets, queuedBytes := h.queuedBytes - p.cost } units := by
  obtain ⟨books, silent⟩ := kept
  refine ⟨⟨?_, books.cached, ?_, ?_⟩, ?_⟩
  · simp only [books.queued, head, List.map_cons, List.sum_cons]
    exact add_sub_cancel_left _ _
  · intro q member
    exact (books.queue q (head ▸ List.mem_cons_of_mem _ member)).later (fun _ => id) le_rfl
  · exact fun e member => (books.cache e member).later (fun _ => id) le_rfl
  · intro ssrc s found waits
    have cleared := silent ssrc s found waits
    exact ⟨fun q member => cleared.1 q (head ▸ List.mem_cons_of_mem _ member), cleared.2⟩

theorem stampSendTime_length (packet : Bytes) (us : Nat) :
    (stampSendTime packet us).length = packet.length := by
  simp only [stampSendTime]
  split
  · rfl
  · rename_i extended
    simp only [not_or, not_lt] at extended
    exact overwrite_length (by simpa using extended.2.1)

/-- The sequence number of a packet after it departs, and the stream then. -/
structure Departs (h : WebMediaHandler) (p p' : Packet) (h' : WebMediaHandler) : Prop where
  same : p'.ssrc = p.ssrc ∧ p'.isRepair = p.isRepair ∧ p'.unit = p.unit ∧ p'.keyframe = p.keyframe
  packets : h'.packets = h.packets
  others : ∀ ssrc, ssrc ≠ p.ssrc → h'.streams ssrc = h.streams ssrc
  stream : ∃ s, h.streams p.ssrc = some s ∧
    h'.streams p.ssrc = some { s with
      sequenceStarted := true
      nextSequence := p'.sequence + 1 } ∧
    (s.sequenceStarted = true → p'.sequence = s.nextSequence)

theorem sequence_overwrite {data : Bytes} (header : 12 ≤ data.length) (n : BitVec 16) :
    get16 (overwrite data 2 (put16 n)) 2 = n :=
  get16_put16 _ _ _ _ (by simp; omega)

theorem Books.freeSlot (books : Books h units) (key : Nat) :
    (h.freeSlot key).2 = (h.freeSlot key).1.total cachedSize ∧ (h.freeSlot key).1.find key = none ∧
      ∀ e ∈ (h.freeSlot key).1.entries, e ∈ h.cache.entries := by
  unfold WebMediaHandler.freeSlot
  split
  · rename_i old found
    have sum := SortedMap.total_erase cachedSize found
    refine ⟨?_, SortedMap.find_eq_none.mpr fun e member => (SortedMap.mem_erase.mp member).2,
      fun e member => (SortedMap.mem_erase.mp member).1⟩
    dsimp only
    rw [books.cached, sum]
    exact add_sub_cancel_left _ _
  · rename_i missing
    exact ⟨books.cached, missing, fun _ => id⟩

theorem departs_spec (kept : Kept h units) {p : Packet} (proper : Proper h units p)
    (active : ∀ s, h.streams p.ssrc = some s → s.waitingForKeyframe = false) (nowMs : Int) (us : Nat) :
    Kept (h.departs p nowMs us).2 units ∧ Departs h p (h.departs p nowMs us).1 (h.departs p nowMs us).2 ∧
      Proper (h.departs p nowMs us).2 units (h.departs p nowMs us).1 := by
  obtain ⟨books, silent⟩ := kept
  obtain ⟨s, found⟩ := Option.ne_none_iff_exists'.mp proper.stream
  have header : 12 ≤ (stampSendTime p.message.data us).length := by
    rw [stampSendTime_length]
    exact proper.header
  simp only [WebMediaHandler.departs, found]
  generalize chosen : (if s.sequenceStarted = true then s.nextSequence
    else get16 (stampSendTime p.message.data us) 2) = sequence
  have numbered := sequence_overwrite header sequence
  have length : (overwrite (stampSendTime p.message.data us) 2 (put16 sequence)).length =
      (stampSendTime p.message.data us).length :=
    overwrite_length (by simp; omega)
  generalize overwrite (stampSendTime p.message.data us) 2 (put16 sequence) = data at numbered length
  generalize packetKey p.ssrc _ = key
  obtain ⟨counted, absent, subset⟩ := books.freeSlot key
  let p' : Packet := { p with message := { p.message with data } }
  have proper' : ∀ {h' : WebMediaHandler}, (∀ ssrc, h.streams ssrc ≠ none → h'.streams ssrc ≠ none) →
      Proper h' units p' := fun streams => ⟨streams _ proper.stream, by rw [← length] at header; exact header,
    proper.unit⟩
  have streams : ∀ ssrc, h.streams ssrc ≠ none → (h.setStream p.ssrc { s with
      sequenceStarted := true
      nextSequence := sequence + 1 }).streams ssrc ≠ none := fun _ => setStream_ne_none
  refine ⟨⟨⟨books.queued, ?_, ?_, ?_⟩, ?_⟩, ⟨⟨rfl, rfl, rfl, rfl⟩, rfl, ?_, s, found, ?_, ?_⟩,
    proper' streams⟩
  · dsimp only
    rw [SortedMap.total_emplace cachedSize absent, counted, add_comm]
    rfl
  · exact fun q member => (books.queue q member).later streams le_rfl
  · intro e member
    rcases SortedMap.mem_insertEntry member with rfl | old
    · exact proper' streams
    · exact (books.cache e (subset e old)).later streams le_rfl
  · intro ssrc t there waits
    by_cases same : ssrc = p.ssrc
    · subst same
      have new : t = { s with sequenceStarted := true, nextSequence := sequence + 1 } :=
        (Option.some.inj ((setStream_self _ _).symm.trans there)).symm
      rw [new, active s found] at waits
      exact absurd waits Bool.false_ne_true
    · have cleared := silent ssrc t ((setStream_other same _).symm.trans there) waits
      refine ⟨cleared.1, fun e member => ?_⟩
      rcases SortedMap.mem_insertEntry member with rfl | old
      · exact fun mine => same mine.symm
      · exact cleared.2 e (subset e old)
  · exact fun ssrc other => setStream_other other _
  · refine (setStream_self _ _).trans ?_
    rw [show p'.sequence = sequence from numbered]
  · intro started
    rw [if_pos started] at chosen
    exact numbered.trans chosen.symm

end WebMediaHandler

end MiniRtc.Web
