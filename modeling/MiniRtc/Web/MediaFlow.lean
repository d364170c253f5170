import MiniRtc.Web.MediaAccounts
import MiniRtc.Web.MediaWorker

/-! The order in which the packets of a stream are handed to `send`. The packets that are still on
their way are played forward over the losses so far: each one of them may be handed over when its
turn comes, and after all of them a stream that does not wait has made good its losses. -/
namespace MiniRtc.Web

namespace MediaWorld
open WebMediaHandler

/-! ### Playing forward -/

def original (p : Packet) : Bool := !p.isRepair

def mine (ssrc : BitVec 32) (p : Packet) : Bool := p.ssrc = ssrc && original p

/-- The losses that are left when a packet was handed over. -/
def settle (losses : List Nat) (p : Packet) : List Nat :=
  if p.keyframe then losses.filter fun unit => p.unit ≤ unit else losses

/-- Each packet may be handed over when its turn comes. -/
def Flows : List Packet → List Nat → Prop
  | [], _ => True
  | p :: rest, losses =>
    (p.keyframe = false → ∀ unit ∈ losses, p.unit ≤ unit) ∧ Flows rest (settle losses p)

@[simp] theorem settle_nil (p : Packet) : settle [] p = [] := by
  simp [settle]

theorem flows_nil (packets : List Packet) : Flows packets [] := by
  induction packets with
  | nil => trivial
  | cons p rest ih => exact ⟨fun _ unit absent => absurd absent List.not_mem_nil, by rwa [settle_nil]⟩

theorem foldl_settle_nil (packets : List Packet) : packets.foldl settle [] = [] := by
  induction packets with
  | nil => rfl
  | cons p rest ih => rwa [List.foldl_cons, settle_nil]

theorem flows_append {front rest : List Packet} {losses : List Nat} :
    Flows (front ++ rest) losses ↔ Flows front losses ∧ Flows rest (front.foldl settle losses) := by
  induction front generalizing losses with
  | nil => simp [Flows]
  | cons p front ih => simp only [List.cons_append, Flows, ih, List.foldl_cons, and_assoc]

/-- Losses in access units that are not before the packets do not hold them back. -/
theorem Flows.more {packets : List Packet} {losses extra : List Nat} (flows : Flows packets losses)
    (after : ∀ p ∈ packets, ∀ unit ∈ extra, p.unit ≤ unit) : Flows packets (extra ++ losses) := by
  induction packets generalizing losses with
  | nil => trivial
  | cons p rest ih =>
    refine ⟨fun delta unit member => ?_, ?_⟩
    · rcases List.mem_append.mp member with new | old
      · exact after p List.mem_cons_self unit new
      · exact flows.1 delta unit old
    · have kept : settle (extra ++ losses) p = extra ++ settle losses p := by
        unfold settle
        split
        · rw [List.filter_append, List.filter_eq_self.mpr]
          intro unit member
          exact decide_eq_true (after p List.mem_cons_self unit member)
        · rfl
      rw [kept]
      exact ih flows.2 fun q member => after q (List.mem_cons_of_mem _ member)

/-- A key frame after all losses makes them good. -/
theorem settle_key {packets : List Packet} {losses : List Nat} {units : Nat} (nonempty : packets ≠ [])
    (key : ∀ p ∈ packets, p.keyframe = true ∧ p.unit = units) (before : ∀ unit ∈ losses, unit < units) :
    Flows packets losses ∧ packets.foldl settle losses = [] := by
  cases packets with
  | nil => exact absurd rfl nonempty
  | cons p rest =>
    obtain ⟨isKey, unit⟩ := key p List.mem_cons_self
    have settled : settle losses p = [] := by
      rw [settle, if_pos isKey, List.filter_eq_nil_iff]
      intro lostUnit member
      have := before lostUnit member
      simpa [unit] using this
    refine ⟨⟨fun delta => absurd (isKey.symm.trans delta) (by simp), ?_⟩, ?_⟩
    · rw [settled]
      exact flows_nil rest
    · rw [List.foldl_cons, settled]
      exact foldl_settle_nil rest

/-! ### The log -/

theorem lost_discarded (ssrc : BitVec 32) (packets : List Packet) (log : List MediaEntry) :
    lost original ssrc (packets.map MediaEntry.discarded ++ log) =
      (packets.filter (mine ssrc)).map Packet.unit ++ lost original ssrc log := by
  induction packets with
  | nil => rfl
  | cons p rest ih =>
    by_cases here : p.ssrc = ssrc ∧ original p = true
    · simp [lost, mine, here, ih]
    · have skip : mine ssrc p = false := by
        simpa [mine] using here
      simp [lost, here, skip, ih]

theorem lost_discards (w : MediaWorld) (ssrc other : BitVec 32) (log : List MediaEntry) :
    lost original other (w.discards ssrc ++ log) =
      (if other = ssrc then (w.handler.packets.filter (mine ssrc)).map Packet.unit else []) ++
        lost original other log := by
  rw [discards, lost_discarded, List.filter_filter]
  split
  · rename_i same
    subst same
    congr 2
    refine List.filter_congr fun p _ => ?_
    by_cases here : p.ssrc = other <;> simp [mine, here]
  · rename_i differs
    have none : (w.handler.packets.filter fun p => mine other p && decide (p.ssrc = ssrc)) = [] := by
      refine List.filter_eq_nil_iff.mpr fun p _ both => ?_
      simp only [mine, Bool.and_eq_true, decide_eq_true_eq] at both
      exact differs (both.1.1.symm.trans both.2)
    rw [none]
    rfl

theorem decodable_discards {w : MediaWorld} {ssrc : BitVec 32} {log : List MediaEntry} :
    Decodable original (w.discards ssrc ++ log) ↔ Decodable original log := by
  unfold discards
  induction w.handler.packets.filter fun p => p.ssrc = ssrc with
  | nil => rfl
  | cons p rest ih => exact ih

/-- An entry that tells a loss of a stream. -/
structure Tells (entry : MediaEntry) (ssrc : BitVec 32) (unit : Nat) : Prop where
  here : ∀ log, lost original ssrc (entry :: log) = unit :: lost original ssrc log
  others : ∀ other, other ≠ ssrc → ∀ log, lost original other (entry :: log) = lost original other log
  quiet : ∀ log, Decodable original (entry :: log) ↔ Decodable original log

theorem tells_refused (ssrc : BitVec 32) (unit : Nat) : Tells (.refused ssrc unit) ssrc unit :=
  ⟨fun _ => if_pos rfl, fun _ differs _ => if_neg fun same => differs same.symm, fun _ => Iff.rfl⟩

theorem tells_expired {p : Packet} (first : p.isRepair = false) : Tells (.expired p) p.ssrc p.unit :=
  ⟨fun _ => if_pos ⟨rfl, by simp [original, first]⟩, fun _ differs _ => if_neg fun same => differs same.1.symm,
    fun _ => Iff.rfl⟩

theorem tells_failed (p : Packet) : Tells (.failed p) p.ssrc p.unit :=
  ⟨fun _ => if_pos rfl, fun _ differs _ => if_neg fun same => differs same.symm, fun _ => Iff.rfl⟩

/-! ### The invariant -/

/-- The packet that was taken from the queue and is not yet handed over. -/
def inFlight : PacerWorker → List Packet
  | .popped p _ => [p]
  | _ => []

def busy : PacerWorker → Option Packet
  | .popped p _ => some p
  | .sending p _ => some p
  | _ => none

/-- The packets of a stream that are still to be handed over, in their order. -/
def pending (w : MediaWorld) (ssrc : BitVec 32) : List Packet :=
  (inFlight w.worker ++ w.handler.packets).filter (mine ssrc)

structure Flow (w : MediaWorld) : Prop where
  kept : Kept w.handler w.units
  worker : ∀ p, busy w.worker = some p → Proper w.handler w.units p
  order : ∀ ssrc, (w.pending ssrc).Pairwise fun p q => p.unit ≤ q.unit
  bound : ∀ ssrc, ∀ unit ∈ lost original ssrc w.log, unit < w.units
  flows : ∀ ssrc, Flows (w.pending ssrc) (lost original ssrc w.log)
  settled : ∀ ssrc s, w.handler.streams ssrc = some s → s.waitingForKeyframe = false →
    (w.pending ssrc).foldl settle (lost original ssrc w.log) = []
  decodable : Decodable original w.log

variable {w : MediaWorld}

/-- Packets that are not yet handed over belong to access units that have arrived. -/
theorem Flow.pending_lt (flow : Flow w) (ssrc : BitVec 32) : ∀ p ∈ w.pending ssrc, p.unit < w.units := by
  intro p member
  rcases List.mem_append.mp (List.mem_of_mem_filter member) with flying | queued
  · refine (flow.worker p ?_).unit
    cases here : w.worker with
    | popped q nowMs =>
      rw [here] at flying
      rw [List.mem_singleton.mp flying]
      rfl
    | idle => simp [here, inFlight] at flying
    | draining nowMs => simp [here, inFlight] at flying
    | sending q nowMs => simp [here, inFlight] at flying
  · exact (flow.kept.books.queue p queued).unit

/-- What the order of the packets depends on. -/
def shape (p : Packet) : Nat × Bool := (p.unit, p.keyframe)

theorem flows_shape {packets packets' : List Packet} (alike : packets'.map shape = packets.map shape)
    (losses : List Nat) : (Flows packets' losses ↔ Flows packets losses) ∧
      packets'.foldl settle losses = packets.foldl settle losses := by
  induction packets generalizing packets' losses with
  | nil =>
    rw [List.map_nil, List.map_eq_nil_iff] at alike
    simp [alike]
  | cons p rest ih =>
    obtain ⟨p', rest', rfl, first, others⟩ := List.map_eq_cons_iff.mp alike
    obtain ⟨unit, keyframe⟩ := Prod.mk.inj first
    have same : settle losses p' = settle losses p := by
      simp only [settle, unit, keyframe]
    obtain ⟨flows, settled⟩ := ih others (settle losses p)
    refine ⟨?_, ?_⟩
    · rw [Flows, Flows, same, unit, keyframe, flows]
    · rw [List.foldl_cons, List.foldl_cons, same, settled]

/-- A change that the packets on their way do not notice. -/
theorem Flow.alike (flow : Flow w) {handler : WebMediaHandler} {worker : PacerWorker}
    (kept : Kept handler w.units) (proper : ∀ p, busy worker = some p → Proper handler w.units p)
    (pending : ∀ ssrc, (({ w with handler, worker } : MediaWorld).pending ssrc).map shape =
      (w.pending ssrc).map shape)
    (active : ∀ ssrc s, handler.streams ssrc = some s → s.waitingForKeyframe = false →
      ∃ t, w.handler.streams ssrc = some t ∧ t.waitingForKeyframe = false) :
    Flow { w with handler, worker } := by
  refine ⟨kept, proper, ?_, flow.bound, ?_, ?_, flow.decodable⟩
  · intro ssrc
    have order : ((w.pending ssrc).map shape).Pairwise fun p q => p.1 ≤ q.1 :=
      List.pairwise_map.mpr (flow.order ssrc)
    rw [← pending, List.pairwise_map] at order
    exact order
  · intro ssrc
    exact (flows_shape (pending ssrc) _).1.mpr (flow.flows ssrc)
  · intro ssrc s found waits
    obtain ⟨t, there, too⟩ := active ssrc s found waits
    exact (flows_shape (pending ssrc) _).2.trans (flow.settled ssrc t there too)

/-- An entry that tells no loss and no handing over. -/
theorem Flow.note (flow : Flow w) {entry : MediaEntry}
    (losses : ∀ ssrc, lost original ssrc (entry :: w.log) = lost original ssrc w.log)
    (quiet : Decodable original (entry :: w.log) ↔ Decodable original w.log) :
    Flow { w with log := entry :: w.log } := by
  refine ⟨flow.kept, flow.worker, flow.order, ?_, ?_, ?_, quiet.mpr flow.decodable⟩
  · intro ssrc
    rw [losses]
    exact flow.bound ssrc
  · intro ssrc
    rw [losses]
    exact flow.flows ssrc
  · intro ssrc s found active
    rw [losses]
    exact flow.settled ssrc s found active

/-- A stream recovers from a loss. -/
theorem Flow.lose (flow : Flow w) {entry : MediaEntry} {ssrc : BitVec 32} {unit units : Nat}
    (tells : Tells entry ssrc unit) (there : w.handler.streams ssrc ≠ none) (more : w.units ≤ units)
    (arrived : unit < units) (flying : ∀ p ∈ inFlight w.worker, mine ssrc p = true → p.unit ≤ unit) :
    Flow { w with
      handler := w.handler.recover ssrc
      units
      log := w.discards ssrc ++ entry :: w.log } := by
  have kept : Kept (w.handler.recover ssrc) units :=
    ⟨(flow.kept.books.recover ssrc).more more, flow.kept.silent.recover ssrc⟩
  have left : ∀ other, (w.handler.packets.filter fun p => p.ssrc ≠ ssrc).filter (mine other) =
      if other = ssrc then [] else w.handler.packets.filter (mine other) := by
    intro other
    rw [List.filter_filter]
    split
    · rename_i same
      refine List.filter_eq_nil_iff.mpr fun p _ both => ?_
      simp [mine, same] at both
      exact both.2 both.1.1
    · rename_i differs
      refine List.filter_congr fun p _ => ?_
      by_cases here : p.ssrc = other <;> simp [mine, here, differs]
  have pending : ∀ other, ({ w with
      handler := w.handler.recover ssrc
      units
      log := w.discards ssrc ++ entry :: w.log } : MediaWorld).pending other =
        if other = ssrc then (inFlight w.worker).filter (mine other) else w.pending other := by
    intro other
    simp only [MediaWorld.pending, recover_packets there, List.filter_append, left]
    split
    · exact List.append_nil _
    · rfl
  have losses : ∀ other, lost original other (w.discards ssrc ++ entry :: w.log) =
      if other = ssrc then (w.handler.packets.filter (mine ssrc)).map Packet.unit ++ [unit] ++
        lost original ssrc w.log else lost original other w.log := by
    intro other
    rw [lost_discards]
    split
    · rename_i same
      rw [same, tells.here]
      simp
    · rename_i differs
      rw [tells.others other differs]
      rfl
  refine ⟨kept, ?_, ?_, ?_, ?_, ?_, ?_⟩
  · intro p working
    exact (flow.worker p working).later (fun _ => recover_ne_none) more
  · intro other
    rw [pending]
    split
    · refine (flow.order other).sublist ?_
      rw [MediaWorld.pending, List.filter_append]
      exact List.sublist_append_left _ _
    · exact flow.order other
  · intro other lostUnit member
    rw [losses] at member
    split at member
    · rcases List.mem_append.mp member with new | old
      · rcases List.mem_append.mp new with discarded | told
        · obtain ⟨p, inQueue, rfl⟩ := List.mem_map.mp discarded
          exact (flow.kept.books.queue p (List.mem_of_mem_filter inQueue)).unit.trans_le more
        · rw [List.mem_singleton.mp told]
          exact arrived
      · exact (flow.bound ssrc lostUnit old).trans_le more
    · exact (flow.bound other lostUnit member).trans_le more
  · intro other
    rw [pending, losses]
    split
    · rename_i same
      subst same
      have flows := flow.flows other
      have order := flow.order other
      rw [MediaWorld.pending, List.filter_append] at flows order
      refine (flows_append.mp flows).1.more fun p member lostUnit extra => ?_
      rcases List.mem_append.mp extra with discarded | told
      · obtain ⟨q, inQueue, rfl⟩ := List.mem_map.mp discarded
        exact (List.pairwise_append.mp order).2.2 p member q inQueue
      · rw [List.mem_singleton.mp told]
        exact flying p (List.mem_of_mem_filter member) (List.mem_filter.mp member).2
    · exact flow.flows other
  · intro other s found active
    by_cases same : other = ssrc
    · subst same
      exact absurd ((recover_self found).1.symm.trans active) (by simp)
    · rw [pending, losses, if_neg same, if_neg same]
      rw [recover_other same] at found
      exact flow.settled other s found active
  · rw [decodable_discards, tells.quiet]
    exact flow.decodable

/-! ### Steps -/

theorem Flow.more (flow : Flow w) {units : Nat} (more : w.units ≤ units) : Flow { w with units } :=
  ⟨⟨flow.kept.books.more more, flow.kept.silent⟩,
    fun p working => (flow.worker p working).later (fun _ => id) more, flow.order,
    fun ssrc unit member => (flow.bound ssrc unit member).trans_le more, flow.flows, flow.settled,
    flow.decodable⟩

/-- The worker goes on without a packet in flight. -/
theorem Flow.workers (flow : Flow w) {worker : PacerWorker} (flying : inFlight worker = inFlight w.worker)
    (fewer : ∀ p, busy worker = some p → busy w.worker = some p) : Flow { w with worker } :=
  flow.alike flow.kept (fun p working => flow.worker p (fewer p working))
    (fun ssrc => by simp only [MediaWorld.pending, flying]) fun _ s found active => ⟨s, found, active⟩

/-- Packets of a new access unit join a stream whose losses are made good. -/
theorem Flow.enqueue (flow : Flow w) {ssrc : BitVec 32} {s : StreamState} {packets : List Packet}
    (found : w.handler.streams ssrc = some s) (active : s.waitingForKeyframe = false)
    (kept : Kept (w.handler.enqueue packets) (w.units + 1))
    (own : ∀ p ∈ packets, p.ssrc = ssrc ∧ p.isRepair = false ∧ p.unit = w.units) :
    Flow { w with handler := w.handler.enqueue packets, units := w.units + 1 } := by
  have joined : ∀ other, packets.filter (mine other) = if other = ssrc then packets else [] := by
    intro other
    split
    · rename_i same
      refine List.filter_eq_self.mpr fun p member => ?_
      simp [mine, original, same, own p member]
    · rename_i differs
      refine List.filter_eq_nil_iff.mpr fun p member both => ?_
      simp only [mine, Bool.and_eq_true, decide_eq_true_eq] at both
      exact differs (both.1.symm.trans (own p member).1)
  have pending : ∀ other, ({ w with
      handler := w.handler.enqueue packets
      units := w.units + 1 } : MediaWorld).pending other =
        w.pending other ++ if other = ssrc then packets else [] := by
    intro other
    rw [← joined]
    simp [MediaWorld.pending, WebMediaHandler.enqueue, List.append_assoc]
  have settled := flow.settled ssrc s found active
  refine ⟨kept, ?_, ?_, ?_, ?_, ?_, flow.decodable⟩
  · exact fun p working => (flow.worker p working).later (fun _ => id) (Nat.le_succ _)
  · intro other
    rw [pending]
    refine List.pairwise_append.mpr ⟨flow.order other, ?_, ?_⟩
    · split
      · refine List.Pairwise.imp_of_mem (R := fun _ _ => True) ?_ (List.pairwise_of_forall fun _ _ => trivial)
        intro p q inP inQ _
        rw [(own p inP).2.2, (own q inQ).2.2]
      · exact List.Pairwise.nil
    · intro p old q new
      split at new
      · rw [(own q new).2.2]
        exact (flow.pending_lt _ p old).le
      · cases new
  · exact fun other unit member => (flow.bound other unit member).trans (Nat.lt_succ_self _)
  · intro other
    rw [pending, flows_append]
    refine ⟨flow.flows other, ?_⟩
    split
    · rename_i same
      rw [same, settled]
      exact flows_nil packets
    · trivial
  · intro other t there waits
    rw [pending, List.foldl_append]
    split
    · rename_i same
      rw [same, settled]
      exact foldl_settle_nil packets
    · exact flow.settled other t there waits

/-- A key frame takes the place of what a stream had queued. -/
theorem Flow.replace (flow : Flow w) {ssrc : BitVec 32} {s : StreamState} {packets : List Packet}
    (kept : Kept (((w.handler.discardStreamPackets ssrc).setStream ssrc s).enqueue packets) (w.units + 1))
    (nonempty : packets ≠ [])
    (own : ∀ p ∈ packets, p.ssrc = ssrc ∧ p.isRepair = false ∧ p.unit = w.units ∧ p.keyframe = true) :
    Flow { w with
      handler := ((w.handler.discardStreamPackets ssrc).setStream ssrc s).enqueue packets
      units := w.units + 1
      log := w.discards ssrc ++ w.log } := by
  have pending : ∀ other, ({ w with
      handler := ((w.handler.discardStreamPackets ssrc).setStream ssrc s).enqueue packets
      units := w.units + 1
      log := w.discards ssrc ++ w.log } : MediaWorld).pending other =
        if other = ssrc then (inFlight w.worker).filter (mine ssrc) ++ packets else w.pending other := by
    intro other
    have queue : (((w.handler.discardStreamPackets ssrc).setStream ssrc s).enqueue packets).packets =
        (w.handler.packets.filter fun p => p.ssrc ≠ ssrc) ++ packets := by
      simp [WebMediaHandler.enqueue, WebMediaHandler.setStream]
    simp only [MediaWorld.pending, queue, List.filter_append, List.filter_filter]
    split
    · rename_i same
      subst same
      congr 1
      rw [List.filter_eq_nil_iff.mpr, List.nil_append, List.filter_eq_self.mpr]
      · intro p member
        simp [mine, original, own p member]
      · intro p _ both
        simp [mine] at both
        exact both.2 both.1.1
    · rename_i differs
      congr 1
      rw [show packets.filter (mine other) = [] from List.filter_eq_nil_iff.mpr fun p member both => by
        simp only [mine, Bool.and_eq_true, decide_eq_true_eq] at both
        exact differs (both.1.symm.trans (own p member).1), List.append_nil]
      refine List.filter_congr fun p _ => ?_
      by_cases here : p.ssrc = other <;> simp [mine, here, differs]
  have losses := lost_discards w ssrc
  have before : ∀ unit ∈ (w.handler.packets.filter (mine ssrc)).map Packet.unit ++
      lost original ssrc w.log, unit < w.units := by
    intro unit member
    rcases List.mem_append.mp member with discarded | old
    · obtain ⟨p, inQueue, rfl⟩ := List.mem_map.mp discarded
      exact (flow.kept.books.queue p (List.mem_of_mem_filter inQueue)).unit
    · exact flow.bound ssrc unit old
  have fewer : ∀ (front : List Packet) (losses : List Nat), (∀ unit ∈ losses, unit < w.units) →
      ∀ unit ∈ front.foldl settle losses, unit < w.units := by
    intro front
    induction front with
    | nil => exact fun _ all => all
    | cons p rest ih =>
      intro losses all
      refine ih _ fun unit member => all unit ?_
      unfold settle at member
      split at member
      · exact List.mem_of_mem_filter member
      · exact member
  refine ⟨kept, ?_, ?_, ?_, ?_, ?_, decodable_discards.mpr flow.decodable⟩
  · exact fun p working => (flow.worker p working).later (fun _ => setStream_ne_none) (Nat.le_succ _)
  · intro other
    rw [pending]
    split
    · rename_i same
      have order := flow.order ssrc
      rw [MediaWorld.pending, List.filter_append] at order
      refine List.pairwise_append.mpr ⟨(List.pairwise_append.mp order).1, ?_, ?_⟩
      · refine List.Pairwise.imp_of_mem (R := fun _ _ => True) ?_ (List.pairwise_of_forall fun _ _ => trivial)
        intro p q inP inQ _
        rw [(own p inP).2.2.1, (own q inQ).2.2.1]
      · intro p old q new
        rw [(own q new).2.2.1]
        refine (flow.pending_lt ssrc p ?_).le
        rw [MediaWorld.pending, List.filter_append]
        exact List.mem_append_left _ old
    · exact flow.order other
  · intro other unit member
    refine Nat.lt_succ_of_lt ?_
    rw [losses] at member
    split at member
    · rename_i same
      exact before unit (same ▸ member)
    · exact flow.bound other unit member
  · intro other
    rw [pending, losses]
    split
    · rename_i same
      subst same
      have flows := flow.flows other
      have order := flow.order other
      rw [MediaWorld.pending, List.filter_append] at flows order
      have after : ∀ p ∈ (inFlight w.worker).filter (mine other),
          ∀ unit ∈ (w.handler.packets.filter (mine other)).map Packet.unit, p.unit ≤ unit := by
        intro p member unit discarded
        obtain ⟨q, inQueue, rfl⟩ := List.mem_map.mp discarded
        exact (List.pairwise_append.mp order).2.2 p member q inQueue
      refine flows_append.mpr ⟨(flows_append.mp flows).1.more after, ?_⟩
      exact (settle_key nonempty (fun p member => ⟨(own p member).2.2.2, (own p member).2.2.1⟩)
        (fewer _ _ before)).1
    · exact flow.flows other
  · intro other t there waits
    rw [pending, losses]
    split
    · rename_i same
      subst same
      rw [List.foldl_append]
      exact (settle_key nonempty (fun p member => ⟨(own p member).2.2.2, (own p member).2.2.1⟩)
        (fewer _ _ before)).2
    · rename_i differs
      have same : w.handler.streams other = some t := by
        rw [← there]
        exact (setStream_other differs s).symm
      exact flow.settled other t same waits

/-- An access unit is refused because its stream is unknown or waits. -/
theorem Flow.refuse (flow : Flow w) {ssrc : BitVec 32}
    (waits : ∀ s, w.handler.streams ssrc = some s → s.waitingForKeyframe = true) :
    Flow { w with units := w.units + 1, log := .refused ssrc w.units :: w.log } := by
  have tells := tells_refused ssrc w.units
  obtain ⟨kept, worker, order, bound, flows, settled, decodable⟩ := flow.more (Nat.le_succ w.units)
  have losses : ∀ other, lost original other (.refused ssrc w.units :: w.log) =
      (if other = ssrc then [w.units] else []) ++ lost original other w.log := by
    intro other
    split
    · rename_i same
      rw [same]
      exact tells.here w.log
    · rename_i differs
      exact tells.others other differs w.log
  refine ⟨kept, worker, order, ?_, ?_, ?_, decodable⟩
  · intro other unit member
    rw [losses] at member
    rcases List.mem_append.mp member with new | old
    · split at new
      · rw [List.mem_singleton.mp new]
        exact Nat.lt_succ_self _
      · cases new
    · exact bound other unit old
  · intro other
    rw [losses]
    refine (flows other).more fun p member unit extra => ?_
    split at extra
    · rw [List.mem_singleton.mp extra]
      exact (flow.pending_lt _ p member).le
    · cases extra
  · intro other s found active
    rw [losses, if_neg, List.nil_append]
    · exact settled other s found active
    · rintro rfl
      exact Bool.false_ne_true (active.symm.trans (waits s found))

theorem Flow.outgoing (flow : Flow w) (messages : List Message) (nowMs : Int) :
    Flow (w.outgoing messages nowMs) := by
  have offers := outgoing_offers w.handler messages nowMs w.units
  have kept : Kept (w.handler.outgoing messages nowMs w.units).2 (w.units + 1) :=
    ⟨offers.books flow.kept.books, offers.silent flow.kept.silent⟩
  unfold MediaWorld.outgoing
  generalize w.handler.outgoing messages nowMs w.units = result at offers kept ⊢
  obtain ⟨taken, handler⟩ := result
  cases offers with
  | nothing => exact flow
  | refused waits => exact flow.refuse waits
  | recovered found =>
    refine flow.lose (tells_refused _ w.units) ?_ (Nat.le_succ _) (Nat.lt_succ_self _) ?_
    · simp [found]
    · intro p flying own
      exact (flow.pending_lt _ p (List.mem_filter.mpr ⟨List.mem_append_left _ flying, own⟩)).le
  | delta found active packets =>
    refine flow.enqueue found active kept fun p member => ?_
    exact ⟨(packets p member).1, (packets p member).2.1, (packets p member).2.2.1⟩
  | key found nonempty packets =>
    refine flow.replace kept nonempty fun p member => ?_
    exact ⟨(packets p member).1, (packets p member).2.1, (packets p member).2.2.1, (packets p member).2.2.2.1⟩

theorem Flow.incoming (flow : Flow w) (messages : List Message) (nowMs : Int)
    (affords : BitVec 32 → BitVec 16 → Bool) :
    Flow { w with handler := w.handler.incoming messages nowMs affords } := by
  obtain ⟨kept, answers⟩ := flow.kept.incoming messages nowMs affords
  refine flow.alike kept (fun p working => (flow.worker p working).later (fun _ => answers.ne_none) le_rfl)
    ?_ ?_
  · intro ssrc
    obtain ⟨repairs, all, queue⟩ := answers.packets
    have none : repairs.filter (mine ssrc) = [] := by
      refine List.filter_eq_nil_iff.mpr fun p member => ?_
      simp [mine, original, all p member]
    simp [MediaWorld.pending, queue, List.filter_append, none]
  · intro ssrc s found active
    have same := answers.streams ssrc
    rw [found, Option.map_some, eq_comm, Option.map_eq_some_iff] at same
    obtain ⟨t, there, same⟩ := same
    exact ⟨t, there, (congrArg Prod.fst same).trans active⟩

theorem Flow.drain (flow : Flow w) (affords : Bool) (us : Nat) : Flow (w.drain affords us) := by
  unfold MediaWorld.drain
  split
  · rename_i nowMs working _
    exact flow.workers (by rw [working]; rfl) (by simp [busy])
  · rename_i nowMs p packets working queue
    have proper : Proper w.handler w.units p := flow.kept.books.queue p (queue ▸ List.mem_cons_self)
    have taken := flow.kept.take queue
    have idle : inFlight w.worker = [] := by rw [working]; rfl
    have repaired : p.isRepair = true → ∀ ssrc, packets.filter (mine ssrc) = w.pending ssrc := by
      intro repair ssrc
      simp [MediaWorld.pending, idle, queue, mine, original, repair]
    dsimp only
    split
    · split
      · rename_i repair
        have gone : Flow { w with handler := { w.handler with
            packets
            queuedBytes := w.handler.queuedBytes - p.cost } } := by
          refine flow.alike taken ?_ ?_ fun _ s found active => ⟨s, found, active⟩
          · simp [working, busy]
          · intro ssrc
            rw [← repaired repair ssrc]
            simp [MediaWorld.pending, idle]
        exact gone.note (fun ssrc => if_neg (by simp [original, repair])) Iff.rfl
      · rename_i first
        refine flow.lose (tells_expired (Bool.eq_false_iff.mpr first)) proper.stream le_rfl proper.unit ?_
        simp [idle]
    · split
      · exact flow.workers (by rw [working]; rfl) (by simp [busy])
      · split
        · rename_i repair
          refine flow.alike taken ?_ ?_ fun _ s found active => ⟨s, found, active⟩
          · intro q same
            cases same
            exact proper.later (fun _ => id) le_rfl
          · intro ssrc
            rw [← repaired repair ssrc]
            simp [MediaWorld.pending, inFlight, mine, original, repair]
        · rename_i first
          have active : ∀ s, w.handler.streams p.ssrc = some s → s.waitingForKeyframe = false := by
            intro s found
            by_contra waits
            have cleared := flow.kept.silent p.ssrc s found (Bool.eq_true_of_not_eq_false waits)
            exact cleared.1 p (queue ▸ List.mem_cons_self) rfl
          obtain ⟨kept, departs, proper'⟩ :=
            departs_spec taken (proper.later (fun _ => id) le_rfl) active nowMs us
          generalize WebMediaHandler.departs _ p nowMs us = departed at kept departs proper' ⊢
          obtain ⟨p', handler⟩ := departed
          dsimp only at kept departs proper' ⊢
          refine flow.alike kept ?_ ?_ ?_
          · intro q same
            cases same
            exact proper'
          · intro ssrc
            obtain ⟨same, repair, unit, keyframe⟩ := departs.same
            have own : mine ssrc p' = mine ssrc p := by
              simp only [mine, original, same, repair]
            have alike : shape p' = shape p := by
              simp only [shape, unit, keyframe]
            have before : w.pending ssrc = (p :: packets).filter (mine ssrc) := by
              rw [MediaWorld.pending, idle, queue]
              rfl
            have after : (inFlight (.popped p' nowMs) ++ handler.packets).filter (mine ssrc) =
                (p' :: packets).filter (mine ssrc) := by
              rw [departs.packets]
              rfl
            rw [before]
            refine (congrArg (List.map shape) after).trans ?_
            rw [List.filter_cons, List.filter_cons, own]
            split
            · rw [List.map_cons, List.map_cons, alike]
            · rfl
          · intro ssrc s found waits
            by_cases same : ssrc = p.ssrc
            · obtain ⟨t, there, _⟩ := departs.stream
              exact ⟨t, same ▸ there, active t there⟩
            · rw [departs.others ssrc same] at found
              exact ⟨s, found, waits⟩
  · exact flow

theorem lost_handed (ssrc : BitVec 32) (p : Packet) (log : List MediaEntry) :
    lost original ssrc (.handed p :: log) =
      if mine ssrc p then settle (lost original ssrc log) p else lost original ssrc log := by
  simp only [lost, mine, original, settle]
  by_cases here : p.ssrc = ssrc
  · by_cases repair : p.isRepair = true
    · simp [repair]
    · simp [here, Bool.eq_false_iff.mpr repair]
  · simp [here]

theorem Flow.hand (flow : Flow w) : Flow w.hand := by
  unfold MediaWorld.hand
  split
  · rename_i p nowMs working
    have pending : ∀ ssrc, w.pending ssrc =
        (if mine ssrc p then [p] else []) ++ w.handler.packets.filter (mine ssrc) := by
      intro ssrc
      rw [MediaWorld.pending, working, inFlight, List.filter_append, List.filter_singleton]
      cases mine ssrc p <;> rfl
    refine ⟨flow.kept, ?_, ?_, ?_, ?_, ?_, ?_, flow.decodable⟩
    · intro q same
      cases same
      exact flow.worker p (by rw [working]; rfl)
    · intro ssrc
      have order := flow.order ssrc
      rw [pending] at order
      exact (List.pairwise_append.mp order).2.1
    · intro ssrc unit member
      rw [lost_handed] at member
      refine flow.bound ssrc unit ?_
      split at member
      · unfold settle at member
        split at member
        · exact List.mem_of_mem_filter member
        · exact member
      · exact member
    · intro ssrc
      have flows := flow.flows ssrc
      rw [pending, flows_append] at flows
      rw [lost_handed]
      cases own : mine ssrc p with
      | true =>
        rw [own] at flows
        exact flows.2
      | false =>
        rw [own] at flows
        exact flows.2
    · intro ssrc s found active
      have settled := flow.settled ssrc s found active
      rw [pending, List.foldl_append] at settled
      rw [lost_handed]
      cases own : mine ssrc p with
      | true =>
        rw [own] at settled
        exact settled
      | false =>
        rw [own] at settled
        exact settled
    · intro first delta
      have flows := flow.flows p.ssrc
      have own : mine p.ssrc p = true := by simp [mine, original, first]
      rw [pending, own] at flows
      exact flows.1 delta
  · exact flow

theorem Flow.sent (flow : Flow w) (failed : Bool) : Flow (w.sent failed) := by
  unfold MediaWorld.sent
  split
  · rename_i p nowMs working
    have proper := flow.worker p (by rw [working]; rfl)
    have draining : Flow { w with worker := .draining nowMs } :=
      flow.workers (by rw [working]; rfl) (by simp [busy])
    dsimp only
    split
    · exact draining.lose (tells_failed p) proper.stream le_rfl proper.unit (by simp [inFlight])
    · exact draining
  · exact flow

theorem Flow.apply (flow : Flow w) (e : MediaEvent) : Flow (w.apply e) := by
  cases e with
  | registerStream ssrc =>
    simp only [MediaWorld.apply, WebMediaHandler.registerStream]
    split
    · rename_i missing
      have silent : Silent (w.handler.setStream ssrc {}) := by
        refine flow.kept.silent.setStream fun _ => ⟨?_, ?_⟩
        · rintro p member rfl
          exact (flow.kept.books.queue p member).stream missing
        · rintro e member rfl
          exact (flow.kept.books.cache e member).stream missing
      refine flow.alike ⟨flow.kept.books.setStream _ _, silent⟩ ?_ (fun _ => rfl) ?_
      · exact fun p working => (flow.worker p working).later (fun _ => setStream_ne_none) le_rfl
      · intro other s found active
        by_cases same : other = ssrc
        · rw [same, setStream_self, Option.some.injEq] at found
          rw [← found] at active
          cases active
        · rw [setStream_other same] at found
          exact ⟨s, found, active⟩
    · exact flow
  | setFrameDeadline deadlineMs =>
    have books := flow.kept.books
    refine flow.alike ⟨⟨books.queued, books.cached, ?_, ?_⟩, flow.kept.silent⟩ ?_ (fun _ => rfl)
      fun _ s found active => ⟨s, found, active⟩
    · exact fun p member => (books.queue p member).later (fun _ => id) le_rfl
    · exact fun e member => (books.cache e member).later (fun _ => id) le_rfl
    · exact fun p working => (flow.worker p working).later (fun _ => id) le_rfl
  | outgoing messages nowMs => exact flow.outgoing messages nowMs
  | incoming messages nowMs affords => exact flow.incoming messages nowMs affords
  | wake budget nowMs =>
    simp only [MediaWorld.apply]
    split
    · rename_i idle
      refine flow.alike (flow.kept.refresh budget nowMs) ?_ ?_ fun _ s found active => ⟨s, found, active⟩
      · simp [busy]
      · intro ssrc
        simp [MediaWorld.pending, idle, inFlight, WebMediaHandler.refresh]
    · exact flow
  | drain affords us => exact flow.drain affords us
  | hand => exact flow.hand
  | sent failed => exact flow.sent failed

end MediaWorld

end MiniRtc.Web
