import MiniRtc.Lib.Runs
import MiniRtc.Qos.TransportFeedbackAdapter

/-! The bytes in flight.
The counters belong to the packets that were sent and are not acknowledged: each counter is the
sum of their sizes on its route, and the journal has the bytes of each of them going in. The
bytes of every other packet went in and out again, or never in. -/
namespace MiniRtc.Qos
open Wrapping

/-! ### The tracker -/

namespace InFlightBytesTracker

/-- What a packet did to the counters. -/
def changes (journal : List (Nat × Int)) (id : Nat) : List Int :=
  (journal.filter fun c => c.1 = id).map Prod.snd

/-- Nothing, or in and out again. -/
def Settled (changes : List Int) : Prop := changes = [] ∨ ∃ size, changes = [size, -size]

def bytesOn (route : RouteKey) (packet : PacketFeedback) : Int :=
  if packet.networkRoute.key = route then packet.sent.size else 0

/-- The tracker counts the given packets. -/
structure Holds (t : InFlightBytesTracker) (packets : List PacketFeedback) : Prop where
  sizes : ∀ p ∈ packets, 0 ≤ p.sent.size
  nodup : (packets.map PacketFeedback.id).Nodup
  counts : ∀ route, (t.data route).getD 0 = (packets.map (bytesOn route)).sum
  booked : ∀ p ∈ packets, changes t.journal p.id = if p.sent.size = 0 then [] else [p.sent.size]
  settled : ∀ id, id ∉ packets.map PacketFeedback.id → Settled (changes t.journal id)

theorem changes_record (journal : List (Nat × Int)) (packet : PacketFeedback) (change : Int)
    (id : Nat) :
    changes (record journal packet change) id =
      changes journal id ++ if packet.id = id ∧ change ≠ 0 then [change] else [] := by
  unfold record changes
  by_cases zero : change = 0
  · simp [zero]
  · by_cases same : packet.id = id
    · simp [zero, same, List.filter_append]
    · simp [zero, same, List.filter_append]

theorem changes_record_other (journal : List (Nat × Int)) {packet : PacketFeedback} (change : Int)
    {id : Nat} (other : packet.id ≠ id) :
    changes (record journal packet change) id = changes journal id := by
  rw [changes_record, if_neg fun both => other both.1, List.append_nil]

theorem bytesOn_nonneg {packets : List PacketFeedback} (sizes : ∀ p ∈ packets, 0 ≤ p.sent.size)
    (route : RouteKey) : 0 ≤ (packets.map (bytesOn route)).sum := by
  refine List.sum_nonneg fun x member => ?_
  obtain ⟨p, there, rfl⟩ := List.mem_map.mp member
  have size := sizes p there
  unfold bytesOn
  split <;> omega

variable {t : InFlightBytesTracker} {packets : List PacketFeedback} {p : PacketFeedback}

theorem Holds.perm {others : List PacketFeedback} (holds : Holds t packets)
    (perm : packets.Perm others) : Holds t others := by
  have ids := perm.map PacketFeedback.id
  refine ⟨?_, ids.nodup_iff.mp holds.nodup, ?_, ?_, ?_⟩
  · intro p member
    exact holds.sizes p (perm.mem_iff.mpr member)
  · intro route
    rw [holds.counts, (perm.map (bytesOn route)).sum_eq]
  · intro p member
    exact holds.booked p (perm.mem_iff.mpr member)
  · intro id absent
    exact holds.settled id fun member => absent (ids.mem_iff.mp member)

/-- What a counter says. -/
theorem counter_add (t : InFlightBytesTracker) (p : PacketFeedback) (route : RouteKey) :
    ((t.addInFlightPacketBytes p).data route).getD 0 = bytesOn route p + (t.data route).getD 0 := by
  simp only [addInFlightPacketBytes, bytesOn, Function.update_apply]
  by_cases same : route = p.networkRoute.key
  · subst same
    cases t.data p.networkRoute.key with
    | none => simp
    | some bytes => simp [Int.add_comm]
  · rw [if_neg same, if_neg (Ne.symm same), zero_add]

theorem removeInFlightPacketBytes_uncounted (uncounted : t.data p.networkRoute.key = none) :
    t.removeInFlightPacketBytes p = t := by
  simp [removeInFlightPacketBytes, uncounted]

theorem removeInFlightPacketBytes_counted {bytes : Int} (sent : p.sent.sendTime ≠ none)
    (counted : t.data p.networkRoute.key = some bytes) :
    t.removeInFlightPacketBytes p =
      { data := Function.update t.data p.networkRoute.key
          (if bytes - p.sent.size = 0 then none else some (bytes - p.sent.size))
        journal := record t.journal p (-p.sent.size) } := by
  simp [removeInFlightPacketBytes, sent, counted]

theorem counter_remove {bytes : Int} (sent : p.sent.sendTime ≠ none)
    (counted : t.data p.networkRoute.key = some bytes) (route : RouteKey) :
    ((t.removeInFlightPacketBytes p).data route).getD 0 = (t.data route).getD 0 - bytesOn route p := by
  rw [removeInFlightPacketBytes_counted sent counted]
  simp only [bytesOn, Function.update_apply]
  by_cases same : route = p.networkRoute.key
  · subst same
    rw [if_pos rfl, if_pos rfl, counted, Option.getD_some]
    split
    · rw [Option.getD_none]
      omega
    · rw [Option.getD_some]
  · rw [if_neg same, if_neg (Ne.symm same), sub_zero]

theorem Holds.add (holds : Holds t packets) (size : 0 ≤ p.sent.size)
    (new : p.id ∉ packets.map PacketFeedback.id) (unbooked : changes t.journal p.id = []) :
    Holds (t.addInFlightPacketBytes p) (p :: packets) := by
  have apart : ∀ q ∈ packets, p.id ≠ q.id :=
    fun q member same => new (same ▸ List.mem_map_of_mem member)
  refine ⟨?_, List.nodup_cons.mpr ⟨new, holds.nodup⟩, ?_, ?_, ?_⟩
  · intro q member
    rcases List.mem_cons.mp member with rfl | there
    · exact size
    · exact holds.sizes q there
  · intro route
    rw [counter_add, holds.counts]
    simp
  · intro q member
    rcases List.mem_cons.mp member with rfl | there
    · show changes (record t.journal q q.sent.size) q.id = _
      rw [changes_record, unbooked]
      by_cases zero : q.sent.size = 0 <;> simp [zero]
    · show changes (record t.journal p p.sent.size) q.id = _
      rw [changes_record_other _ _ (apart q there), holds.booked q there]
  · intro id absent
    simp only [List.map_cons, List.mem_cons, not_or] at absent
    show Settled (changes (record t.journal p p.sent.size) id)
    rw [changes_record_other _ _ (Ne.symm absent.1)]
    exact holds.settled id absent.2

/-- The tracker does not see what else becomes of a packet. -/
theorem Holds.replace {q : PacketFeedback} (holds : Holds t (p :: packets)) (id : q.id = p.id)
    (size : q.sent.size = p.sent.size) (route : q.networkRoute = p.networkRoute) :
    Holds t (q :: packets) := by
  obtain ⟨sizes, nodup, counts, booked, settled⟩ := holds
  have bytes : ∀ key, bytesOn key q = bytesOn key p := by
    intro key
    rw [bytesOn, bytesOn, size, route]
  refine ⟨?_, by simpa [id] using nodup, by simpa [bytes] using counts, ?_, by simpa [id] using settled⟩
  · rw [List.forall_mem_cons] at sizes ⊢
    exact ⟨size ▸ sizes.1, sizes.2⟩
  · rw [List.forall_mem_cons] at booked ⊢
    exact ⟨by rw [id, size]; exact booked.1, booked.2⟩

theorem Holds.remove (holds : Holds t (p :: packets)) (sent : p.sent.sendTime ≠ none) :
    Holds (t.removeInFlightPacketBytes p) packets := by
  obtain ⟨sizes, nodup, counts, booked, settled⟩ := holds
  obtain ⟨new, nodup⟩ := List.nodup_cons.mp nodup
  have size := sizes p List.mem_cons_self
  have restSizes : ∀ q ∈ packets, 0 ≤ q.sent.size :=
    fun q member => sizes q (List.mem_cons_of_mem _ member)
  have apart : ∀ q ∈ packets, p.id ≠ q.id :=
    fun q member same => new (same ▸ List.mem_map_of_mem member)
  have mine := booked p List.mem_cons_self
  have before : ∀ route, (t.data route).getD 0 = bytesOn route p + (packets.map (bytesOn route)).sum := by
    simpa using counts
  cases known : t.data p.networkRoute.key with
  | none =>
    -- Nothing is counted on the route, so the packet has no bytes.
    have here := before p.networkRoute.key
    have nonneg := bytesOn_nonneg restSizes p.networkRoute.key
    simp only [known, Option.getD_none, bytesOn, if_true] at here nonneg
    have zero : p.sent.size = 0 := by omega
    rw [removeInFlightPacketBytes_uncounted known]
    refine ⟨restSizes, nodup, ?_, ?_, ?_⟩
    · intro route
      rw [before, bytesOn, zero]
      simp
    · intro q member
      exact booked q (List.mem_cons_of_mem _ member)
    · intro id absent
      by_cases same : id = p.id
      · rw [same, mine, if_pos zero]
        exact .inl rfl
      · exact settled id (by simpa [same] using absent)
  | some bytes =>
    have counter := counter_remove sent known
    rw [removeInFlightPacketBytes_counted sent known] at counter ⊢
    refine ⟨restSizes, nodup, ?_, ?_, ?_⟩
    · intro route
      rw [counter, before]
      omega
    · intro q member
      show changes (record t.journal p (-p.sent.size)) q.id = _
      rw [changes_record_other _ _ (apart q member), booked q (List.mem_cons_of_mem _ member)]
    · intro id absent
      show Settled (changes (record t.journal p (-p.sent.size)) id)
      by_cases same : id = p.id
      · subst same
        rw [changes_record, mine]
        by_cases zero : p.sent.size = 0
        · exact .inl (by simp [zero])
        · exact .inr ⟨p.sent.size, by simp [zero]⟩
      · rw [changes_record_other _ _ (Ne.symm same)]
        exact settled id (by simpa [same] using absent)

/-- A packet without bytes leaves the counters as they are. -/
theorem Holds.remove_empty (holds : Holds t packets) (empty : p.sent.size = 0) :
    Holds (t.removeInFlightPacketBytes p) packets := by
  by_cases unsent : p.sent.sendTime = none
  · simpa [removeInFlightPacketBytes, unsent] using holds
  · cases known : t.data p.networkRoute.key with
    | none =>
      rw [removeInFlightPacketBytes_uncounted known]
      exact holds
    | some bytes =>
      have counter := counter_remove unsent known
      have journal : (t.removeInFlightPacketBytes p).journal = t.journal := by
        rw [removeInFlightPacketBytes_counted unsent known, empty]
        rfl
      refine ⟨holds.sizes, holds.nodup, ?_, by simpa only [journal] using holds.booked,
        by simpa only [journal] using holds.settled⟩
      intro route
      rw [counter, holds.counts]
      simp [bytesOn, empty]

theorem remove_unsent (t : InFlightBytesTracker) (unsent : p.sent.sendTime = none) :
    t.removeInFlightPacketBytes p = t := by
  simp [removeInFlightPacketBytes, unsent]

/-- The changes of a packet are the same after another one was removed. -/
theorem changes_remove_other (t : InFlightBytesTracker) {id : Nat} (other : p.id ≠ id) :
    changes (t.removeInFlightPacketBytes p).journal id = changes t.journal id := by
  unfold removeInFlightPacketBytes
  split
  · rfl
  · simp only
    split
    · exact changes_record_other _ _ other
    · rfl

/-- Those of some packets that were sent are removed; the others do not count. -/
theorem Holds.removeAll {removed : List PacketFeedback}
    (holds : Holds t (removed.filter (fun p => p.sent.sendTime ≠ none) ++ packets)) :
    Holds (removed.foldl (fun tracker p => tracker.removeInFlightPacketBytes p) t) packets := by
  induction removed generalizing t with
  | nil => exact holds
  | cons p rest ih =>
    refine ih (t := t.removeInFlightPacketBytes p) ?_
    by_cases unsent : p.sent.sendTime = none
    · rw [remove_unsent t unsent]
      simpa [unsent] using holds
    · refine Holds.remove (p := p) ?_ unsent
      simpa [unsent] using holds

theorem changes_removeAll_other (removed : List PacketFeedback) (t : InFlightBytesTracker) {id : Nat}
    (other : ∀ p ∈ removed, p.sent.sendTime ≠ none → p.id ≠ id) :
    changes (removed.foldl (fun tracker p => tracker.removeInFlightPacketBytes p) t).journal id =
      changes t.journal id := by
  induction removed generalizing t with
  | nil => rfl
  | cons p rest ih =>
    have tail := ih (t.removeInFlightPacketBytes p) fun q member => other q (List.mem_cons_of_mem _ member)
    rw [List.foldl_cons, tail]
    by_cases unsent : p.sent.sendTime = none
    · rw [remove_unsent t unsent]
    · exact changes_remove_other t (other p List.mem_cons_self unsent)

end InFlightBytesTracker

/-! ### The adapter -/

namespace TransportFeedbackAdapter
open InFlightBytesTracker

/-- A packet that was sent and is not acknowledged. -/
def Outstanding (lastAckSeqNum : Int) (p : PacketFeedback) : Prop :=
  p.sent.sendTime ≠ none ∧ lastAckSeqNum < p.sent.sequenceNumber

instance (lastAckSeqNum : Int) (p : PacketFeedback) : Decidable (Outstanding lastAckSeqNum p) :=
  inferInstanceAs (Decidable (_ ∧ _))

def outstandingOf (lastAckSeqNum : Int) (entries : List (Int × PacketFeedback)) : List PacketFeedback :=
  (entries.map Prod.snd).filter fun p => Outstanding lastAckSeqNum p

/-- The packets of the history that are outstanding. -/
def outstanding (t : TransportFeedbackAdapter) : List PacketFeedback :=
  outstandingOf t.lastAckSeqNum t.history.entries

/-- The invariant: the tracker counts the outstanding packets, and those not sent yet have not
been counted. -/
structure Accounts (t : TransportFeedbackAdapter) : Prop where
  numbers : ∀ e ∈ t.history.entries, e.2.sent.sequenceNumber = e.1
  sizes : ∀ e ∈ t.history.entries, 0 ≤ e.2.sent.size
  ids : (t.history.entries.map fun e => e.2.id).Nodup
  old : ∀ e ∈ t.history.entries, e.2.id < t.added
  holds : Holds t.inFlight t.outstanding
  unsent : ∀ e ∈ t.history.entries, e.2.sent.sendTime = none → changes t.inFlight.journal e.2.id = []
  fresh : ∀ id, t.added ≤ id → changes t.inFlight.journal id = []

theorem outstandingOf_perm {lastAckSeqNum : Int} {entries others : List (Int × PacketFeedback)}
    (perm : entries.Perm others) :
    (outstandingOf lastAckSeqNum entries).Perm (outstandingOf lastAckSeqNum others) :=
  (perm.map Prod.snd).filter _

theorem outstandingOf_cons (lastAckSeqNum : Int) (e : Int × PacketFeedback)
    (entries : List (Int × PacketFeedback)) :
    outstandingOf lastAckSeqNum (e :: entries) =
      (if Outstanding lastAckSeqNum e.2 then [e.2] else []) ++ outstandingOf lastAckSeqNum entries := by
  by_cases flying : Outstanding lastAckSeqNum e.2 <;> simp [outstandingOf, flying]

variable {t : TransportFeedbackAdapter} {k : Int} {p : PacketFeedback}

theorem Accounts.outstanding_erase (found : t.history.find k = some p) :
    t.outstanding.Perm ((if Outstanding t.lastAckSeqNum p then [p] else []) ++
      outstandingOf t.lastAckSeqNum (t.history.erase k).entries) := by
  rw [← outstandingOf_cons t.lastAckSeqNum (k, p)]
  exact outstandingOf_perm (SortedMap.erase_perm found)

/-- The other packets have other ids. -/
theorem Accounts.id_ne (accounts : Accounts t) (found : t.history.find k = some p) :
    ∀ e ∈ (t.history.erase k).entries, p.id ≠ e.2.id := by
  have ids := ((SortedMap.erase_perm found).map fun e => e.2.id).nodup_iff.mp accounts.ids
  intro e member same
  exact (List.nodup_cons.mp ids).1 (List.mem_map.mpr ⟨e, member, same.symm⟩)

/-- A packet leaves the history. -/
theorem Accounts.erase {inFlight : InFlightBytesTracker} (accounts : Accounts t)
    (found : t.history.find k = some p)
    (holds : Holds inFlight (outstandingOf t.lastAckSeqNum (t.history.erase k).entries))
    (journal : ∀ id, p.id ≠ id → changes inFlight.journal id = changes t.inFlight.journal id)
    (mapping : SsrcAndRtpSequencenumber → Option Int) :
    Accounts { t with
      inFlight
      rtpToTransportSequenceNumber := mapping
      history := t.history.erase k } := by
  have member := SortedMap.find_eq_some.mp found
  have apart := accounts.id_ne found
  have inside : ∀ e ∈ (t.history.erase k).entries, e ∈ t.history.entries :=
    fun e there => (SortedMap.mem_erase.mp there).1
  refine ⟨fun e there => accounts.numbers e (inside e there),
    fun e there => accounts.sizes e (inside e there), ?_,
    fun e there => accounts.old e (inside e there), holds, ?_, ?_⟩
  · exact accounts.ids.sublist (List.filter_sublist.map _)
  · intro e there unsent
    exact (journal _ (apart e there)).trans (accounts.unsent e (inside e there) unsent)
  · intro id new
    have known := accounts.old (k, p) member
    exact (journal id (by simp only at known new; omega)).trans (accounts.fresh id new)

/-- A packet leaves the history and, if it is outstanding, the counters. -/
theorem Accounts.leave (accounts : Accounts t) (found : t.history.find k = some p)
    (mapping : SsrcAndRtpSequencenumber → Option Int) :
    Accounts { t with
      inFlight := if t.lastAckSeqNum < p.sent.sequenceNumber then
          t.inFlight.removeInFlightPacketBytes p else t.inFlight
      rtpToTransportSequenceNumber := mapping
      history := t.history.erase k } := by
  have holds := accounts.holds.perm (Accounts.outstanding_erase found)
  refine accounts.erase found ?_ ?_ mapping
  · by_cases unsent : p.sent.sendTime = none
    · rw [if_neg fun flying => flying.1 unsent] at holds
      rw [remove_unsent t.inFlight unsent, ite_self]
      exact holds
    · by_cases ahead : t.lastAckSeqNum < p.sent.sequenceNumber
      · rw [if_pos ⟨unsent, ahead⟩] at holds
        rw [if_pos ahead]
        exact holds.remove unsent
      · rw [if_neg fun flying => ahead flying.2] at holds
        rw [if_neg ahead]
        exact holds
  · intro id other
    split
    · exact changes_remove_other t.inFlight other
    · rfl

theorem Accounts.dropFirst (accounts : Accounts t) (first : t.history.first = some (k, p)) :
    Accounts (t.dropFirst k p) := by
  exact accounts.leave (SortedMap.find_eq_some.mpr (SortedMap.first_mem first)) _

theorem Accounts.dropOld (accounts : Accounts t) (creationTime : Int) (turns : Nat) :
    Accounts (dropOld creationTime turns t) := by
  induction turns generalizing t with
  | zero => exact accounts
  | succ turns ih =>
    simp only [TransportFeedbackAdapter.dropOld]
    split
    · rename_i k p first
      split
      · exact ih (accounts.dropFirst first)
      · exact accounts
    · exact accounts

theorem dropOld_added (creationTime : Int) (turns : Nat) (t : TransportFeedbackAdapter) :
    (dropOld creationTime turns t).added = t.added := by
  induction turns generalizing t with
  | zero => rfl
  | succ turns ih =>
    simp only [TransportFeedbackAdapter.dropOld]
    split
    · split
      · exact ih _
      · rfl
    · rfl

/-- A packet that was not sent yet enters the history. -/
theorem Accounts.emplace (accounts : Accounts t) (id : p.id = t.added) (number : p.sent.sequenceNumber = k)
    (size : 0 ≤ p.sent.size) (unsent : p.sent.sendTime = none)
    (mapping : SsrcAndRtpSequencenumber → Option Int) :
    Accounts { t with
      rtpToTransportSequenceNumber := mapping
      history := t.history.emplace k p
      added := t.added + 1 } := by
  obtain ⟨numbers, sizes, ids, old, holds, notSent, fresh⟩ := accounts
  have later : ∀ e ∈ t.history.entries, e.2.id < t.added + 1 := fun e there => Nat.lt_succ_of_lt (old e there)
  have fresher : ∀ id, t.added + 1 ≤ id → changes t.inFlight.journal id = [] :=
    fun id new => fresh id (by omega)
  cases found : t.history.find k with
  | some q =>
    have same := SortedMap.emplace_present (v := p) found
    refine ⟨?_, ?_, ?_, ?_, ?_, ?_, fresher⟩ <;> simp only [outstanding, same] <;> assumption
  | none =>
    have perm := SortedMap.emplace_perm (v := p) found
    have member : ∀ e, e ∈ (t.history.emplace k p).entries ↔ e = (k, p) ∨ e ∈ t.history.entries := by
      intro e
      rw [perm.mem_iff, List.mem_cons]
    refine ⟨?_, ?_, ?_, ?_, ?_, ?_, fresher⟩
    · intro e there
      rcases (member e).mp there with rfl | there
      · exact number
      · exact numbers e there
    · intro e there
      rcases (member e).mp there with rfl | there
      · exact size
      · exact sizes e there
    · refine (perm.map fun e => e.2.id).nodup_iff.mpr (List.nodup_cons.mpr ⟨?_, ids⟩)
      intro there
      obtain ⟨e, inside, same⟩ := List.mem_map.mp there
      have known := old e inside
      simp only [id] at same
      omega
    · intro e there
      rcases (member e).mp there with rfl | there
      · simp only [id]
        omega
      · exact later e there
    · have flying : ¬ Outstanding t.lastAckSeqNum p := fun flying => flying.1 unsent
      refine holds.perm ?_
      refine List.Perm.trans ?_ (outstandingOf_perm perm).symm
      rw [outstandingOf_cons, if_neg flying]
      exact .refl _
    · intro e there notYet
      rcases (member e).mp there with rfl | there
      · exact fresh p.id (by omega)
      · exact notSent e there notYet

/-- The record of a packet changes, and the counters with it. -/
theorem Accounts.update {q : PacketFeedback} {inFlight : InFlightBytesTracker} (accounts : Accounts t)
    (found : t.history.find k = some p) (id : q.id = p.id) (size : q.sent.size = p.sent.size)
    (number : q.sent.sequenceNumber = p.sent.sequenceNumber) (sent : q.sent.sendTime ≠ none)
    (holds : Holds inFlight ((if Outstanding t.lastAckSeqNum q then [q] else []) ++
      outstandingOf t.lastAckSeqNum (t.history.erase k).entries))
    (journal : ∀ id, p.id ≠ id → changes inFlight.journal id = changes t.inFlight.journal id) :
    Accounts { t with inFlight, history := t.history.update k q } := by
  obtain ⟨numbers, sizes, ids, old, _, notSent, fresh⟩ := accounts
  have there := SortedMap.find_eq_some.mp found
  have apart := Accounts.id_ne ⟨numbers, sizes, ids, old, ‹_›, notSent, fresh⟩ found
  have perm := SortedMap.update_perm (v := q) found
  have member : ∀ e, e ∈ (t.history.update k q).entries ↔
      e = (k, q) ∨ e ∈ (t.history.erase k).entries := by
    intro e
    rw [perm.mem_iff, List.mem_cons]
  have inside : ∀ e ∈ (t.history.erase k).entries, e ∈ t.history.entries :=
    fun e there => (SortedMap.mem_erase.mp there).1
  refine ⟨?_, ?_, ?_, ?_, ?_, ?_, ?_⟩
  · intro e updated
    rcases (member e).mp updated with rfl | other
    · exact number.trans (numbers _ there)
    · exact numbers e (inside e other)
  · intro e updated
    rcases (member e).mp updated with rfl | other
    · simp only [size]
      exact sizes _ there
    · exact sizes e (inside e other)
  · have before := ((SortedMap.erase_perm found).map fun e => e.2.id).nodup_iff.mp ids
    refine (perm.map fun e => e.2.id).nodup_iff.mpr ?_
    simpa [id] using before
  · intro e updated
    rcases (member e).mp updated with rfl | other
    · simp only [id]
      exact old _ there
    · exact old e (inside e other)
  · refine holds.perm ?_
    rw [← outstandingOf_cons t.lastAckSeqNum (k, q)]
    exact (outstandingOf_perm perm).symm
  · intro e updated unsent
    rcases (member e).mp updated with rfl | other
    · exact absurd unsent sent
    · exact (journal _ (apart e other)).trans (notSent e (inside e other) unsent)
  · intro other new
    have known := old _ there
    exact (journal other (by simp only at known new; omega)).trans (fresh other new)

theorem Accounts.processSentPacket (accounts : Accounts t) (sentPacket : TransportSentPacket) :
    Accounts (t.processSentPacket sentPacket).2 := by
  have renewed : ∀ seqNumUnwrapper pendingUntrackedSize,
      Accounts { t with seqNumUnwrapper, pendingUntrackedSize } :=
    fun _ _ => ⟨accounts.numbers, accounts.sizes, accounts.ids, accounts.old, accounts.holds,
      accounts.unsent, accounts.fresh⟩
  simp only [TransportFeedbackAdapter.processSentPacket]
  split
  · split
    · exact renewed _ _
    · rename_i p found
      have apart := accounts.id_ne found
      have member := SortedMap.find_eq_some.mp found
      have holds := accounts.holds.perm (Accounts.outstanding_erase found)
      split
      · rename_i before
        refine (renewed _ _).update found rfl rfl rfl (by simp) ?_ fun _ _ => rfl
        by_cases flying : Outstanding t.lastAckSeqNum p
        · rw [if_pos flying] at holds
          rw [if_pos ⟨by simp, flying.2⟩]
          exact holds.replace rfl rfl rfl
        · rw [if_neg flying] at holds
          rw [if_neg fun flies => flying ⟨before, flies.2⟩]
          exact holds
      · rename_i before
        have unsent : p.sent.sendTime = none := not_not.mp before
        rw [if_neg fun flying => flying.1 unsent, List.nil_append] at holds
        by_cases ahead : t.lastAckSeqNum < p.sent.sequenceNumber
        · simp only [if_pos ahead]
          refine (renewed _ _).update found rfl rfl rfl (by simp) ?_ ?_
          · rw [if_pos ⟨by simp, ahead⟩]
            refine (holds.add (p := { p with sent := { p.sent with
                sendTime := some (sentPacket.sendTimeMs * 1000)
                priorUnackedData := p.sent.priorUnackedData + t.pendingUntrackedSize } })
              (accounts.sizes _ member) ?_ (accounts.unsent _ member unsent)).replace rfl rfl rfl
            intro there
            obtain ⟨q, inside, same⟩ := List.mem_map.mp there
            obtain ⟨e, other, rfl⟩ := List.mem_map.mp (List.mem_filter.mp inside).1
            exact apart e other same.symm
          · intro id other
            exact changes_record_other _ _ other
        · simp only [if_neg ahead]
          refine (renewed _ _).update found rfl rfl rfl (by simp) ?_ fun _ _ => rfl
          rw [if_neg fun flies => ahead flies.2]
          exact holds
  · split
    · exact renewed _ _
    · exact accounts

/-- Those up to a number and those behind it. -/
theorem outstandingOf_split {entries : List (Int × PacketFeedback)} {low number : Int}
    (numbers : ∀ e ∈ entries, e.2.sent.sequenceNumber = e.1) (ahead : low < number) :
    (outstandingOf low entries).Perm
      (((entries.filter fun e => low < e.1 && e.1 ≤ number).map Prod.snd).filter
          (fun p => p.sent.sendTime ≠ none) ++ outstandingOf number entries) := by
  have whole : outstandingOf low entries =
      (entries.filter fun e => Outstanding low e.2).map Prod.snd := by
    rw [outstandingOf, List.filter_map]
    rfl
  have upTo : ((entries.filter fun e => low < e.1 && e.1 ≤ number).map Prod.snd).filter
      (fun p => p.sent.sendTime ≠ none) =
      ((entries.filter fun e => Outstanding low e.2).filter fun e => e.1 ≤ number).map Prod.snd := by
    rw [List.filter_map, List.filter_filter, List.filter_filter]
    congr 1
    apply List.filter_congr
    intro e member
    simp only [Function.comp_apply, Outstanding, numbers e member, Bool.decide_and, ne_eq]
    grind
  have behind : outstandingOf number entries =
      ((entries.filter fun e => Outstanding low e.2).filter fun e => !decide (e.1 ≤ number)).map
        Prod.snd := by
    rw [outstandingOf, List.filter_map, List.filter_filter]
    congr 1
    apply List.filter_congr
    intro e member
    simp only [Function.comp_apply, Outstanding, numbers e member, Bool.decide_and, ne_eq]
    grind
  rw [whole, upTo, behind, ← List.map_append]
  exact (List.filter_append_perm (fun e => decide (e.1 ≤ number)) _).symm.map Prod.snd

/-- The packets up to a number leave the counters. -/
theorem Accounts.acknowledge (accounts : Accounts t) (number : Int) :
    Accounts (t.acknowledge number) := by
  unfold TransportFeedbackAdapter.acknowledge
  split
  · rename_i ahead
    obtain ⟨numbers, sizes, ids, old, holds, unsent, fresh⟩ := accounts
    rw [← List.foldl_map (f := Prod.snd)
      (g := fun (tracker : InFlightBytesTracker) p => tracker.removeInFlightPacketBytes p)]
    have removed : ∀ q ∈ (t.history.between t.lastAckSeqNum number).map Prod.snd,
        ∃ e ∈ t.history.entries, e.2 = q := by
      intro q member
      obtain ⟨e, there, same⟩ := List.mem_map.mp member
      exact ⟨e, (List.mem_filter.mp there).1, same⟩
    refine ⟨numbers, sizes, ids, old, ?_, ?_, ?_⟩
    · exact (holds.perm (outstandingOf_split numbers ahead)).removeAll
    · intro e member notYet
      refine (changes_removeAll_other _ _ ?_).trans (unsent e member notYet)
      intro q there sent same
      obtain ⟨d, inside, rfl⟩ := removed q there
      rw [List.inj_on_of_nodup_map ids inside member same] at sent
      exact sent notYet
    · intro id new
      refine (changes_removeAll_other _ _ ?_).trans (fresh id new)
      intro q there _ same
      obtain ⟨d, inside, rfl⟩ := removed q there
      have known := old d inside
      have notYet : t.added ≤ id := new
      omega
  · exact accounts

theorem acknowledge_lastAckSeqNum (t : TransportFeedbackAdapter) (number : Int) :
    number ≤ (t.acknowledge number).lastAckSeqNum := by
  unfold TransportFeedbackAdapter.acknowledge
  split
  · exact Int.le_refl _
  · rename_i behind
    exact Int.not_lt.mp behind

theorem Accounts.retrieve (accounts : Accounts t) (number : Int) (received : Bool) :
    Accounts (t.retrieve number received).2 := by
  have acknowledged := accounts.acknowledge number
  have behind := acknowledge_lastAckSeqNum t number
  simp only [TransportFeedbackAdapter.retrieve]
  split
  · exact acknowledged
  · rename_i p found
    split
    · exact acknowledged
    · split
      · have landed : ¬ Outstanding (t.acknowledge number).lastAckSeqNum p := by
          have same := acknowledged.numbers _ (SortedMap.find_eq_some.mp found)
          simp only at same
          intro flying
          have ahead := flying.2
          omega
        have holds := acknowledged.holds.perm (Accounts.outstanding_erase found)
        rw [if_neg landed] at holds
        exact acknowledged.erase found holds (fun _ _ => rfl) _
      · exact acknowledged

theorem Accounts.retrievePacketFeedback (accounts : Accounts t) (key : SsrcAndRtpSequencenumber)
    (received : Bool) : Accounts (t.retrievePacketFeedback key received).2 := by
  simp only [TransportFeedbackAdapter.retrievePacketFeedback]
  split
  · exact accounts
  · exact accounts.retrieve _ received

theorem processPacketInfo_adapter (offset : Int) (r : Results) (info : Rtcp.PacketInfo) :
    (processPacketInfo offset r info).adapter =
      (r.adapter.retrievePacketFeedback ⟨info.ssrc, info.sequenceNumber⟩
        info.arrivalTimeOffset.isFinite).2 := by
  simp only [processPacketInfo]
  split
  · rfl
  · split
    · rfl
    · split <;> rfl

theorem Accounts.processPacketInfos {r : Results} (accounts : Accounts r.adapter) (offset : Int)
    (packets : List Rtcp.PacketInfo) :
    Accounts (packets.foldl (processPacketInfo offset) r).adapter := by
  induction packets generalizing r with
  | nil => exact accounts
  | cons info rest ih =>
    refine ih (r := processPacketInfo offset r info) ?_
    rw [processPacketInfo_adapter]
    exact accounts.retrievePacketFeedback _ _

theorem processCongestionControlFeedback_adapter (t : TransportFeedbackAdapter)
    {feedback : CongestionControlFeedback} (nonempty : feedback.packets ≠ []) (feedbackReceiveTime : Int) :
    ∃ offset, (t.processCongestionControlFeedback feedback feedbackReceiveTime).2 =
      (feedback.packets.foldl (processPacketInfo offset) { adapter := { t with
        currentOffset := some offset
        lastFeedbackCompactNtpTime := some feedback.reportTimestampCompactNtp } }).adapter := by
  simp only [TransportFeedbackAdapter.processCongestionControlFeedback, if_neg nonempty,
    apply_ite Prod.snd, ite_self]
  exact ⟨_, rfl⟩

theorem Accounts.processCongestionControlFeedback (accounts : Accounts t)
    (feedback : CongestionControlFeedback) (feedbackReceiveTime : Int) :
    Accounts (t.processCongestionControlFeedback feedback feedbackReceiveTime).2 := by
  by_cases empty : feedback.packets = []
  · simpa only [TransportFeedbackAdapter.processCongestionControlFeedback, if_pos empty] using accounts
  · obtain ⟨offset, result⟩ := processCongestionControlFeedback_adapter t empty feedbackReceiveTime
    have renewed : Accounts { t with
        currentOffset := some offset
        lastFeedbackCompactNtpTime := some feedback.reportTimestampCompactNtp } :=
      ⟨accounts.numbers, accounts.sizes, accounts.ids, accounts.old, accounts.holds,
        accounts.unsent, accounts.fresh⟩
    rw [result]
    exact Accounts.processPacketInfos (r := { adapter := _ }) renewed _ _

theorem Accounts.addPacket (accounts : Accounts t) (packetToSend : RtpPacketToSend)
    (pacingInfo : PacedPacketInfo) (overheadBytes : Nat) (creationTime : Int) :
    Accounts (t.addPacket packetToSend pacingInfo overheadBytes creationTime).2 := by
  simp only [TransportFeedbackAdapter.addPacket]
  split
  · exact accounts
  · rename_i transportSequenceNumber _
    have renewed : Accounts { t with
        seqNumUnwrapper := (t.seqNumUnwrapper.unwrap (BitVec.ofInt 16 transportSequenceNumber)).2 } :=
      ⟨accounts.numbers, accounts.sizes, accounts.ids, accounts.old, accounts.holds,
        accounts.unsent, accounts.fresh⟩
    have dropped := renewed.dropOld creationTime t.history.entries.length
    have size : (0 : Int) ≤ packetToSend.size + overheadBytes := by omega
    have added := dropOld_added creationTime t.history.entries.length { t with
      seqNumUnwrapper := (t.seqNumUnwrapper.unwrap (BitVec.ofInt 16 transportSequenceNumber)).2 }
    split <;> exact dropped.emplace added.symm (by rfl) size (by rfl) _

/-! ### Runs -/

inductive Event where
  | addPacket (packet : RtpPacketToSend) (pacingInfo : PacedPacketInfo) (overheadBytes : Nat)
      (creationTime : Int)
  | removePacket (packet : RtpPacketToSend)
  | processSentPacket (sentPacket : TransportSentPacket)
  | processCongestionControlFeedback (feedback : CongestionControlFeedback) (receiveTime : Int)
  | setNetworkRoute (networkRoute : NetworkRoute)

def Event.apply (t : TransportFeedbackAdapter) : Event → TransportFeedbackAdapter
  | addPacket packet pacingInfo overheadBytes creationTime =>
    (t.addPacket packet pacingInfo overheadBytes creationTime).2
  | removePacket packet => (t.removePacket packet).2
  | processSentPacket sentPacket => (t.processSentPacket sentPacket).2
  | processCongestionControlFeedback feedback receiveTime =>
    (t.processCongestionControlFeedback feedback receiveTime).2
  | setNetworkRoute networkRoute => t.setNetworkRoute networkRoute

/-- A removal finds no packet that was sent and is acknowledged already, unless the packet has
no bytes or nothing is counted on its route. -/
def Unacknowledged (t : TransportFeedbackAdapter) : Event → Prop
  | .removePacket packet => ∀ found ∈ t.registered packet, found.2.sent.sendTime ≠ none →
      t.lastAckSeqNum < found.2.sent.sequenceNumber ∨ found.2.sent.size = 0 ∨
        t.inFlight.data found.2.networkRoute.key = none
  | _ => True

theorem Accounts.removePacket (accounts : Accounts t) (packet : RtpPacketToSend)
    (harmless : Unacknowledged t (.removePacket packet)) : Accounts (t.removePacket packet).2 := by
  have renewed : ∀ {t : TransportFeedbackAdapter} mapping, Accounts t →
      Accounts { t with rtpToTransportSequenceNumber := mapping } :=
    fun _ accounts => ⟨accounts.numbers, accounts.sizes, accounts.ids, accounts.old, accounts.holds,
      accounts.unsent, accounts.fresh⟩
  simp only [TransportFeedbackAdapter.removePacket]
  split
  · exact accounts
  · rename_i number mapped
    split
    · rename_i p found
      have registered : t.registered packet = some (number, p) := by
        simp [registered, mapped, found]
      have holds := accounts.holds.perm (Accounts.outstanding_erase found)
      refine renewed _ (accounts.erase found ?_ ?_ t.rtpToTransportSequenceNumber)
      · by_cases unsent : p.sent.sendTime = none
        · rw [if_neg fun flying => flying.1 unsent] at holds
          rw [if_neg (not_not.mpr unsent)]
          exact holds
        · rw [if_pos unsent]
          by_cases ahead : t.lastAckSeqNum < p.sent.sequenceNumber
          · rw [if_pos ⟨unsent, ahead⟩] at holds
            exact holds.remove unsent
          · rw [if_neg fun flying => ahead flying.2] at holds
            rcases harmless _ registered unsent with flying | empty | uncounted
            · exact absurd flying ahead
            · exact holds.remove_empty empty
            · rw [removeInFlightPacketBytes_uncounted uncounted]
              exact holds
      · intro id other
        split
        · exact changes_remove_other t.inFlight other
        · rfl
    · exact renewed _ accounts

/-- The condition is exact: any other removal takes the bytes of a packet off a counter that it
has left before. -/
theorem Accounts.removePacket_iff (accounts : Accounts t) (packet : RtpPacketToSend) :
    Accounts (t.removePacket packet).2 ↔ Unacknowledged t (.removePacket packet) := by
  refine ⟨fun after => ?_, accounts.removePacket packet⟩
  rintro ⟨number, p⟩ registered sent
  obtain ⟨mapped, key, found⟩ := Option.bind_eq_some_iff.mp registered
  obtain ⟨_, found, same⟩ := Option.map_eq_some_iff.mp found
  cases same
  by_contra! harmful
  obtain ⟨behind, size, counted⟩ := harmful
  obtain ⟨bytes, known⟩ := Option.ne_none_iff_exists'.mp counted
  have landed : ¬ Outstanding t.lastAckSeqNum p := fun flying => absurd flying.2 (not_lt.mpr behind)
  have before := (accounts.holds.perm (Accounts.outstanding_erase found)).counts p.networkRoute.key
  have counter := counter_remove sent known p.networkRoute.key
  have counts := after.holds.counts p.networkRoute.key
  simp only [TransportFeedbackAdapter.removePacket, key, found, if_pos sent, outstanding] at counts
  rw [if_neg landed, List.nil_append] at before
  rw [counter, before, bytesOn, if_pos rfl] at counts
  omega

theorem Accounts.apply (accounts : Accounts t) (e : Event) (harmless : Unacknowledged t e) :
    Accounts (e.apply t) := by
  cases e with
  | addPacket packet pacingInfo overheadBytes creationTime =>
    exact accounts.addPacket packet pacingInfo overheadBytes creationTime
  | removePacket packet => exact accounts.removePacket packet harmless
  | processSentPacket sentPacket => exact accounts.processSentPacket sentPacket
  | processCongestionControlFeedback feedback receiveTime =>
    exact accounts.processCongestionControlFeedback feedback receiveTime
  | setNetworkRoute networkRoute =>
    exact ⟨accounts.numbers, accounts.sizes, accounts.ids, accounts.old, accounts.holds,
      accounts.unsent, accounts.fresh⟩

/-- The bytes in flight are those of the packets of the history that were sent and have a number
above the last acknowledged one. -/
structure Accounted (t : TransportFeedbackAdapter) : Prop where
  counts : ∀ route : NetworkRoute, t.inFlight.getOutstandingData route =
    ((t.outstanding.filter fun p => p.networkRoute.key = route.key).map fun p => p.sent.size).sum
  nonneg : ∀ route, 0 ≤ t.inFlight.getOutstandingData route
  added : ∀ p ∈ t.outstanding,
    changes t.inFlight.journal p.id = if p.sent.size = 0 then [] else [p.sent.size]
  removed : ∀ id, (∀ p ∈ t.outstanding, p.id ≠ id) → Settled (changes t.inFlight.journal id)
  zero : (∀ p ∈ t.outstanding, p.networkRoute.key ≠ t.networkRoute.key) → t.getOutstandingData = 0

theorem Accounts.accounted (accounts : Accounts t) : Accounted t := by
  have counts : ∀ route : NetworkRoute, t.inFlight.getOutstandingData route =
      ((t.outstanding.filter fun p => p.networkRoute.key = route.key).map fun p => p.sent.size).sum := by
    intro route
    have sum := accounts.holds.counts route.key
    rw [InFlightBytesTracker.getOutstandingData, sum]
    generalize t.outstanding = packets
    induction packets with
    | nil => rfl
    | cons p rest ih =>
      by_cases same : p.networkRoute.key = route.key <;> simp [bytesOn, same, ih]
  refine ⟨counts, ?_, accounts.holds.booked, ?_, ?_⟩
  · intro route
    rw [InFlightBytesTracker.getOutstandingData, accounts.holds.counts]
    exact bytesOn_nonneg accounts.holds.sizes route.key
  · intro id absent
    refine accounts.holds.settled id fun member => ?_
    obtain ⟨p, there, same⟩ := List.mem_map.mp member
    exact absent p there same
  · intro none
    have nothing : (t.outstanding.filter fun p => p.networkRoute.key = t.networkRoute.key) = [] := by
      simpa [List.filter_eq_nil_iff] using none
    rw [TransportFeedbackAdapter.getOutstandingData, counts, nothing]
    rfl

theorem Accounts.initial : Accounts {} :=
  ⟨by simp [SortedMap.empty], by simp [SortedMap.empty], List.nodup_nil, by simp [SortedMap.empty],
    ⟨by simp [outstanding, outstandingOf, SortedMap.empty], List.nodup_nil, fun _ => rfl,
      by simp [outstanding, outstandingOf, SortedMap.empty], fun _ _ => .inl rfl⟩,
    by simp [SortedMap.empty], fun _ _ => rfl⟩

/-- As long as no acknowledged packet is rolled back, every state of every run accounts for the
bytes in flight. -/
theorem bytes_in_flight (reachable : Runs.Reachable (· = {})
    (Runs.Guarded Unacknowledged fun t e t' => e.apply t = t') t) : Accounted t := by
  refine (@Runs.Reachable.invariant _ _ _ Accounts ?_ ?_ _ reachable).accounted
  · intro t first
    exact first ▸ Accounts.initial
  · rintro t t' accounts ⟨e, harmless, rfl⟩
    exact accounts.apply e harmless

section Concrete

def packetOf (number size : Nat) : RtpPacketToSend where
  ssrc := 7
  sequenceNumber := BitVec.ofNat 16 number
  size := size
  transportSequenceNumber := some number

def sentOf (number : Nat) : TransportSentPacket where
  packetId := number
  sendTimeMs := 5
  includedInFeedback := true

def acknowledgementOf (number : Nat) : CongestionControlFeedback where
  packets := [⟨7, BitVec.ofNat 16 number, .finite 0, .kNotEct⟩]
  reportTimestampCompactNtp := 0

/-- Two packets are sent and the second one is rolled back. -/
theorem bytes_in_flight_rolled_back :
    Accounted (Event.apply (Event.apply (Event.apply (Event.apply (Event.apply {}
      (.addPacket (packetOf 1 100) {} 0 0)) (.processSentPacket (sentOf 1)))
      (.addPacket (packetOf 2 50) {} 0 0)) (.processSentPacket (sentOf 2)))
      (.removePacket (packetOf 2 50))) := by
  have found : Unacknowledged (Event.apply (Event.apply (Event.apply (Event.apply {}
      (.addPacket (packetOf 1 100) {} 0 0)) (.processSentPacket (sentOf 1)))
      (.addPacket (packetOf 2 50) {} 0 0)) (.processSentPacket (sentOf 2)))
      (.removePacket (packetOf 2 50)) := by
    unfold Unacknowledged
    decide
  refine bytes_in_flight (.guarded (.removePacket (packetOf 2 50)) ?_ found rfl)
  refine .guarded (.processSentPacket (sentOf 2)) ?_ trivial rfl
  refine .guarded (.addPacket (packetOf 2 50) {} 0 0) ?_ trivial rfl
  refine .guarded (.processSentPacket (sentOf 1)) ?_ trivial rfl
  exact .guarded (.addPacket (packetOf 1 100) {} 0 0) (.start rfl) trivial rfl

/-- A packet is registered, and marked as sent, before it is handed to the transport. The
acknowledgement of packet 2 ends the flight of packet 1 too, and then packet 1 fails. -/
def rolledBackLate : List Event :=
  [.addPacket (packetOf 1 100) {} 0 0, .processSentPacket (sentOf 1),
    .addPacket (packetOf 2 50) {} 0 0, .processSentPacket (sentOf 2),
    .processCongestionControlFeedback (acknowledgementOf 2) 9000,
    .addPacket (packetOf 3 30) {} 0 0, .processSentPacket (sentOf 3),
    .removePacket (packetOf 1 100)]

/-- The bytes of packet 1 are taken from those of packet 3. -/
theorem rolled_back_late :
    (rolledBackLate.foldl Event.apply {}).getOutstandingData = -70 ∧
    (rolledBackLate.foldl Event.apply {}).outstanding.map (fun p => p.sent.size) = [30] ∧
    ¬ Accounted (rolledBackLate.foldl Event.apply {}) := by
  have counter : (rolledBackLate.foldl Event.apply {}).getOutstandingData = -70 := by decide
  refine ⟨counter, by decide, fun accounted => ?_⟩
  have nonneg := accounted.nonneg (rolledBackLate.foldl Event.apply {}).networkRoute
  rw [TransportFeedbackAdapter.getOutstandingData] at counter
  omega

end Concrete

end TransportFeedbackAdapter

end MiniRtc.Qos
