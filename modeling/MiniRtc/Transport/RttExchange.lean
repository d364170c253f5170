import MiniRtc.Lib.Runs
import MiniRtc.Transport.RttProbes

/-! Two peers that probe each other (receiver_rtt.h, `IceTransport::HandleExtendedReport`). The network may
copy, lose and reorder what they send; a probe is answered once for each copy that arrives, and a reply is
not answered. -/
namespace MiniRtc.Transport
open Wire Rtcp

/-! ### What a handler sends -/

/-- The packets for the agent. -/
def Handling.sent (s : Handling) : List Bytes :=
  s.calls.filterMap fun
    | .send packet => some packet
    | _ => none

theorem Handling.sent_call (s : Handling) (c : RtcpCall) :
    (s.call c).sent = s.sent ++ ({ calls := [c] } : Handling).sent := by
  rw [Handling.sent, Handling.call, List.filterMap_append]
  rfl

theorem receiveReply_sublist (pending : List ProbeTime) (reply : Dlrr) (localSsrc : BitVec 32) (nowUs : Int) :
    (receiveReply pending reply localSsrc nowUs).2.Sublist pending := by
  rcases receiveReply_cases pending reply localSsrc nowUs with nothing | ⟨probe, found, left, sample⟩
  · rw [nothing]
  · rw [left]
    exact List.eraseP_sublist

namespace RtcpInput

variable (t : RtcpInput)

theorem handleReply_sent (arrivalUs : Int) (referenceTime : Option (BitVec 64)) (s : Handling) (reply : Dlrr) :
    (t.handleReply arrivalUs referenceTime s reply).sent = s.sent ∧
      (t.handleReply arrivalUs referenceTime s reply).pending.Sublist s.pending := by
  have part := receiveReply_sublist s.pending reply t.receiverRttSsrc arrivalUs
  unfold handleReply
  generalize receiveReply s.pending reply t.receiverRttSsrc arrivalUs = received at part
  obtain ⟨_ | rtt, pending⟩ := received
  · exact ⟨rfl, part⟩
  simp only at part ⊢
  split
  · cases referenceTime with
    | none =>
      refine ⟨?_, part⟩
      rw [Handling.sent_call]
      exact List.append_nil _
    | some time =>
      simp only
      split
      · refine ⟨?_, part⟩
        rw [Handling.sent_call]
        refine (List.append_nil _).trans ?_
        rw [Handling.sent, Handling.call, List.filterMap_append]
        exact List.append_nil _
      · refine ⟨?_, part⟩
        rw [Handling.sent_call]
        exact List.append_nil _
  · exact ⟨rfl, part⟩

theorem handleReplies_sent (arrivalUs : Int) (referenceTime : Option (BitVec 64)) (replies : List Dlrr) (s : Handling) :
    (replies.foldl (t.handleReply arrivalUs referenceTime) s).sent = s.sent ∧
      (replies.foldl (t.handleReply arrivalUs referenceTime) s).pending.Sublist s.pending := by
  induction replies generalizing s with
  | nil => exact ⟨rfl, List.Sublist.refl _⟩
  | cons reply replies ih =>
    obtain ⟨sent, part⟩ := t.handleReply_sent arrivalUs referenceTime s reply
    obtain ⟨later, rest⟩ := ih (t.handleReply arrivalUs referenceTime s reply)
    exact ⟨later.trans sent, rest.trans part⟩

/-- The packets that answer a report: one for a probe, none for a reply. -/
theorem handleExtendedReport_sent (s : Handling) {block : RtcpCommonHeader} {report : RttReport}
    (content : RttReport.parse block.region = some (some report)) :
    ∃ s' answers, t.handleExtendedReport s block = some (true, s') ∧ s'.sent = s.sent ++ answers ∧
      s'.pending.Sublist s.pending ∧ answers.length ≤ (if report.needsReply then 1 else 0) ∧
      ∀ packet ∈ answers, ∃ ntp delayUs replyNtp,
        packet = replyOctets t.receiverRttSsrc report.senderSsrc ntp delayUs replyNtp := by
  rw [handleExtendedReport, content]
  simp only [Option.bind_eq_bind, Option.bind_some, Option.pure_def]
  have quiet : ∀ (time : Option (BitVec 64)) (s' : Handling), s'.sent = s.sent → s'.pending = s.pending →
      ∃ after answers, some (true, report.replies.foldl (t.handleReply (t.timeUs s.readings) time) s') =
        some (true, after) ∧ after.sent = s.sent ++ answers ∧ after.pending.Sublist s.pending ∧
        answers.length ≤ (if report.needsReply then 1 else 0) ∧
        ∀ packet ∈ answers, ∃ ntp delayUs replyNtp,
          packet = replyOctets t.receiverRttSsrc report.senderSsrc ntp delayUs replyNtp := by
    intro time s' sent pending
    obtain ⟨same, part⟩ := t.handleReplies_sent (t.timeUs s.readings) time report.replies s'
    refine ⟨_, [], rfl, ?_, pending ▸ part, Nat.zero_le _, fun packet wrong => absurd wrong List.not_mem_nil⟩
    rw [same, sent, List.append_nil]
  generalize report.referenceTime = time
  cases time with
  | none => exact quiet none { s with readings := s.readings + 1 } rfl rfl
  | some ntp =>
    simp only
    split
    · rename_i asks
      obtain ⟨needs, agent⟩ := (Bool.and_eq_true _ _).mp asks
      let packet := replyOctets t.receiverRttSsrc report.senderSsrc ntp
        (t.timeUs (s.readings + 1) - t.timeUs s.readings).toNat
        (SystemClock.monotonicTimeUsToNtp t.monotonicToUtcOffsetUs (t.timeUs (s.readings + 1)))
      obtain ⟨same, part⟩ := t.handleReplies_sent (t.timeUs s.readings) (some ntp) report.replies
        (Handling.call { s with readings := s.readings + 1 + 1 } (.send packet))
      refine ⟨_, [packet], rfl, ?_, part, ?_, fun other member => ?_⟩
      · rw [same, Handling.sent_call]
        rfl
      · rw [if_pos needs]
        exact le_rfl
      · rw [List.mem_singleton.mp member]
        exact ⟨_, _, _, rfl⟩
    · exact quiet (some ntp) { s with readings := s.readings + 1 } rfl rfl

/-- A packet of one report goes through the loop once. -/
theorem parseRtcpPacket_report {packet : Bytes} {header : RtcpCommonHeader} {report : RttReport}
    (reports : Reports packet header report) (pending : List ProbeTime) :
    ∃ w, t.parseRtcpPacket pending packet = some (true, w) ∧ w.handling.pending.Sublist pending ∧
      w.handling.sent.length ≤ (if report.needsReply then 1 else 0) ∧
      ∀ packet ∈ w.handling.sent, ∃ ntp delayUs replyNtp,
        packet = replyOctets t.receiverRttSsrc report.senderSsrc ntp delayUs replyNtp := by
  obtain ⟨s', answers, handled, sent, part, few, replies⟩ :=
    t.handleExtendedReport_sent { pending } reports.content
  have sent' : s'.sent = answers := sent
  have handled' : t.handleBlock { pending } header = some (true, s') := by
    rw [handleBlock, if_pos reports.extended]
    exact handled
  have long : 4 ≤ packet.length := by
    rw [← reports.whole, RtcpCommonHeader.packetSize]
    omega
  obtain ⟨turns, size⟩ := Nat.exists_eq_succ_of_ne_zero (show packet.length ≠ 0 by omega)
  have some' : packet ≠ [] := List.ne_nil_of_length_pos (by omega)
  have walked : ∃ blocks, t.walkBlocks (packet.length + 1) packet { handling := { pending } } =
      some { handling := s', valid := true, covered := true, blocks } := by
    rw [walkBlocks, if_neg some', RtcpCommonHeader.parseChecked_eq, reports.parsed]
    simp only [Option.bind_eq_bind, Option.bind_some]
    rw [reports.whole, if_neg (by omega), handled', List.drop_length, size]
    exact ⟨_, rfl⟩
  obtain ⟨blocks, walked⟩ := walked
  rw [parseRtcpPacket, if_neg some', walked]
  simp only [Option.bind_eq_bind, Option.bind_some, Bool.and_self, if_true]
  split
  · refine ⟨_, rfl, part, ?_, ?_⟩
    · rw [Handling.sent_call, sent']
      exact (List.append_nil answers).symm ▸ few
    · rw [Handling.sent_call, sent']
      exact (List.append_nil answers).symm ▸ replies
  · exact ⟨_, rfl, part, sent' ▸ few, sent' ▸ replies⟩

end RtcpInput

/-! ### The exchange -/

inductive Peer where
  | first
  | second
deriving DecidableEq, Repr

def Peer.other : Peer → Peer
  | .first => .second
  | .second => .first

/-- A copy of a packet on its way, and whether a probe made it. -/
structure Copy where
  octets : Bytes
  asks : Bool

/-- Two peers, what is on the way to each, and what has happened. -/
structure RttExchange where
  pending : Peer → List ProbeTime := fun _ => []
  flying : Peer → List Copy := fun _ => []
  probes : Nat := 0
  copies : Nat := 0
  deliveries : Nat := 0
  asked : Peer → Nat := fun _ => 0
  answers : Peer → Nat := fun _ => 0

inductive RttStep where
  | probe (p : Peer) (ssrc : BitVec 32) (ntp : BitVec 64) (nowUs : Int)
  | reset (p : Peer)
  | copy (p : Peer) (i : Nat)
  | lose (p : Peer) (i : Nat)
  | deliver (p : Peer) (i : Nat) (t : RtcpInput)

/-- A copy has arrived, and what its receiver sends is on the way back. -/
def RttExchange.delivered (s : RttExchange) (p : Peer) (i : Nat) (c : Copy) (handling : Handling) : RttExchange :=
  let flying := Function.update s.flying p ((s.flying p).eraseIdx i)
  { s with
    pending := Function.update s.pending p handling.pending
    flying := Function.update flying p.other (flying p.other ++ handling.sent.map fun packet => ⟨packet, false⟩)
    deliveries := s.deliveries + 1
    asked := Function.update s.asked p (s.asked p + if c.asks then 1 else 0)
    answers := Function.update s.answers p (s.answers p + handling.sent.length) }

/-- A step; none for a copy that is not there, and for a read outside of a packet. -/
def RttExchange.step (s : RttExchange) : RttStep → Option RttExchange
  | .probe p ssrc ntp nowUs => some { s with
      pending := Function.update s.pending p (keepProbe (s.pending p) ntp nowUs)
      flying := Function.update s.flying p.other (s.flying p.other ++ [⟨probeOctets ssrc ntp, true⟩])
      probes := s.probes + 1 }
  | .reset p => some { s with pending := Function.update s.pending p [] }
  | .copy p i => do
    let c ← (s.flying p)[i]?
    return { s with flying := Function.update s.flying p (s.flying p ++ [c]), copies := s.copies + 1 }
  | .lose p i => some { s with flying := Function.update s.flying p ((s.flying p).eraseIdx i) }
  | .deliver p i t => do
    let c ← (s.flying p)[i]?
    let (_, w) ← t.parseRtcpPacket (s.pending p) c.octets
    return s.delivered p i c w.handling

/-- What the peers have written. -/
def Copy.Written (c : Copy) : Prop :=
  if c.asks then ∃ ssrc ntp, c.octets = probeOctets ssrc ntp
  else ∃ localSsrc receiverSsrc ntp delayUs replyNtp,
    c.octets = replyOctets localSsrc receiverSsrc ntp delayUs replyNtp

theorem Copy.Written.reports {c : Copy} (written : c.Written) :
    ∃ header report, Reports c.octets header report ∧ (c.asks = false → report.needsReply = false) := by
  unfold Copy.Written at written
  split at written
  · rename_i asks
    obtain ⟨ssrc, ntp, same⟩ := written
    obtain ⟨header, reports⟩ := probe_reports ssrc ntp
    exact ⟨header, _, same ▸ reports, fun wrong => absurd (asks.symm.trans wrong) (by decide)⟩
  · obtain ⟨localSsrc, receiverSsrc, ntp, delayUs, replyNtp, same⟩ := written
    obtain ⟨header, reports⟩ := reply_reports localSsrc receiverSsrc ntp delayUs replyNtp
    exact ⟨header, _, same ▸ reports, fun _ => replied_quiet _ _ _ _ _⟩

/-- The deliveries that a copy is good for: its own, and that of its reply. -/
def Copy.load (c : Copy) : Nat := if c.asks then 2 else 1

def load (copies : List Copy) : Nat := (copies.map Copy.load).sum

theorem load_append (copies more : List Copy) : load (copies ++ more) = load copies + load more := by
  rw [load, List.map_append, List.sum_append]
  rfl

theorem load_eraseIdx {copies : List Copy} {i : Nat} {c : Copy} (here : copies[i]? = some c) :
    load (copies.eraseIdx i) + c.load = load copies := by
  obtain ⟨inside, same⟩ := List.getElem?_eq_some_iff.mp here
  have order := (List.getElem_cons_eraseIdx_perm inside).map Copy.load
  have sum := order.sum_eq
  rw [same, List.map_cons, List.sum_cons] at sum
  rw [load, load]
  omega

theorem load_eraseIdx_le (copies : List Copy) (i : Nat) : load (copies.eraseIdx i) ≤ load copies :=
  ((List.eraseIdx_sublist copies i).map Copy.load).sum_le_sum fun _ _ => Nat.zero_le _

theorem load_replies (packets : List Bytes) : load (packets.map fun packet => ⟨packet, false⟩) = packets.length := by
  rw [load, List.map_map]
  simp [Function.comp_def, Copy.load]

def total (flying : Peer → List Copy) : Nat := load (flying .first) + load (flying .second)

theorem total_update (flying : Peer → List Copy) (p : Peer) (copies : List Copy) :
    total (Function.update flying p copies) + load (flying p) = total flying + load copies := by
  cases p with
  | first =>
    simp [total]
    omega
  | second =>
    simp [total]
    omega

/-- What every exchange keeps. -/
structure RttExchange.Sound (s : RttExchange) : Prop where
  few : ∀ p, (s.pending p).length ≤ 8
  written : ∀ p, ∀ c ∈ s.flying p, c.Written
  answered : ∀ p, s.answers p ≤ s.asked p
  finite : s.deliveries + total s.flying ≤ 2 * (s.probes + s.copies)

theorem forall_update {α : Type} {f : Peer → α} (holds : α → Prop) (all : ∀ p, holds (f p)) {p : Peer} {a : α}
    (new : holds a) (q : Peer) : holds (Function.update f p a q) := by
  by_cases same : q = p
  · rw [same, Function.update_self]
    exact new
  · rw [Function.update_of_ne same]
    exact all q

namespace RttExchange.Sound

variable {s : RttExchange}

theorem probe (sound : s.Sound) (p : Peer) (ssrc : BitVec 32) (ntp : BitVec 64) (nowUs : Int) :
    Sound { s with
      pending := Function.update s.pending p (keepProbe (s.pending p) ntp nowUs)
      flying := Function.update s.flying p.other (s.flying p.other ++ [⟨probeOctets ssrc ntp, true⟩])
      probes := s.probes + 1 } := by
  refine ⟨?_, ?_, sound.answered, ?_⟩
  · exact forall_update (fun l : List ProbeTime => l.length ≤ 8) sound.few (keepProbe_length _ _ _)
  · refine forall_update (fun l : List Copy => ∀ c ∈ l, c.Written) sound.written fun c member => ?_
    rcases List.mem_append.mp member with old | new
    · exact sound.written _ c old
    · rw [List.mem_singleton.mp new]
      exact ⟨ssrc, ntp, rfl⟩
  · have sum := total_update s.flying p.other (s.flying p.other ++ [⟨probeOctets ssrc ntp, true⟩])
    have one : load [⟨probeOctets ssrc ntp, true⟩] = 2 := rfl
    have finite := sound.finite
    rw [load_append, one] at sum
    simp only
    omega

theorem reset (sound : s.Sound) (p : Peer) : Sound { s with pending := Function.update s.pending p [] } :=
  ⟨forall_update (fun l : List ProbeTime => l.length ≤ 8) sound.few (Nat.zero_le 8), sound.written, sound.answered,
    sound.finite⟩

theorem copy (sound : s.Sound) (p : Peer) {i : Nat} {c : Copy} (here : (s.flying p)[i]? = some c) :
    Sound { s with flying := Function.update s.flying p (s.flying p ++ [c]), copies := s.copies + 1 } := by
  have member : c ∈ s.flying p := List.mem_of_getElem? here
  refine ⟨sound.few, ?_, sound.answered, ?_⟩
  · refine forall_update (fun l : List Copy => ∀ c ∈ l, c.Written) sound.written fun d inside => ?_
    rcases List.mem_append.mp inside with old | new
    · exact sound.written p d old
    · rw [List.mem_singleton.mp new]
      exact sound.written p c member
  · have sum := total_update s.flying p (s.flying p ++ [c])
    have one : load [c] ≤ 2 := by
      rw [load, List.map_singleton, List.sum_singleton, Copy.load]
      split <;> omega
    have finite := sound.finite
    rw [load_append] at sum
    simp only
    omega

theorem lose (sound : s.Sound) (p : Peer) (i : Nat) :
    Sound { s with flying := Function.update s.flying p ((s.flying p).eraseIdx i) } := by
  refine ⟨sound.few, ?_, sound.answered, ?_⟩
  · exact forall_update (fun l : List Copy => ∀ c ∈ l, c.Written) sound.written fun c member =>
      sound.written p c (List.mem_of_mem_eraseIdx member)
  · have sum := total_update s.flying p ((s.flying p).eraseIdx i)
    have less := load_eraseIdx_le (s.flying p) i
    have finite := sound.finite
    simp only
    omega

/-- A delivery is never stuck, and its packet is answered once if it is a probe. -/
theorem deliver (sound : s.Sound) (p : Peer) {i : Nat} {c : Copy} (here : (s.flying p)[i]? = some c)
    (t : RtcpInput) : ∃ s', s.step (.deliver p i t) = some s' ∧ s'.Sound ∧
      s'.answers p ≤ s.answers p + if c.asks then 1 else 0 := by
  have member : c ∈ s.flying p := List.mem_of_getElem? here
  obtain ⟨header, report, reports, quiet⟩ := (sound.written p c member).reports
  obtain ⟨w, parsed, part, few, replies⟩ := t.parseRtcpPacket_report reports (s.pending p)
  have once : w.handling.sent.length ≤ if c.asks then 1 else 0 := by
    cases asks : c.asks with
    | true => exact few.trans (by split <;> simp)
    | false =>
      rw [quiet asks] at few
      exact few
  have stepped : s.step (.deliver p i t) = some (s.delivered p i c w.handling) := by
    rw [RttExchange.step, here]
    simp only [Option.bind_eq_bind, Option.bind_some]
    rw [parsed]
    rfl
  refine ⟨_, stepped, ⟨?_, ?_, ?_, ?_⟩, ?_⟩
  · exact forall_update (fun l : List ProbeTime => l.length ≤ 8) sound.few (part.length_le.trans (sound.few p))
  · have left : ∀ q, ∀ d ∈ Function.update s.flying p ((s.flying p).eraseIdx i) q, d.Written :=
      forall_update (fun l : List Copy => ∀ c ∈ l, c.Written) sound.written fun d inside =>
        sound.written p d (List.mem_of_mem_eraseIdx inside)
    refine forall_update (fun l : List Copy => ∀ c ∈ l, c.Written) left fun d inside => ?_
    rcases List.mem_append.mp inside with old | new
    · exact left _ d old
    · obtain ⟨packet, sent, rfl⟩ := List.mem_map.mp new
      obtain ⟨ntp, delayUs, replyNtp, same⟩ := replies packet sent
      exact ⟨_, _, ntp, delayUs, replyNtp, same⟩
  · intro q
    by_cases same : q = p
    · subst same
      simp only [RttExchange.delivered, Function.update_self]
      exact Nat.add_le_add (sound.answered q) once
    · simp only [RttExchange.delivered, Function.update_of_ne same]
      exact sound.answered q
  · have first := total_update s.flying p ((s.flying p).eraseIdx i)
    have second := total_update (Function.update s.flying p ((s.flying p).eraseIdx i)) p.other
      (Function.update s.flying p ((s.flying p).eraseIdx i) p.other ++
        w.handling.sent.map fun packet => ⟨packet, false⟩)
    have own := load_eraseIdx here
    have weight : (if c.asks then 1 else 0) + 1 = c.load := by
      unfold Copy.load
      split <;> rfl
    have finite := sound.finite
    rw [load_append, load_replies] at second
    simp only [RttExchange.delivered]
    omega
  · simp only [RttExchange.delivered, Function.update_self]
    omega

theorem step (sound : s.Sound) {e : RttStep} {s' : RttExchange} (moved : s.step e = some s') : s'.Sound := by
  cases e with
  | probe p ssrc ntp nowUs =>
    cases moved
    exact sound.probe p ssrc ntp nowUs
  | reset p =>
    cases moved
    exact sound.reset p
  | copy p i =>
    obtain ⟨c, here, made⟩ := Option.bind_eq_some_iff.mp moved
    cases made
    exact sound.copy p here
  | lose p i =>
    cases moved
    exact sound.lose p i
  | deliver p i t =>
    obtain ⟨c, here, -⟩ := Option.bind_eq_some_iff.mp moved
    obtain ⟨s'', moved', sound', -⟩ := sound.deliver p here t
    rw [moved] at moved'
    cases moved'
    exact sound'

end RttExchange.Sound

abbrev RttExchange.Reached : RttExchange → Prop :=
  Runs.Reachable (· = {}) (Runs.Steps fun s e s' => RttExchange.step s e = some s')

theorem RttExchange.Reached.sound {s : RttExchange} (reached : s.Reached) : s.Sound := by
  refine reached.invariant ?_ ?_
  · rintro s rfl
    exact ⟨fun _ => Nat.zero_le 8, fun _ _ wrong => absurd wrong List.not_mem_nil, fun _ => le_rfl, le_rfl⟩
  · rintro s s' sound ⟨e, -, moved⟩
    exact sound.step moved

/-- A probe and its reply read back. -/
theorem packets_reported (ssrc receiverSsrc : BitVec 32) (ntp replyNtp : BitVec 64) (delayUs : Nat) :
    (∃ header, Reports (probeOctets ssrc ntp) header { senderSsrc := ssrc, referenceTime := some ntp }) ∧
    ∃ header report, Reports (replyOctets ssrc receiverSsrc ntp delayUs replyNtp) header report ∧
      report.senderSsrc = ssrc ∧ report.referenceTime = (if replyNtp ≠ 0 then some replyNtp else none) ∧
      (∃ delay, report.replies = [⟨receiverSsrc, compact ntp, delay⟩] ∧
        (delayUs ≤ 65535 * 1000000 → delay.toNat = delayUs * 65536 / 1000000)) ∧
      report.needsReply = false := by
  refine ⟨probe_reports ssrc ntp, ?_⟩
  obtain ⟨header, reports⟩ := reply_reports ssrc receiverSsrc ntp delayUs replyNtp
  exact ⟨header, _, reports, rfl, rfl, ⟨_, rfl, replied_delay⟩, replied_quiet _ _ _ _ _⟩

/-- The extended reports: their octets, the exchange of two peers, and the samples of one. -/
theorem extended_report_rtt :
    (∀ payload report, ∃ accepted after, parseReport payload report = some (accepted, after) ∧
      (accepted = false → after = report)) ∧
    (∀ (ssrc receiverSsrc : BitVec 32) (ntp replyNtp : BitVec 64) (delayUs : Nat),
      (∃ header, Reports (probeOctets ssrc ntp) header { senderSsrc := ssrc, referenceTime := some ntp }) ∧
      ∃ header report, Reports (replyOctets ssrc receiverSsrc ntp delayUs replyNtp) header report ∧
        report.senderSsrc = ssrc ∧ report.referenceTime = (if replyNtp ≠ 0 then some replyNtp else none) ∧
        (∃ delay, report.replies = [⟨receiverSsrc, compact ntp, delay⟩] ∧
          (delayUs ≤ 65535 * 1000000 → delay.toNat = delayUs * 65536 / 1000000)) ∧
        report.needsReply = false) ∧
    (∀ s : RttExchange, s.Reached →
      (∀ p, s.answers p ≤ s.asked p) ∧ s.deliveries ≤ 2 * (s.probes + s.copies) ∧
      ∀ p i c t, (s.flying p)[i]? = some c → ∃ s', s.step (.deliver p i t) = some s' ∧
        s'.answers p ≤ s.answers p + if c.asks then 1 else 0) ∧
    ∀ calls, (measured calls).pending.length ≤ 8 ∧
      ∃ source : Nat → Nat, Set.InjOn source {i | ∃ rttUs, (measured calls).results[i]? = some (some rttUs)} ∧
        ∀ i rttUs, (measured calls).results[i]? = some (some rttUs) →
          (0 ≤ rttUs ∧ rttUs ≤ 2000000) ∧ Measures calls (source i) i rttUs := by
  refine ⟨parseReport_within, fun _ _ _ _ _ => packets_reported _ _ _ _ _, fun s reached => ?_, fun calls => ?_⟩
  · have sound := reached.sound
    have finite := sound.finite
    refine ⟨sound.answered, by omega, fun p i c t here => ?_⟩
    obtain ⟨s', moved, -, once⟩ := sound.deliver p here t
    exact ⟨s', moved, once⟩
  · obtain ⟨asked, source, accounted⟩ := measured_accounted calls
    exact ⟨accounted.few, source, accounted.once, accounted.right⟩

end MiniRtc.Transport
