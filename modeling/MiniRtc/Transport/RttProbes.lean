import MiniRtc.Rtcp.ExtendedReport
import MiniRtc.Transport.RtcpInput

/-! The probes of the round trip (receiver_rtt.h). The octets of a probe and of a reply are read back as
they were written, and in any run of probes, replies and resets a probe is measured once at most. -/
namespace MiniRtc.Transport
open Wire Rtcp

/-- `ReceiverRtt::Compact`. -/
def compact (ntp : BitVec 64) : BitVec 32 := (ntp >>> 16).setWidth 32

/-- The octets of `ReceiverRtt::Probe`. -/
def probeOctets (ssrc : BitVec 32) (ntp : BitVec 64) : Bytes :=
  ([0x80, 207, 0, BitVec.ofNat 8 (20 / 4 - 1)] : Bytes) ++ put32 ssrc ++ ([4, 0, 0, 2] : Bytes) ++
    put32 ((ntp >>> 32).setWidth 32) ++ put32 (ntp.setWidth 32)

/-- The probes that `ReceiverRtt::Probe` keeps. -/
def keepProbe (pending : List ProbeTime) (ntp : BitVec 64) (nowUs : Int) : List ProbeTime :=
  let pending := pending ++ [⟨compact ntp, nowUs⟩]
  pending.drop (pending.length - 8)

/-- `ReceiverRtt::Parse` with its out parameter. -/
def parseReport (payload : Bytes) (report : RttReport) : Option (Bool × RttReport) := do
  match ← RttReport.parse payload with
  | none => return (false, report)
  | some parsed => return (true, parsed)

theorem parseReport_within (payload : Bytes) (report : RttReport) :
    ∃ accepted after, parseReport payload report = some (accepted, after) ∧ (accepted = false → after = report) := by
  obtain ⟨result, parsed⟩ := RttReport.parse_within payload
  rw [parseReport, parsed]
  cases result with
  | none => exact ⟨false, report, rfl, fun _ => rfl⟩
  | some other => exact ⟨true, other, rfl, fun wrong => absurd wrong (by decide)⟩

/-! ### Reading back -/

/-- A packet of one extended report, and what it says. -/
structure Reports (packet : Bytes) (header : RtcpCommonHeader) (report : RttReport) : Prop where
  parsed : RtcpCommonHeader.parse packet = some header
  extended : header.packetType = 207
  whole : header.packetSize = packet.length
  content : RttReport.parse header.region = some (some report)

theorem parse_extended {words : Nat} (short : words < 256) {body : Bytes} (aligned : body.length = 4 * words) :
    RtcpCommonHeader.parse ([0x80, 207, 0, BitVec.ofNat 8 words] ++ body) =
      some { packetType := 207, countOrFormat := 0, payloadSize := body.length, payload := body } := by
  have head : RtcpCommonHeader.create DEFAULT_RTCP_VERSION 0 (BitVec.ofNat 8 0) 207 (BitVec.ofNat 16 words) =
      [0x80, 207, 0, BitVec.ofNat 8 words] := by
    have value : (BitVec.ofNat 16 words).toNat = words := by
      rw [BitVec.toNat_ofNat]
      omega
    have high : words >>> 8 = 0 := by
      rw [Nat.shiftRight_eq_div_pow]
      omega
    rw [RtcpCommonHeader.create, put16, value, high]
    rfl
  rw [← head]
  exact parse_create (by decide) 207 aligned (by omega)

theorem reports_of_payload {words : Nat} (short : words < 256) {body : Bytes} (aligned : body.length = 4 * words)
    {report : RttReport} (content : RttReport.parse body = some (some report)) :
    ∃ header, Reports ([0x80, 207, 0, BitVec.ofNat 8 words] ++ body) header report := by
  refine ⟨_, parse_extended short aligned, rfl, ?_, ?_⟩
  · simp only [RtcpCommonHeader.packetSize, List.length_append, List.length_cons, List.length_nil]
    omega
  · rw [RtcpCommonHeader.region, List.take_length]
    exact content

theorem probe_reports (ssrc : BitVec 32) (ntp : BitVec 64) :
    ∃ header, Reports (probeOctets ssrc ntp) header { senderSsrc := ssrc, referenceTime := some ntp } :=
  @reports_of_payload 4 (by decide) (put32 ssrc ++ RttReport.timeOctets ntp) rfl _ (RttReport.parse_time ssrc ntp)

/-- What the source writes into a reply. -/
def replied (localSsrc receiverSsrc : BitVec 32) (ntp : BitVec 64) (delayUs : Nat) (replyNtp : BitVec 64) :
    RttReport where
  senderSsrc := localSsrc
  referenceTime := if replyNtp ≠ 0 then some replyNtp else none
  replies := [⟨receiverSsrc, compact ntp, BitVec.ofNat 32 (delayUs * 65536 / 1000000)⟩]

theorem reply_reports (localSsrc receiverSsrc : BitVec 32) (ntp : BitVec 64) (delayUs : Nat) (replyNtp : BitVec 64) :
    ∃ header, Reports (replyOctets localSsrc receiverSsrc ntp delayUs replyNtp) header
      (replied localSsrc receiverSsrc ntp delayUs replyNtp) := by
  unfold replyOctets replied compact
  generalize BitVec.ofNat 32 (delayUs * 65536 / 1000000) = delay
  generalize (ntp >>> 16).setWidth 32 = lastRr
  by_cases timed : replyNtp ≠ 0
  · have shape := @reports_of_payload 8 (by decide) _ rfl _
      (RttReport.parse_reply_time localSsrc ⟨receiverSsrc, lastRr, delay⟩ replyNtp)
    simp only [if_pos timed]
    simpa only [RttReport.replyBlock, RttReport.timeOctets, RttReport.blockOctets, List.append_assoc] using shape
  · have shape := @reports_of_payload 5 (by decide) _ rfl _
      (RttReport.parse_reply localSsrc ⟨receiverSsrc, lastRr, delay⟩)
    simp only [if_neg timed]
    simpa only [RttReport.replyBlock, RttReport.blockOctets, List.append_assoc, List.append_nil] using shape

theorem replied_quiet (localSsrc receiverSsrc : BitVec 32) (ntp : BitVec 64) (delayUs : Nat) (replyNtp : BitVec 64) :
    (replied localSsrc receiverSsrc ntp delayUs replyNtp).needsReply = false := by
  simp [RttReport.needsReply, replied]

/-- A delay of less than 18.2 hours fits into its 32 bits. -/
theorem replied_delay {delayUs : Nat} (short : delayUs ≤ 65535 * 1000000) :
    (BitVec.ofNat 32 (delayUs * 65536 / 1000000)).toNat = delayUs * 65536 / 1000000 := by
  rw [BitVec.toNat_ofNat]
  omega

/-! ### Measuring -/

/-- A call of a `ReceiverRtt`. -/
inductive RttCall where
  | probe (ssrc : BitVec 32) (ntp : BitVec 64) (nowUs : Int)
  | receive (reply : Dlrr) (localSsrc : BitVec 32) (nowUs : Int)
  | reset

/-- The probes that are outstanding, and what each call so far has given. -/
structure Measured where
  pending : List ProbeTime := []
  results : List (Option Int) := []

def Measured.call (m : Measured) : RttCall → Measured
  | .probe _ ntp nowUs => { pending := keepProbe m.pending ntp nowUs, results := m.results ++ [none] }
  | .receive reply localSsrc nowUs =>
    let received := receiveReply m.pending reply localSsrc nowUs
    { pending := received.2, results := m.results ++ [received.1] }
  | .reset => { pending := [], results := m.results ++ [none] }

def measured (calls : List RttCall) : Measured := calls.foldl Measured.call {}

/-- The call at `i` has measured the probe of the call at `j`. -/
def Measures (calls : List RttCall) (j i : Nat) (rttUs : Int) : Prop :=
  j < i ∧ (∀ k, j < k → k < i → calls[k]? ≠ some .reset) ∧
    ∃ ssrc ntp sentUs reply localSsrc nowUs, calls[j]? = some (.probe ssrc ntp sentUs) ∧
      calls[i]? = some (.receive reply localSsrc nowUs) ∧ reply.ssrc = localSsrc ∧ reply.lastRr = compact ntp ∧
      rttUs = nowUs - sentUs - reply.delay.toNat * 1000000 / 65536

/-- What a reply does: nothing, or it takes the first probe of its time away. -/
theorem receiveReply_cases (pending : List ProbeTime) (reply : Dlrr) (localSsrc : BitVec 32) (nowUs : Int) :
    receiveReply pending reply localSsrc nowUs = (none, pending) ∨
    ∃ probe, pending.find? (fun probe => decide (probe.compactNtp = reply.lastRr)) = some probe ∧
      (receiveReply pending reply localSsrc nowUs).2 =
        pending.eraseP (fun probe => decide (probe.compactNtp = reply.lastRr)) ∧
      ∀ rttUs, (receiveReply pending reply localSsrc nowUs).1 = some rttUs → reply.ssrc = localSsrc ∧
        rttUs = nowUs - probe.sentUs - reply.delay.toNat * 1000000 / 65536 ∧ 0 ≤ rttUs ∧ rttUs ≤ 2000000 := by
  unfold receiveReply
  split
  · exact Or.inl rfl
  rename_i own
  cases found : pending.find? fun probe => decide (probe.compactNtp = reply.lastRr) with
  | none => exact Or.inl rfl
  | some probe =>
    refine Or.inr ⟨probe, rfl, ?_⟩
    simp only
    split
    · exact ⟨rfl, fun rttUs wrong => nomatch wrong⟩
    · rename_i likely
      refine ⟨rfl, fun rttUs same => ?_⟩
      cases same
      exact ⟨by_contra fun other => own (Or.inl other), rfl, by omega, by omega⟩

theorem keepProbe_length (pending : List ProbeTime) (ntp : BitVec 64) (nowUs : Int) :
    (keepProbe pending ntp nowUs).length ≤ 8 := by
  simp only [keepProbe, List.length_drop]
  omega

/-- An outstanding probe with the number of its call. -/
structure Asked (calls : List RttCall) (q : Nat × ProbeTime) : Prop where
  sent : ∃ ssrc ntp, calls[q.1]? = some (.probe ssrc ntp q.2.sentUs) ∧ q.2.compactNtp = compact ntp
  kept : ∀ k, q.1 < k → calls[k]? ≠ some .reset

theorem Asked.early {calls : List RttCall} {q : Nat × ProbeTime} (asked : Asked calls q) : q.1 < calls.length := by
  obtain ⟨ssrc, ntp, here, same⟩ := asked.sent
  exact (List.getElem?_eq_some_iff.mp here).1

/-- The accounts of a run: the outstanding probes know their calls, and every result has a probe of its own. -/
structure Accounted (calls : List RttCall) (m : Measured) (asked : List (Nat × ProbeTime)) (source : Nat → Nat) :
    Prop where
  erased : asked.map Prod.snd = m.pending
  distinct : (asked.map Prod.fst).Nodup
  known : ∀ q ∈ asked, Asked calls q
  few : m.pending.length ≤ 8
  size : m.results.length = calls.length
  once : Set.InjOn source {i | ∃ rttUs, m.results[i]? = some (some rttUs)}
  gone : ∀ i rttUs, m.results[i]? = some (some rttUs) → source i ∉ asked.map Prod.fst
  right : ∀ i rttUs, m.results[i]? = some (some rttUs) → (0 ≤ rttUs ∧ rttUs ≤ 2000000) ∧ Measures calls (source i) i rttUs

/-- More calls do not change what was measured. -/
theorem Measures.later {calls : List RttCall} {j i : Nat} {rttUs : Int} (measures : Measures calls j i rttUs)
    (c : RttCall) : Measures (calls ++ [c]) j i rttUs := by
  obtain ⟨order, kept, ssrc, ntp, sentUs, reply, localSsrc, nowUs, probe, receive, rest⟩ := measures
  have first := (List.getElem?_eq_some_iff.mp probe).1
  have last := (List.getElem?_eq_some_iff.mp receive).1
  refine ⟨order, fun k after before => ?_, ssrc, ntp, sentUs, reply, localSsrc, nowUs, ?_, ?_, rest⟩
  · rw [List.getElem?_append_left (by omega)]
    exact kept k after before
  · rw [List.getElem?_append_left first]
    exact probe
  · rw [List.getElem?_append_left last]
    exact receive

theorem Asked.later {calls : List RttCall} {q : Nat × ProbeTime} (asked : Asked calls q) {c : RttCall}
    (other : c ≠ .reset) : Asked (calls ++ [c]) q := by
  obtain ⟨ssrc, ntp, here, same⟩ := asked.sent
  refine ⟨⟨ssrc, ntp, ?_, same⟩, fun k after => ?_⟩
  · rw [List.getElem?_append_left asked.early]
    exact here
  · rcases lt_trichotomy k calls.length with old | new | past
    · rw [List.getElem?_append_left old]
      exact asked.kept k after
    · rw [new, List.getElem?_concat_length]
      exact fun same => other (Option.some.inj same)
    · rw [List.getElem?_eq_none (by rw [List.length_append, List.length_singleton]; omega)]
      exact nofun

theorem result_concat {results : List (Option Int)} {result : Option Int} {i : Nat} {rttUs : Int} :
    (results ++ [result])[i]? = some (some rttUs) ↔
      results[i]? = some (some rttUs) ∨ i = results.length ∧ result = some rttUs := by
  rcases lt_trichotomy i results.length with old | new | past
  · rw [List.getElem?_append_left old]
    exact ⟨Or.inl, fun either => either.elim id fun wrong => absurd wrong.1 old.ne⟩
  · rw [new, List.getElem?_concat_length, List.getElem?_eq_none le_rfl, Option.some.injEq]
    exact ⟨fun same => Or.inr ⟨rfl, same⟩, fun either => either.elim nofun fun both => both.2⟩
  · rw [List.getElem?_eq_none (by rw [List.length_append, List.length_singleton]; omega),
      List.getElem?_eq_none past.le]
    exact ⟨nofun, fun either => either.elim nofun fun wrong => absurd wrong.1 past.ne'⟩

section Step

variable {calls : List RttCall} {m : Measured} {asked asked' : List (Nat × ProbeTime)} {source : Nat → Nat}

/-- The call that measured a probe came after it. -/
theorem Accounted.source_lt (accounted : Accounted calls m asked source) {i : Nat} {rttUs : Int}
    (result : m.results[i]? = some (some rttUs)) : source i < calls.length := by
  have here := (List.getElem?_eq_some_iff.mp result).1
  have order := (accounted.right i rttUs result).2.1
  have size := accounted.size
  omega

/-- A call that measures nothing. -/
theorem Accounted.silent (accounted : Accounted calls m asked source) (c : RttCall)
    (distinct : (asked'.map Prod.fst).Nodup) (known : ∀ q ∈ asked', Asked (calls ++ [c]) q)
    (few : asked'.length ≤ 8)
    (stays : ∀ n ∈ asked'.map Prod.fst, n ∈ asked.map Prod.fst ∨ n = calls.length) :
    Accounted (calls ++ [c]) { pending := asked'.map Prod.snd, results := m.results ++ [none] } asked' source := by
  have old : ∀ i rttUs, (m.results ++ [none])[i]? = some (some rttUs) → m.results[i]? = some (some rttUs) :=
    fun i rttUs result => (result_concat.mp result).elim id fun wrong => nomatch wrong.2
  constructor
  · rfl
  · exact distinct
  · exact known
  · simpa using few
  · simpa using accounted.size
  · rintro i ⟨rttUs, result⟩ j ⟨other, result'⟩ same
    exact accounted.once ⟨rttUs, old i rttUs result⟩ ⟨other, old j other result'⟩ same
  · intro i rttUs result member
    rcases stays _ member with before | new
    · exact accounted.gone i rttUs (old i rttUs result) before
    · exact (accounted.source_lt (old i rttUs result)).ne new
  · intro i rttUs result
    obtain ⟨range, measures⟩ := accounted.right i rttUs (old i rttUs result)
    exact ⟨range, measures.later c⟩

/-- A reply that measures the probe of a call. -/
theorem Accounted.sample (accounted : Accounted calls m asked source) (c : RttCall) {n : Nat} {rttUs : Int}
    (member : n ∈ asked.map Prod.fst) (distinct : (asked'.map Prod.fst).Nodup)
    (known : ∀ q ∈ asked', Asked (calls ++ [c]) q) (few : asked'.length ≤ 8)
    (stays : ∀ k ∈ asked'.map Prod.fst, k ∈ asked.map Prod.fst ∧ k ≠ n) (range : 0 ≤ rttUs ∧ rttUs ≤ 2000000)
    (measures : Measures (calls ++ [c]) n calls.length rttUs) :
    Accounted (calls ++ [c]) { pending := asked'.map Prod.snd, results := m.results ++ [some rttUs] } asked'
      (Function.update source calls.length n) := by
  have size := accounted.size
  have cases : ∀ i rtt, (m.results ++ [some rttUs])[i]? = some (some rtt) →
      (m.results[i]? = some (some rtt) ∧ Function.update source calls.length n i = source i) ∨
        (i = calls.length ∧ rtt = rttUs) := by
    intro i rtt result
    rcases result_concat.mp result with old | ⟨new, same⟩
    · have here := (List.getElem?_eq_some_iff.mp old).1
      exact Or.inl ⟨old, Function.update_of_ne (by omega) _ _⟩
    · exact Or.inr ⟨new.trans size, (Option.some.inj same).symm⟩
  constructor
  · rfl
  · exact distinct
  · exact known
  · simpa using few
  · simpa using accounted.size
  · rintro i ⟨rtt, result⟩ j ⟨other, result'⟩ same
    rcases cases i rtt result with ⟨old, keeps⟩ | ⟨rfl, -⟩
    · rcases cases j other result' with ⟨old', keeps'⟩ | ⟨rfl, -⟩
      · rw [keeps, keeps'] at same
        exact accounted.once ⟨rtt, old⟩ ⟨other, old'⟩ same
      · rw [keeps, Function.update_self] at same
        exact absurd (same ▸ member) (accounted.gone i rtt old)
    · rcases cases j other result' with ⟨old', keeps'⟩ | ⟨rfl, -⟩
      · rw [keeps', Function.update_self] at same
        exact absurd (same ▸ member) (accounted.gone j other old')
      · rfl
  · intro i rtt result inside
    obtain ⟨before, different⟩ := stays _ inside
    rcases cases i rtt result with ⟨old, keeps⟩ | ⟨rfl, -⟩
    · exact accounted.gone i rtt old (keeps ▸ before)
    · exact different (Function.update_self _ _ _)
  · intro i rtt result
    rcases cases i rtt result with ⟨old, keeps⟩ | ⟨rfl, rfl⟩
    · obtain ⟨range, measures⟩ := accounted.right i rtt old
      rw [keeps]
      exact ⟨range, measures.later c⟩
    · rw [Function.update_self]
      exact ⟨range, measures⟩

theorem Accounted.probe (accounted : Accounted calls m asked source) (ssrc : BitVec 32) (ntp : BitVec 64) (nowUs : Int) :
    ∃ asked' source', Accounted (calls ++ [.probe ssrc ntp nowUs]) (m.call (.probe ssrc ntp nowUs)) asked' source' := by
  let longer := asked ++ [(calls.length, (⟨compact ntp, nowUs⟩ : ProbeTime))]
  let asked' := longer.drop (longer.length - 8)
  have part : asked'.Sublist longer := List.drop_sublist _ _
  have pending : asked'.map Prod.snd = keepProbe m.pending ntp nowUs := by
    rw [List.map_drop, List.map_append, accounted.erased, keepProbe]
    simp only [List.map_cons, List.map_nil, List.length_append, List.length_singleton, longer]
    rw [← accounted.erased, List.length_map]
  have numbers : longer.map Prod.fst = asked.map Prod.fst ++ [calls.length] := by
    rw [List.map_append, List.map_cons, List.map_nil]
  have fresh : calls.length ∉ asked.map Prod.fst := by
    intro member
    obtain ⟨q, inside, same⟩ := List.mem_map.mp member
    exact (accounted.known q inside).early.ne same
  have distinct : (longer.map Prod.fst).Nodup := by
    rw [numbers]
    exact List.nodup_append.mpr ⟨accounted.distinct, List.nodup_singleton _, fun n old k new same =>
      fresh (List.mem_singleton.mp new ▸ same ▸ old)⟩
  refine ⟨asked', source, ?_⟩
  rw [Measured.call, ← pending]
  refine accounted.silent _ (distinct.sublist (part.map _)) ?_ ?_ ?_
  · intro q member
    rcases List.mem_append.mp (part.subset member) with old | new
    · exact (accounted.known q old).later nofun
    · rw [List.mem_singleton.mp new]
      refine ⟨⟨ssrc, ntp, List.getElem?_concat_length, rfl⟩, fun k after => ?_⟩
      rw [List.getElem?_eq_none (by rw [List.length_append, List.length_singleton]; exact after)]
      exact nofun
  · simp only [List.length_drop, asked']
    omega
  · intro n member
    have inside := (part.map Prod.fst).subset member
    rw [numbers] at inside
    exact (List.mem_append.mp inside).imp_right List.mem_singleton.mp

theorem Accounted.reset (accounted : Accounted calls m asked source) :
    Accounted (calls ++ [.reset]) (m.call .reset) [] source :=
  @Accounted.silent calls m asked [] source accounted .reset List.nodup_nil (fun _ wrong => nomatch wrong)
    (Nat.zero_le 8) fun _ wrong => nomatch wrong

theorem Accounted.receive (accounted : Accounted calls m asked source) (reply : Dlrr) (localSsrc : BitVec 32)
    (nowUs : Int) : ∃ asked' source', Accounted (calls ++ [.receive reply localSsrc nowUs])
      (m.call (.receive reply localSsrc nowUs)) asked' source' := by
  have few : asked.length ≤ 8 := by
    rw [← List.length_map (f := Prod.snd), accounted.erased]
    exact accounted.few
  have kept : ∀ q ∈ asked, Asked (calls ++ [.receive reply localSsrc nowUs]) q := fun q member =>
    (accounted.known q member).later nofun
  simp only [Measured.call]
  rcases receiveReply_cases m.pending reply localSsrc nowUs with nothing | ⟨probe, found, left, sample⟩
  · refine ⟨asked, source, ?_⟩
    rw [nothing]
    simp only
    rw [← accounted.erased]
    exact accounted.silent _ accounted.distinct kept few fun n member => Or.inl member
  -- The probe is taken away with the number of its call.
  rw [← accounted.erased, List.find?_map] at found
  obtain ⟨q, place, rfl⟩ := Option.map_eq_some_iff.mp found
  obtain ⟨matching, before, after, rfl, other⟩ := List.find?_eq_some_iff_append.mp place
  have same : decide (q.2.compactNtp = reply.lastRr) = true := matching
  have erased : (before ++ after).map Prod.snd =
      m.pending.eraseP (fun probe => decide (probe.compactNtp = reply.lastRr)) := by
    rw [← accounted.erased, List.map_append, List.map_append, List.map_cons, List.eraseP_append_right,
      List.eraseP_cons_of_pos (p := fun probe : ProbeTime => decide (probe.compactNtp = reply.lastRr)) same]
    intro probe member
    obtain ⟨p, inside, rfl⟩ := List.mem_map.mp member
    simpa using other p inside
  have part : (before ++ after).Sublist (before ++ q :: after) := (List.sublist_cons_self q after).append_left before
  have distinct := accounted.distinct.sublist (part.map Prod.fst)
  have known : ∀ p ∈ before ++ after, Asked (calls ++ [.receive reply localSsrc nowUs]) p := fun p member =>
    kept p (part.subset member)
  have short : (before ++ after).length ≤ 8 := part.length_le.trans few
  rw [left, ← erased]
  cases result : (receiveReply m.pending reply localSsrc nowUs).1 with
  | none =>
    exact ⟨_, source, accounted.silent _ distinct known short fun n member =>
      Or.inl ((part.map Prod.fst).subset member)⟩
  | some rttUs =>
    obtain ⟨own, value, range⟩ := sample rttUs result
    have asks := accounted.known q (by simp)
    obtain ⟨ssrc, ntp, sent, time⟩ := asks.sent
    refine ⟨_, _, accounted.sample _ (n := q.1) (by simp) distinct known short ?_ range ?_⟩
    · intro k member
      refine ⟨(part.map Prod.fst).subset member, fun same => ?_⟩
      have apart := accounted.distinct
      rw [List.map_append, List.map_cons] at apart
      rw [same, List.map_append] at member
      exact (List.nodup_middle.mp apart).notMem member
    · refine ⟨asks.early, fun k later before => ?_, ssrc, ntp, q.2.sentUs, reply, localSsrc, nowUs, ?_,
        List.getElem?_concat_length, own, ?_, value⟩
      · rw [List.getElem?_append_left before]
        exact asks.kept k later
      · rw [List.getElem?_append_left asks.early]
        exact sent
      · exact (of_decide_eq_true same).symm.trans time

end Step

/-- The accounts of every run. -/
theorem measured_accounted (calls : List RttCall) : ∃ asked source, Accounted calls (measured calls) asked source := by
  induction calls using List.reverseRecOn with
  | nil =>
    refine ⟨[], id, ?_⟩
    constructor
    · rfl
    · exact List.nodup_nil
    · exact nofun
    · exact Nat.zero_le 8
    · rfl
    · rintro i ⟨rttUs, wrong⟩
      exact nomatch wrong
    · intro i rttUs wrong
      exact nomatch wrong
    · intro i rttUs wrong
      exact nomatch wrong
  | append_singleton calls c ih =>
    obtain ⟨asked, source, accounted⟩ := ih
    have last : measured (calls ++ [c]) = (measured calls).call c := by
      rw [measured, List.foldl_append]
      rfl
    rw [last]
    cases c with
    | probe ssrc ntp nowUs => exact accounted.probe ssrc ntp nowUs
    | receive reply localSsrc nowUs => exact accounted.receive reply localSsrc nowUs
    | reset => exact ⟨_, _, accounted.reset⟩

/-- A replay gives no second sample. -/
example : (measured [.probe 1 (2 ^ 40) 0, .receive ⟨1, 2 ^ 24, 65536⟩ 1 1500000, .receive ⟨1, 2 ^ 24, 65536⟩ 1 1600000]).results =
    [none, some 500000, none] := by decide

end MiniRtc.Transport
