import MiniRtc.Lib.Runs
import MiniRtc.Ice.PunchMoves

/-! What a run of punching sends: how many packets, when, to which ports and with which numbers. -/
namespace MiniRtc.Ice.Punch
open Wire Context

/-! ### The counts of an attempt -/

def probesOf (sent : List Sent) : List Sent := sent.filter (!·.ack)

theorem probesOf_ack {sent : List Sent} {s : Sent} (ack : s.ack = true) :
    probesOf (sent ++ [s]) = probesOf sent := by
  simp [probesOf, ack]

theorem probesOf_probe {sent : List Sent} {s : Sent} (probe : s.ack = false) :
    probesOf (sent ++ [s]) = probesOf sent ++ [s] := by
  simp [probesOf, probe]

structure Counted (agreed : PunchConfig) (retry : Bool) (attempt : Nat) (b : PunchProbeBudget)
    (sent : List Sent) : Prop where
  limits : b.limit = agreed.probePacketBudget ∧
    b.probeLimit = PunchProbeBudget.ProbeLimit agreed kAckReserve
  rounds : b.round = attempt ∧ b.maxRounds = if retry then 2 else 1
  running : 1 ≤ attempt ∧ attempt ≤ b.maxRounds
  packets : sent.length ≤ (attempt - 1) * b.limit + b.attempts ∧ b.attempts ≤ b.limit
  probes : (probesOf sent).length ≤ (attempt - 1) * b.probeLimit + b.probes ∧
    b.probes ≤ b.probeLimit

namespace Counted

variable {agreed : PunchConfig} {retry : Bool} {attempt : Nat} {b b' : PunchProbeBudget}
  {sent : List Sent}

theorem start (agreed : PunchConfig) (retry : Bool) (nowMs : Int) :
    Counted agreed retry 1 (.start agreed nowMs retry kAckReserve) [] where
  limits := ⟨rfl, rfl⟩
  rounds := ⟨rfl, rfl⟩
  running := by
    cases retry with
    | true => exact ⟨le_refl 1, Nat.le_succ 1⟩
    | false => exact ⟨le_refl 1, le_refl 1⟩
  packets := ⟨Nat.zero_le _, Nat.zero_le _⟩
  probes := ⟨Nat.zero_le _, Nat.zero_le _⟩

theorem refilled (counted : Counted agreed retry attempt b sent)
    (same : PunchProbeBudget.Refilled b b') : Counted agreed retry attempt b' sent where
  limits := by
    rw [same.limits.1, same.limits.2]
    exact counted.limits
  rounds := by
    rw [same.rounds.1, same.rounds.2]
    exact counted.rounds
  running := by
    rw [same.rounds.2]
    exact counted.running
  packets := by
    rw [same.limits.1, same.attempts]
    exact counted.packets
  probes := by
    rw [same.limits.2, same.probes]
    exact counted.probes

theorem granted (counted : Counted agreed retry attempt b sent) {s : Sent}
    (granted : PunchProbeBudget.Granted b b' s.ack) :
    Counted agreed retry attempt b' (sent ++ [s]) where
  limits := by
    rw [granted.limits.1, granted.limits.2]
    exact counted.limits
  rounds := by
    rw [granted.rounds.1, granted.rounds.2]
    exact counted.rounds
  running := by
    rw [granted.rounds.2]
    exact counted.running
  packets := by
    have packets := counted.packets
    have attempts := granted.attempts
    rw [granted.limits.1, List.length_append, List.length_singleton]
    omega
  probes := by
    have probes := counted.probes
    have more := granted.probes
    rw [granted.limits.2]
    cases kind : s.ack with
    | true =>
      rw [kind, if_pos rfl] at more
      rw [probesOf_ack kind, more]
      exact probes
    | false =>
      rw [kind, if_neg Bool.false_ne_true] at more
      rw [probesOf_probe kind, List.length_append, List.length_singleton]
      omega

/-- Only an attempt that may be retried has another one behind it. -/
theorem next (counted : Counted agreed retry attempt b sent) (again : retry = true)
    (first : attempt = 1) : b.nextAttempt ≠ none := by
  have rounds := counted.rounds
  rw [again, if_pos rfl] at rounds
  unfold PunchProbeBudget.nextAttempt
  rw [if_neg (by omega)]
  exact Option.some_ne_none _

theorem retried (counted : Counted agreed retry attempt b sent) (again : retry = true)
    (first : attempt = 1) (next : b.nextAttempt = some b') :
    Counted agreed retry (attempt + 1) b' sent := by
  have rounds := counted.rounds
  have packets := counted.packets
  have probes := counted.probes
  rw [again, if_pos rfl] at rounds
  unfold PunchProbeBudget.nextAttempt at next
  split at next
  · cases next
  cases next
  subst first
  refine ⟨counted.limits, ⟨by rw [rounds.1], ?_⟩, ⟨Nat.le_add_left 1 1, ?_⟩, ⟨?_, Nat.zero_le _⟩,
    ⟨?_, Nat.zero_le _⟩⟩
  · rw [again, if_pos rfl]
    exact rounds.2
  · exact rounds.2.ge
  · simp only
    omega
  · simp only
    omega

/-- The packets of all attempts. -/
theorem total (counted : Counted agreed retry attempt b sent) :
    sent.length ≤ attempt * agreed.probePacketBudget ∧
      (probesOf sent).length ≤ attempt * PunchProbeBudget.ProbeLimit agreed kAckReserve := by
  have attempts := counted.running.1
  have packets := counted.packets
  have probes := counted.probes
  rw [counted.limits.1] at packets
  rw [counted.limits.2] at probes
  obtain ⟨n, rfl⟩ := Nat.exists_eq_add_of_le' attempts
  rw [Nat.add_sub_cancel] at packets probes
  rw [Nat.succ_mul, Nat.succ_mul]
  constructor
  · omega
  · omega

end Counted

/-! ### Deadlines -/

structure Timely (original : Int) (attempt : Nat) (deadlines : PunchDeadlines)
    (attempts : List PunchDeadlines) (sent : List Sent) : Prop where
  count : attempts.length = attempt
  last : attempts.getLast? = some deadlines
  finish : ∀ d ∈ attempts, d.finish ≤ original
  sent : ∀ s ∈ sent, ∃ d, 1 ≤ s.attempt ∧ attempts[s.attempt - 1]? = some d ∧
    s.nowMs < d.finish ∧ (s.ack = false → s.nowMs < d.probe ∧ s.draining = false)

namespace Timely

variable {original : Int} {attempt : Nat} {deadlines : PunchDeadlines}
  {attempts : List PunchDeadlines} {sent : List Sent}

theorem start (finish : deadlines.finish ≤ original) : Timely original 1 deadlines [deadlines] [] where
  count := rfl
  last := rfl
  finish := by simpa using finish
  sent := nofun

theorem emitted (timely : Timely original attempt deadlines attempts sent) {s : Sent}
    (now : s.attempt = attempt) (early : s.nowMs < deadlines.finish)
    (probing : s.ack = false → s.nowMs < deadlines.probe ∧ s.draining = false) :
    Timely original attempt deadlines attempts (sent ++ [s]) where
  count := timely.count
  last := timely.last
  finish := timely.finish
  sent := by
    intro t mem
    obtain old | new := List.mem_append.mp mem
    · exact timely.sent t old
    rw [List.mem_singleton.mp new]
    have last := timely.last
    rw [List.getLast?_eq_getElem?, timely.count, ← now] at last
    refine ⟨deadlines, ?_, last, early, probing⟩
    by_contra zero
    have empty : attempts = [] := by
      rw [← List.length_eq_zero_iff, timely.count]
      omega
    have last := timely.last
    rw [empty] at last
    cases last

theorem retried (timely : Timely original attempt deadlines attempts sent) {next : PunchDeadlines}
    (finish : next.finish ≤ original) :
    Timely original (attempt + 1) next (attempts ++ [next]) sent where
  count := by rw [List.length_append, timely.count, List.length_singleton]
  last := List.getLast?_concat
  finish := by
    intro d mem
    obtain old | new := List.mem_append.mp mem
    · exact timely.finish d old
    · rw [List.mem_singleton.mp new]
      exact finish
  sent := by
    intro s mem
    obtain ⟨d, some, there, times⟩ := timely.sent s mem
    refine ⟨d, some, ?_, times⟩
    rw [List.getElem?_append_left (List.getElem?_eq_some_iff.mp there).1]
    exact there

end Timely

/-! ### Ports -/

/-- Where the probes of the anchor's side went, and where the next ones go. -/
structure Aimed (prepared excluded : Finset Nat) (ports : List Nat)
    (schedule : Option PunchRoundRobin) (sent : List Sent) : Prop where
  within : prepared ⊆ excluded
  targets : ports.Nodup ∧ ∀ port ∈ ports, port ∈ excluded ∧ port ∉ prepared
  probed : ∀ s ∈ probesOf sent, s.destination.port ∈ excluded ∧ s.destination.port ∉ prepared
  once : ((probesOf sent).map fun s => s.destination.port).Nodup
  round : ∀ s, schedule = some s → s.count = ports.length ∧ s.rounds = 1 ∧
    (s.count ≠ 0 → s.index < s.count)
  ahead : ∀ s, schedule = some s → s.round = 0 → ∀ p ∈ probesOf sent,
    p.destination.port ∉ ports.drop s.index

namespace Aimed

variable {prepared excluded : Finset Nat} {ports : List Nat} {schedule : Option PunchRoundRobin}
  {s s' : PunchRoundRobin} {sent : List Sent}

theorem prepare (distinct : ports.Nodup) (fresh : ∀ port ∈ ports, port ∉ prepared) :
    Aimed prepared (prepared ∪ ports.toFinset) ports none [] where
  within := Finset.subset_union_left
  targets := ⟨distinct, fun port mem =>
    ⟨Finset.mem_union_right _ (List.mem_toFinset.mpr mem), fresh port mem⟩⟩
  probed := nofun
  once := List.nodup_nil
  round := nofun
  ahead := nofun

theorem unscheduled (aimed : Aimed prepared excluded ports schedule sent) :
    Aimed prepared excluded ports none sent :=
  { aimed with
    round := nofun
    ahead := nofun }

theorem acked (aimed : Aimed prepared excluded ports schedule sent) {p : Sent} (ack : p.ack = true) :
    Aimed prepared excluded ports schedule (sent ++ [p]) := by
  obtain ⟨within, targets, probed, once, round, ahead⟩ := aimed
  rw [← probesOf_ack ack] at probed once
  refine ⟨within, targets, probed, once, round, fun s some first => ?_⟩
  rw [probesOf_ack ack]
  exact ahead s some first

/-- Another attempt goes to ports that were not sampled before. -/
theorem resampled (aimed : Aimed prepared excluded ports schedule sent) {more : List Nat}
    (distinct : more.Nodup) (fresh : ∀ port ∈ more, port ∉ excluded)
    (count : s.count = more.length ∧ s.rounds = 1) (first : s.index = 0 ∧ s.round = 0) :
    Aimed prepared (excluded ∪ more.toFinset) more (some s) sent where
  within := aimed.within.trans Finset.subset_union_left
  targets := ⟨distinct, fun port mem =>
    ⟨Finset.mem_union_right _ (List.mem_toFinset.mpr mem),
      fun old => fresh port mem (aimed.within old)⟩⟩
  probed := fun p mem => ⟨Finset.mem_union_left _ (aimed.probed p mem).1, (aimed.probed p mem).2⟩
  once := aimed.once
  round := by
    rintro _ ⟨⟩
    exact ⟨count.1, count.2, fun some => first.1 ▸ Nat.pos_of_ne_zero some⟩
  ahead := by
    rintro _ ⟨⟩ - p mem there
    exact fresh _ (List.mem_of_mem_drop there) (aimed.probed p mem).1

theorem started (aimed : Aimed prepared excluded ports none sent) (none : sent = [])
    (count : s.count = ports.length ∧ s.rounds = 1) (first : s.index = 0 ∧ s.round = 0) :
    Aimed prepared excluded ports (some s) sent :=
  { aimed with
    round := by
      rintro _ ⟨⟩
      exact ⟨count.1, count.2, fun some => first.1 ▸ Nat.pos_of_ne_zero some⟩
    ahead := by
      rintro _ ⟨⟩ - p mem
      rw [none] at mem
      cases mem }

/-- A place of the schedule that is passed leaves fewer ports ahead. -/
theorem advanced (aimed : Aimed prepared excluded ports (some s) sent)
    (next : PunchRoundRobin.Advanced s s') : Aimed prepared excluded ports (some s') sent := by
  obtain ⟨count, rounds, inside⟩ := aimed.round s rfl
  refine { aimed with
    round := ?_
    ahead := ?_ }
  · rintro _ ⟨⟩
    rw [next.same.1, next.same.2]
    refine ⟨count, rounds, fun some => ?_⟩
    have bound := inside some
    obtain ⟨-, zero⟩ | ⟨-, one, more⟩ := next.next
    · rw [zero]
      exact Nat.pos_of_ne_zero some
    · omega
  · rintro _ ⟨⟩ zero p mem there
    obtain ⟨round, -⟩ | ⟨round, one, -⟩ := next.next
    · omega
    rw [one, ← List.drop_drop] at there
    exact aimed.ahead s rfl (round ▸ zero) p mem (List.mem_of_mem_drop there)

theorem committed (aimed : Aimed prepared excluded ports schedule sent) (nowMs : Int) :
    Aimed prepared excluded ports (schedule.map (·.commit nowMs)) sent := by
  cases schedule with
  | none => exact aimed
  | some s =>
    obtain same | next := s.commit_cases nowMs
    · rw [Option.map_some, same]
      exact aimed
    · exact aimed.advanced next

/-- A probe goes to the port that the schedule names. -/
theorem sentTo (aimed : Aimed prepared excluded ports (some s) sent) {nowMs : Int} {index : Nat}
    (peek : s.peek nowMs = some index) {p : Sent} (probe : p.ack = false)
    (port : p.destination.port = ports.getD index 0) :
    Aimed prepared excluded ports (some (s.commit nowMs)) (sent ++ [p]) := by
  obtain ⟨rfl, filled, more⟩ := PunchRoundRobin.peek_eq peek
  obtain ⟨count, rounds, inside⟩ := aimed.round s rfl
  have bound : s.index < ports.length := count ▸ inside filled
  have zero : s.round = 0 := by omega
  have target : p.destination.port = ports[s.index] := by
    rw [port, List.getD_eq_getElem _ _ bound]
  have here : ports.drop s.index = p.destination.port :: ports.drop (s.index + 1) := by
    rw [target, List.getElem_cons_drop]
  have mem : p.destination.port ∈ ports := by
    rw [target]
    exact List.getElem_mem bound
  have new : ∀ q ∈ probesOf sent, q.destination.port ≠ p.destination.port := by
    intro q old same
    refine aimed.ahead s rfl zero q old ?_
    rw [here, same]
    exact List.mem_cons_self
  have next := PunchRoundRobin.commit_advanced peek
  have after := aimed.advanced next
  refine { after with
    probed := ?_
    once := ?_
    ahead := ?_ }
  · rw [probesOf_probe probe]
    intro q member
    obtain old | last := List.mem_append.mp member
    · exact aimed.probed q old
    · rw [List.mem_singleton.mp last]
      exact aimed.targets.2 _ mem
  · rw [probesOf_probe probe, List.map_append, List.map_singleton]
    refine List.nodup_append.mpr ⟨aimed.once, List.nodup_singleton _, ?_⟩
    intro a there b last same
    obtain ⟨q, old, rfl⟩ := List.mem_map.mp there
    rw [List.mem_singleton.mp last] at same
    exact new q old same
  · rintro _ ⟨⟩ first
    rw [probesOf_probe probe]
    intro q member there
    obtain old | last := List.mem_append.mp member
    · exact after.ahead _ rfl first q old there
    rw [List.mem_singleton.mp last] at there
    obtain ⟨round, -⟩ | ⟨-, one, -⟩ := next.next
    · omega
    rw [one] at there
    have distinct : (ports.drop s.index).Nodup := aimed.targets.1.sublist (List.drop_sublist _ _)
    rw [here] at distinct
    exact (List.nodup_cons.mp distinct).1 there

end Aimed

/-! ### Numbers -/

/-- Every byte string that was given a number carries it. -/
structure Numbered (sequence : BitVec 32) (issued : List Bytes) (acks : List Ack)
    (ackCache : SortedMap Nat Ack) (sent : List Sent) : Prop where
  next : sequence.toNat = (issued.length + 1) % 2 ^ 32 ∧ issued.length < 2 ^ 32
  number : ∀ i bytes, issued[i]? = some bytes → bytes = [] ∨ slice bytes 40 4 = put (i + 1) 4
  queued : ∀ a ∈ acks, a.bytes ∈ issued
  cached : ∀ e ∈ ackCache.entries, e.2.bytes ∈ issued
  known : ∀ s ∈ sent, s.bytes ≠ [] ∧ s.bytes ∈ issued

namespace Numbered

variable {sequence : BitVec 32} {issued : List Bytes} {acks acks' : List Ack}
  {ackCache ackCache' : SortedMap Nat Ack} {sent : List Sent}

theorem start : Numbered 1 [] [] SortedMap.empty [] where
  next := ⟨rfl, Nat.two_pow_pos 32⟩
  number := by simp
  queued := nofun
  cached := nofun
  known := nofun

theorem issue (numbered : Numbered sequence issued acks ackCache sent) (number : sequence ≠ 0)
    {bytes : Bytes} (carries : bytes = [] ∨ slice bytes 40 4 = put sequence.toNat 4) :
    Numbered (sequence + 1) (issued ++ [bytes]) acks ackCache sent := by
  have next := numbered.next
  have nonzero : sequence.toNat ≠ 0 := fun zero => number (BitVec.eq_of_toNat_eq zero)
  have small : issued.length + 1 < 2 ^ 32 := by omega
  have given : sequence.toNat = issued.length + 1 := by omega
  refine ⟨⟨?_, ?_⟩, ?_, ?_, ?_, ?_⟩
  · rw [BitVec.toNat_add, given, List.length_append, List.length_singleton]
    rfl
  · rw [List.length_append, List.length_singleton]
    exact small
  · intro i b there
    by_cases inside : i < issued.length
    · rw [List.getElem?_append_left inside] at there
      exact numbered.number i b there
    · rw [List.getElem?_append_right (not_lt.mp inside), List.getElem?_singleton] at there
      split at there
      · cases there
        have same : i = issued.length := by omega
        rw [same, ← given]
        exact carries
      · cases there
  · exact fun a mem => List.mem_append_left _ (numbered.queued a mem)
  · exact fun e mem => List.mem_append_left _ (numbered.cached e mem)
  · exact fun s mem => ⟨(numbered.known s mem).1, List.mem_append_left _ (numbered.known s mem).2⟩

theorem emitted (numbered : Numbered sequence issued acks ackCache sent) {s : Sent}
    (filled : s.bytes ≠ []) (known : s.bytes ∈ issued) :
    Numbered sequence issued acks ackCache (sent ++ [s]) :=
  { numbered with
    known := by
      intro t mem
      obtain old | new := List.mem_append.mp mem
      · exact numbered.known t old
      · rw [List.mem_singleton.mp new]
        exact ⟨filled, known⟩ }

theorem requeued (numbered : Numbered sequence issued acks ackCache sent)
    (queued : ∀ a ∈ acks', a.bytes ∈ issued)
    (cached : ∀ e ∈ ackCache'.entries, e.2.bytes ∈ issued) :
    Numbered sequence issued acks' ackCache' sent :=
  { numbered with
    queued
    cached }

/-- A number on the wire is carried by one byte string. -/
theorem once (numbered : Numbered sequence issued acks ackCache sent) {s t : Sent}
    (first : s ∈ sent) (second : t ∈ sent)
    (same : get (slice s.bytes 40 4) = get (slice t.bytes 40 4)) : s.bytes = t.bytes := by
  obtain ⟨filled, known⟩ := numbered.known s first
  obtain ⟨filled', known'⟩ := numbered.known t second
  obtain ⟨i, there⟩ := List.getElem?_of_mem known
  obtain ⟨j, there'⟩ := List.getElem?_of_mem known'
  have inside := (List.getElem?_eq_some_iff.mp there).1
  have inside' := (List.getElem?_eq_some_iff.mp there').1
  have bound := numbered.next.2
  rw [(numbered.number i _ there).resolve_left filled,
    (numbered.number j _ there').resolve_left filled', get_put (by omega), get_put (by omega)] at same
  rw [Nat.succ_inj.mp same, there'] at there
  exact (Option.some.inj there).symm

end Numbered

theorem encodeProbe_carries (lib : Library) (c : Context) (kind : Kind) (payload : Bytes) :
    c.encodeProbe lib kind payload = [] ∨
      slice (c.encodeProbe lib kind payload) 40 4 = put c.runtime.sequence.toNat 4 := by
  unfold Context.encodeProbe
  simp only
  by_cases accepted : Accepted lib.parse
    { kind, generation := c.runtime.generation, round := c.runtime.round,
      sequence := c.runtime.sequence, payload }
  · rw [encode_of_accepted accepted, sealed]
    exact .inr (read_sequence _ _)
  · exact .inl (encode_of_not_accepted accepted)

/-! ### Promotions -/

structure Promoted (endpoints : List Endpoint) (promoted : Nat) (promotions : List Nat) : Prop where
  count : promotions.length = promoted
  once : promotions.Nodup
  marked : ∀ id ∈ promotions, ∃ e, endpoints.find? (·.id = id) = some e ∧ e.promoted = true

namespace Promoted

variable {endpoints : List Endpoint} {promoted : Nat} {promotions : List Nat}

theorem opened (marks : Promoted endpoints promoted promotions) (more : List Endpoint) :
    Promoted (endpoints ++ more) promoted promotions :=
  { marks with
    marked := by
      intro id mem
      obtain ⟨e, there, mark⟩ := marks.marked id mem
      refine ⟨e, ?_, mark⟩
      rw [List.find?_append, there, Option.some_or] }

theorem find_markPromoted {id : Nat} {e : Endpoint} {endpoints : List Endpoint}
    (there : endpoints.find? (·.id = id) = some e) :
    (markPromoted id endpoints).find? (·.id = id) = some { e with promoted := true } := by
  induction endpoints with
  | nil => cases there
  | cons head rest ih =>
    unfold markPromoted
    by_cases here : head.id = id
    · rw [List.find?_cons_of_pos (by simpa using here)] at there
      cases there
      rw [if_pos here, List.find?_cons_of_pos (by simpa using here)]
    · rw [List.find?_cons_of_neg (by simpa using here)] at there
      rw [if_neg here, List.find?_cons_of_neg (by simpa using here)]
      exact ih there

theorem find_markPromoted_other {id other : Nat} (differs : other ≠ id) (endpoints : List Endpoint) :
    (markPromoted id endpoints).find? (·.id = other) = endpoints.find? (·.id = other) := by
  induction endpoints with
  | nil => rfl
  | cons head rest ih =>
    unfold markPromoted
    by_cases here : head.id = id
    · have wrong : ¬ head.id = other := fun same => differs (same.symm.trans here)
      rw [if_pos here, List.find?_cons_of_neg (by simpa using wrong),
        List.find?_cons_of_neg (by simpa using wrong)]
    · rw [if_neg here, List.find?_cons, List.find?_cons, ih]

theorem mark (marks : Promoted endpoints promoted promotions) {e : Endpoint}
    (there : endpoints.find? (·.id = e.id) = some e) (new : e.promoted = false) :
    Promoted (markPromoted e.id endpoints) (promoted + 1) (promotions ++ [e.id]) where
  count := by rw [List.length_append, marks.count, List.length_singleton]
  once := by
    refine List.nodup_append.mpr ⟨marks.once, List.nodup_singleton _, ?_⟩
    intro a old b last same
    rw [List.mem_singleton.mp last] at same
    obtain ⟨d, found, mark⟩ := marks.marked a old
    rw [same, there] at found
    cases found
    exact Bool.false_ne_true (new.symm.trans mark)
  marked := by
    intro id mem
    by_cases same : id = e.id
    · subst same
      exact ⟨_, find_markPromoted there, rfl⟩
    · obtain old | last := List.mem_append.mp mem
      · obtain ⟨d, found, mark⟩ := marks.marked id old
        exact ⟨d, (find_markPromoted_other same endpoints).trans found, mark⟩
      · exact absurd (List.mem_singleton.mp last) same

end Promoted

/-! ### The invariant of a run -/

structure Sound (r : PunchRuntime) : Prop where
  waits : r.negotiation.state.later = true →
    r.prepareSocketCount ≠ 0 ∨ r.phase = .stopping ∨ r.stopped = true
  first : r.prepareSocketCount = 0 → r.budget = none
  unset : r.budget = none → r.schedule = none ∧ r.acks = [] ∧ r.sent = [] ∧ r.promoted = 0 ∧
    r.attempt = 0
  counted : ∀ b, r.budget = some b → Counted r.agreed r.retryEnabled r.attempt b r.sent
  timely : r.budget.isSome = true →
    Timely r.originalDeadline r.attempt r.deadlines r.attempts r.sent
  aimed : r.prepareSocketCount ≠ 0 → r.pool = false →
    Aimed r.preparedPorts r.excludedPorts r.ports r.schedule r.sent
  numbered : Numbered r.sequence r.issued r.acks r.ackCache r.sent
  promoted : Promoted r.endpoints r.promoted r.promotions
  limited : r.promoted ≤ r.agreed.promotedEndpointLimit
  taken : r.taken = r.sent.length

namespace Sound

variable {lib : Library} {c c' : Context}

theorem new (p : Purpose) : Sound (.new p) where
  waits := nofun
  first := fun _ => rfl
  unset := fun _ => ⟨rfl, rfl, rfl, rfl, rfl⟩
  counted := nofun
  timely := nofun
  aimed := fun some => absurd rfl some
  numbered := .start
  promoted := ⟨rfl, List.nodup_nil, nofun⟩
  limited := Nat.zero_le _
  taken := rfl

/-- A packet that is sent, whatever else changes with it. -/
theorem emitted {bytes : Bytes} {nowMs : Int} {ack : Bool} {b b' : PunchProbeBudget} {s : Sent}
    (sound : Sound c.runtime) (emitted : Emitted c c' bytes nowMs ack b b')
    (packet : s.attempt = c.runtime.attempt ∧ s.draining = c.runtime.draining ∧ s.ack = ack ∧
      s.nowMs = nowMs) :
    Counted c.runtime.agreed c.runtime.retryEnabled c.runtime.attempt b' (c.runtime.sent ++ [s]) ∧
      Timely c.runtime.originalDeadline c.runtime.attempt c.runtime.deadlines c.runtime.attempts
        (c.runtime.sent ++ [s]) := by
  obtain ⟨attempt, draining, rfl, rfl⟩ := packet
  refine ⟨(sound.counted b emitted.budget).granted emitted.granted, ?_⟩
  refine (sound.timely (by rw [emitted.budget]; rfl)).emitted attempt emitted.early fun probe => ?_
  rw [draining]
  exact (emitted.probing probe).symm

/-- A run that has started is prepared. -/
theorem prepared_of_started (sound : Sound c.runtime) {b : PunchProbeBudget}
    (budget : c.runtime.budget = some b) : c.runtime.prepareSocketCount ≠ 0 :=
  fun zero => Option.some_ne_none b (budget.symm.trans (sound.first zero))

theorem considered (sound : Sound c.runtime) {r : PunchRuntime}
    (first : c.runtime.prepareSocketCount = 0) (frame : r = { c.runtime with
      pool := r.pool
      anchor := r.anchor
      peerIp := r.peerIp
      excludedPorts := r.excludedPorts
      round := r.round
      agreed := r.agreed
      preparedPorts := r.preparedPorts
      ports := r.ports }) : Sound r := by
  have none := sound.first first
  have unset := sound.unset none
  rw [frame]
  refine { sound with
    counted := fun b budget => absurd (none.symm.trans budget) nofun
    aimed := fun some => absurd first some
    limited := ?_ }
  exact unset.2.2.2.1.trans_le (Nat.zero_le _)

theorem prepared (sound : Sound c.runtime) (negotiation : PunchNegotiation)
    {prepareSocketCount : Nat} (first : c.runtime.prepareSocketCount = 0)
    (some : prepareSocketCount ≠ 0)
    (ports : c.runtime.pool = false → c.runtime.ports.Nodup ∧
      (∀ port ∈ c.runtime.ports, port ∉ c.runtime.preparedPorts) ∧
      c.runtime.excludedPorts = c.runtime.preparedPorts ∪ c.runtime.ports.toFinset) :
    Sound { c.runtime with negotiation, prepareSocketCount } := by
  have unset := sound.unset (sound.first first)
  refine { sound with
    waits := fun _ => .inl some
    first := fun zero => absurd zero some
    aimed := fun _ anchor => ?_ }
  obtain ⟨distinct, fresh, union⟩ := ports anchor
  simp only [unset.1, unset.2.2.1, union]
  exact .prepare distinct fresh

theorem started (sound : Sound c.runtime) (round : Id) {deadlines : PunchDeadlines}
    {schedule : PunchRoundRobin} (nowMs : Int) (none : c.runtime.budget = none)
    (live : c.runtime.stopped = false) (later : c.runtime.negotiation.state.later = true)
    (calm : c.runtime.phase ≠ .stopping) (finish : deadlines.finish ≤ c.runtime.originalDeadline)
    (fresh : schedule.index = 0 ∧ schedule.round = 0)
    (ports : c.runtime.pool = false →
      schedule.count = c.runtime.ports.length ∧ schedule.rounds = 1) :
    Sound { c.runtime with
      round
      deadlines
      attempt := 1
      attempts := [deadlines]
      budget := some (.start c.runtime.agreed nowMs c.runtime.retryEnabled kAckReserve)
      schedule := some schedule } := by
  have unset := sound.unset none
  have prepared : c.runtime.prepareSocketCount ≠ 0 := by
    obtain prepared | stopping | stopped := sound.waits later
    · exact prepared
    · exact absurd stopping calm
    · exact absurd (live.symm.trans stopped) Bool.false_ne_true
  refine { sound with
    first := fun zero => absurd zero prepared
    unset := nofun
    counted := ?_
    timely := fun _ => ?_
    aimed := fun _ anchor => ?_ }
  · rintro _ ⟨⟩
    simp only [unset.2.2.1]
    exact .start _ _ _
  · simp only [unset.2.2.1]
    exact .start finish
  · have aimed := sound.aimed prepared anchor
    rw [unset.1] at aimed
    exact aimed.started unset.2.2.1 (ports anchor) fresh

theorem retried (sound : Sound c.runtime) {ports : List Nat} {excludedPorts : Finset Nat}
    {deadlines : PunchDeadlines} {schedule : PunchRoundRobin} {b b' : PunchProbeBudget}
    (retry : c.runtime.retryEnabled = true) (first : c.runtime.attempt = 1)
    (budget : c.runtime.budget = some b) (next : b.nextAttempt = some b')
    (finish : deadlines.finish ≤ c.runtime.originalDeadline)
    (fresh : schedule.index = 0 ∧ schedule.round = 0)
    (sampled : c.runtime.pool = false → ports.Nodup ∧
      (∀ port ∈ ports, port ∉ c.runtime.excludedPorts) ∧
      excludedPorts = c.runtime.excludedPorts ∪ ports.toFinset ∧
      schedule.count = ports.length ∧ schedule.rounds = 1) :
    Sound { c.runtime with
      ports
      excludedPorts
      budget := some b'
      attempt := c.runtime.attempt + 1
      deadlines
      attempts := c.runtime.attempts ++ [deadlines]
      draining := false
      schedule := some schedule } := by
  have prepared := sound.prepared_of_started budget
  refine { sound with
    first := fun zero => absurd zero prepared
    unset := nofun
    counted := ?_
    timely := fun _ => ?_
    aimed := fun _ anchor => ?_ }
  · rintro _ ⟨⟩
    exact (sound.counted b budget).retried retry first next
  · exact (sound.timely (by rw [budget]; rfl)).retried finish
  · obtain ⟨distinct, spread, union, count⟩ := sampled anchor
    simp only [union]
    exact (sound.aimed prepared anchor).resampled distinct spread count fresh

theorem acked (sound : Sound c.runtime) {ack : Ack} {rest : List Ack} {nowMs : Int}
    {b b' : PunchProbeBudget} (queue : c.runtime.acks = ack :: rest)
    (emitted : Emitted c c' ack.bytes nowMs true b b') :
    Sound { c.runtime with
      budget := some b'
      taken := c.runtime.taken + 1
      sent := c.runtime.sent ++ [⟨c.runtime.attempt, c.runtime.draining, true, ack.handle,
        ack.destination, ack.bytes, nowMs⟩]
      acks := rest } := by
  obtain ⟨counted, timely⟩ := sound.emitted (s := ⟨c.runtime.attempt, c.runtime.draining, true,
    ack.handle, ack.destination, ack.bytes, nowMs⟩) emitted ⟨rfl, rfl, rfl, rfl⟩
  have queued := sound.numbered.queued
  rw [queue] at queued
  refine { sound with
    first := fun zero => absurd zero (sound.prepared_of_started emitted.budget)
    unset := nofun
    counted := ?_
    timely := fun _ => timely
    aimed := fun some anchor => (sound.aimed some anchor).acked rfl
    numbered := ?_
    taken := ?_ }
  · rintro _ ⟨⟩
    exact counted
  · exact (sound.numbered.requeued (fun a mem => queued a (List.mem_cons_of_mem _ mem))
      sound.numbered.cached).emitted emitted.filled (queued ack List.mem_cons_self)
  · simp only [List.length_append, List.length_singleton, sound.taken]

theorem probed (sound : Sound c.runtime) {s : PunchRoundRobin} {index handle : Nat}
    {destination : NiceAddress} {payload : Bytes} (outstanding : List (Block 12 × Outstanding))
    {nowMs : Int} {b b' : PunchProbeBudget} (schedule : c.runtime.schedule = some s)
    (peek : s.peek nowMs = some index) (number : c.runtime.sequence ≠ 0)
    (target : c.runtime.pool = false → destination.port = c.runtime.ports.getD index 0)
    (emitted : Emitted c c' (c.encodeProbe lib .probe payload) nowMs false b b') :
    Sound { c.runtime with
      budget := some b'
      taken := c.runtime.taken + 1
      sent := c.runtime.sent ++ [⟨c.runtime.attempt, c.runtime.draining, false, handle,
        destination, c.encodeProbe lib .probe payload, nowMs⟩]
      sequence := c.runtime.sequence + 1
      issued := c.runtime.issued ++ [c.encodeProbe lib .probe payload]
      outstanding
      schedule := some (s.commit nowMs) } := by
  obtain ⟨counted, timely⟩ := sound.emitted (s := ⟨c.runtime.attempt, c.runtime.draining, false,
    handle, destination, c.encodeProbe lib .probe payload, nowMs⟩) emitted ⟨rfl, rfl, rfl, rfl⟩
  refine { sound with
    first := fun zero => absurd zero (sound.prepared_of_started emitted.budget)
    unset := nofun
    counted := ?_
    timely := fun _ => timely
    aimed := fun some anchor => ?_
    numbered := ?_
    taken := ?_ }
  · rintro _ ⟨⟩
    exact counted
  · have aimed := sound.aimed some anchor
    rw [schedule] at aimed
    exact aimed.sentTo peek rfl (target anchor)
  · exact (sound.numbered.issue number (encodeProbe_carries lib c .probe payload)).emitted
      emitted.filled (List.mem_append_right _ (List.mem_singleton_self _))
  · simp only [List.length_append, List.length_singleton, sound.taken]

theorem answered (sound : Sound c.runtime) (handle : Nat) (destination : NiceAddress)
    (payload : Bytes) {ackCache : SortedMap Nat Ack} (number : c.runtime.sequence ≠ 0)
    (budget : c.runtime.budget.isSome = true)
    (cache : ∀ e ∈ ackCache.entries, e ∈ c.runtime.ackCache.entries ∨
      e.2 = ⟨handle, destination, c.encodeProbe lib .ack payload⟩) :
    Sound { c.runtime with
      sequence := c.runtime.sequence + 1
      issued := c.runtime.issued ++ [c.encodeProbe lib .ack payload]
      ackCache
      acks := c.runtime.acks ++ [⟨handle, destination, c.encodeProbe lib .ack payload⟩] } := by
  have issued := sound.numbered.issue number (encodeProbe_carries lib c .ack payload)
  have new : c.encodeProbe lib .ack payload ∈
      c.runtime.issued ++ [c.encodeProbe lib .ack payload] :=
    List.mem_append_right _ (List.mem_singleton_self _)
  refine { sound with
    unset := fun none => absurd none (Option.isSome_iff_ne_none.mp budget)
    numbered := issued.requeued ?_ ?_ }
  · intro a mem
    obtain old | last := List.mem_append.mp mem
    · exact issued.queued a old
    · rw [List.mem_singleton.mp last]
      exact new
  · intro e mem
    obtain old | last := cache e mem
    · exact issued.cached e old
    · rw [last]
      exact new

/-- Every move keeps the invariant. -/
theorem move (sound : Sound c.runtime) (move : Moves lib c c') : Sound c'.runtime := by
  cases move with
  | negotiated n later => exact { sound with waits := fun now => sound.waits (later now) }
  | greeted ms => exact { sound with }
  | phased phase calm =>
    refine { sound with waits := fun later => ?_ }
    obtain prepared | stopping | stopped := sound.waits later
    · exact .inl prepared
    · exact .inr (.inr (calm stopping))
    · exact .inr (.inr stopped)
  | stopped =>
    exact { sound with
      waits := fun _ => .inr (.inr rfl)
      unset := fun none => ⟨rfl, rfl, (sound.unset none).2.2⟩
      aimed := fun some anchor => (sound.aimed some anchor).unscheduled
      numbered := sound.numbered.requeued nofun nofun }
  | considered r first frame => exact sound.considered first frame
  | leased first => exact { sound with }
  | declined n => exact { sound with waits := fun _ => .inr (.inl rfl) }
  | prepared n count first some ports => exact sound.prepared n first some ports
  | opened more => exact { sound with promoted := sound.promoted.opened more }
  | dated round deadlines unset =>
    exact { sound with timely := fun some => absurd unset (Option.isSome_iff_ne_none.mp some) }
  | started round deadlines schedule nowMs unset live later calm finish fresh ports =>
    exact sound.started round nowMs unset live later calm finish fresh ports
  | resampled ports excludedPorts b retry first budget last =>
    exact absurd last ((sound.counted b budget).next retry first)
  | retried ports excludedPorts deadlines schedule b b' retry first budget next finish fresh sampled =>
    exact sound.retried retry first budget next finish fresh sampled
  | refilled b b' budget same =>
    refine { sound with
      first := fun zero => absurd zero (sound.prepared_of_started budget)
      unset := nofun
      counted := ?_
      timely := fun _ => sound.timely (by rw [budget]; rfl) }
    rintro _ ⟨⟩
    exact (sound.counted b budget).refilled same
  | refused ack nowMs live leased asks no => exact { sound with }
  | acked _ ack rest nowMs b b' queue emitted result =>
    rw [result]
    exact sound.acked queue emitted
  | probed _ s index handle destination payload outstanding nowMs b b' schedule peek number aimed
      emitted result =>
    rw [result]
    exact sound.probed outstanding schedule peek number aimed emitted
  | passed nowMs =>
    refine { sound with
      unset := fun none => ⟨?_, (sound.unset none).2⟩
      aimed := fun some anchor => (sound.aimed some anchor).committed nowMs }
    simp only [Context.withSchedule, Context.withRuntime, (sound.unset none).1, Option.map_none]
  | promoted endpoint pool there new room budget =>
    exact { sound with
      unset := fun none => absurd none (Option.isSome_iff_ne_none.mp budget)
      promoted := sound.promoted.mark there new
      limited := room }
  | received probeReplay outstanding => exact { sound with }
  | repeated sequence cached there budget =>
    refine { sound with
      unset := fun none => absurd none (Option.isSome_iff_ne_none.mp budget)
      numbered := sound.numbered.requeued ?_ sound.numbered.cached }
    intro a mem
    obtain old | last := List.mem_append.mp mem
    · exact sound.numbered.queued a old
    · rw [List.mem_singleton.mp last]
      exact sound.numbered.cached _ (SortedMap.find_eq_some.mp there)
  | answered handle destination payload ackCache number budget cache =>
    exact sound.answered handle destination payload number budget cache

theorem moves (sound : Sound c.runtime) (moves : Relation.ReflTransGen (Moves lib) c c') :
    Sound c'.runtime := by
  induction moves with
  | refl => exact sound
  | tail _ move ih => exact ih.move move

/-- Draining ends the schedule. -/
theorem drain (sound : Sound c.runtime) : Sound c.drain.runtime := by
  unfold Context.drain
  simp only
  split
  · exact sound
  · exact { sound with
      unset := fun none => ⟨rfl, (sound.unset none).2⟩
      aimed := fun some anchor => (sound.aimed some anchor).unscheduled }

theorem phase_drain (c : Context) : c.drain.runtime.phase = c.runtime.phase := by
  unfold Context.drain
  simp only
  split <;> rfl

theorem tickDrain (lib : Library) (sound : Sound c.runtime) (nowMs : Int)
    (calm : c.runtime.phase ≠ .stopping) : Sound (c.tickDrain nowMs).runtime := by
  unfold Context.tickDrain
  simp only
  split
  · exact sound.drain.move (@Moves.phased lib _ _ fun stopping =>
      absurd ((phase_drain c).symm.trans stopping) calm)
  · exact sound.move (@Moves.phased lib _ _ fun stopping => absurd stopping calm)

theorem call (sound : Sound c.runtime) (idle : c.runtime.phase = .idle) (call : Call) :
    Sound (c.call lib call).runtime :=
  sound.moves (call_moves lib c idle call)

theorem proceed (sound : Sound c.runtime) (answers : BurstAnswers) :
    Sound (c.proceed lib answers).runtime := by
  obtain ⟨nowMs, phase, drains⟩ | moves := proceed_moves lib c answers
  · rw [drains]
    refine sound.tickDrain lib nowMs ?_
    rw [phase]
    exact nofun
  · exact sound.moves moves

end Sound

/-! ### After the stop -/

section Stopped

variable {lib : Library} {c c' : Context}

theorem Moves.halted (move : Moves lib c c') (stopped : c.runtime.stopped = true) :
    c'.runtime.stopped = true ∧ c'.runtime.sent = c.runtime.sent := by
  cases move with
  | stopped => exact ⟨rfl, rfl⟩
  | considered r first frame =>
    simp only [Context.withRuntime]
    rw [frame]
    exact ⟨stopped, rfl⟩
  | acked _ ack rest nowMs b b' queue emitted result =>
    exact absurd (emitted.live.symm.trans stopped) Bool.false_ne_true
  | probed _ s index handle destination payload outstanding nowMs b b' schedule peek number aimed
      emitted result =>
    exact absurd (emitted.live.symm.trans stopped) Bool.false_ne_true
  | _ => exact ⟨stopped, rfl⟩

theorem moves_halted (moves : Relation.ReflTransGen (Moves lib) c c')
    (stopped : c.runtime.stopped = true) :
    c'.runtime.stopped = true ∧ c'.runtime.sent = c.runtime.sent := by
  induction moves with
  | refl => exact ⟨stopped, rfl⟩
  | tail _ move ih =>
    have later := move.halted ih.1
    exact ⟨later.1, later.2.trans ih.2⟩

theorem proceed_halted (lib : Library) (c : Context) (answers : BurstAnswers)
    (stopped : c.runtime.stopped = true) :
    (c.proceed lib answers).runtime.stopped = true ∧
      (c.proceed lib answers).runtime.sent = c.runtime.sent := by
  obtain ⟨nowMs, -, drains⟩ | moves := proceed_moves lib c answers
  · have still : c.drain = c := if_pos (.inr stopped)
    rw [drains]
    unfold Context.tickDrain
    simp only [still, ite_self]
    exact ⟨stopped, rfl⟩
  · exact moves_halted moves stopped

end Stopped

/-! ### Runs of a process -/

namespace World

variable {lib : Library} {w w' : World}

theorem update_self {run : Nat} {r : PunchRuntime} (there : w.runtimes[run]? = some r) (c : Context) :
    (w.update run c).runtimes[run]? = some c.runtime :=
  List.getElem?_set_self (List.getElem?_eq_some_iff.mp there).1

theorem step_sound {e : Event} (sound : ∀ r ∈ w.runtimes, Sound r) (moved : w.step lib e = some w') :
    ∀ r ∈ w'.runtimes, Sound r := by
  have updated : ∀ {run : Nat} {c : Context}, Sound c.runtime →
      ∀ r ∈ (w.update run c).runtimes, Sound r := by
    intro run c new r mem
    obtain old | rfl := List.mem_or_eq_of_mem_set mem
    · exact sound r old
    · exact new
  cases e with
  | create purpose =>
    cases moved
    intro r mem
    obtain old | new := List.mem_append.mp mem
    · exact sound r old
    · rw [List.mem_singleton.mp new]
      exact .new purpose
  | call run call =>
    simp only [step] at moved
    split at moved
    · cases moved
    rename_i r there
    split at moved
    · rename_i idle
      cases moved
      have before : Sound (w.context r).runtime := sound r (List.mem_of_getElem? there)
      exact updated (before.call idle call)
    · cases moved
  | proceed run answers =>
    simp only [step] at moved
    split at moved
    · cases moved
    rename_i r there
    cases moved
    have before : Sound (w.context r).runtime := sound r (List.mem_of_getElem? there)
    exact updated (before.proceed answers)

/-- A run that has stopped stays as it is in every step. -/
theorem step_halted {e : Event} (moved : w.step lib e = some w') {run : Nat} {r : PunchRuntime}
    (there : w.runtimes[run]? = some r) (stopped : r.stopped = true) :
    ∃ r', w'.runtimes[run]? = some r' ∧ r'.stopped = true ∧ r'.sent = r.sent := by
  have updated : ∀ {other : Nat} {c : Context} {o : PunchRuntime}, w.runtimes[other]? = some o →
      (o.stopped = true → c.runtime.stopped = true ∧ c.runtime.sent = o.sent) →
      ∃ r', (w.update other c).runtimes[run]? = some r' ∧ r'.stopped = true ∧ r'.sent = r.sent := by
    intro other c o found kept
    by_cases same : other = run
    · subst same
      rw [there] at found
      cases found
      exact ⟨c.runtime, update_self there c, kept stopped⟩
    · refine ⟨r, ?_, stopped, rfl⟩
      rw [← there]
      exact List.getElem?_set_ne same
  cases e with
  | create purpose =>
    cases moved
    refine ⟨r, ?_, stopped, rfl⟩
    rw [List.getElem?_append_left (List.getElem?_eq_some_iff.mp there).1, there]
  | call other call =>
    simp only [step] at moved
    split at moved
    · cases moved
    rename_i o found
    split at moved
    · rename_i idle
      cases moved
      exact updated found (moves_halted (call_moves lib (w.context o) idle call))
    · cases moved
  | proceed other answers =>
    simp only [step] at moved
    split at moved
    · cases moved
    rename_i o found
    cases moved
    exact updated found (proceed_halted lib (w.context o) answers)

end World

/-- The runs of a process, in any order. -/
abbrev PunchRuns (lib : Library) (start : World) : World → Prop :=
  Runs.Reachable (· = start) (Runs.Steps fun w e w' => w.step lib e = some w')

/-- The bounds on what a run has sent. -/
structure Bounded (r : PunchRuntime) : Prop where
  attempts : r.attempt ≤ if r.retryEnabled then 2 else 1
  packets : r.sent.length ≤ r.attempt * r.agreed.probePacketBudget
  probes : (probesOf r.sent).length ≤
    r.attempt * PunchProbeBudget.ProbeLimit r.agreed kAckReserve
  deadlines : ∀ s ∈ r.sent, ∃ d, 1 ≤ s.attempt ∧ r.attempts[s.attempt - 1]? = some d ∧
    s.nowMs < d.finish ∧ s.nowMs < r.originalDeadline ∧
    (s.ack = false → s.nowMs < d.probe ∧ s.draining = false)
  ports : r.pool = false → ((probesOf r.sent).map fun s => s.destination.port).Nodup ∧
    ∀ s ∈ probesOf r.sent, s.destination.port ∉ r.preparedPorts
  numbers : ∀ s ∈ r.sent, ∀ t ∈ r.sent,
    get (slice s.bytes 40 4) = get (slice t.bytes 40 4) → s.bytes = t.bytes
  promotions : r.promotions.Nodup ∧ r.promotions.length ≤ r.agreed.promotedEndpointLimit
  tokens : r.taken = r.sent.length

theorem Sound.bounded {r : PunchRuntime} (sound : Sound r) : Bounded r := by
  have numbers : ∀ s ∈ r.sent, ∀ t ∈ r.sent,
      get (slice s.bytes 40 4) = get (slice t.bytes 40 4) → s.bytes = t.bytes :=
    fun s first t second same => sound.numbered.once first second same
  have promotions : r.promotions.Nodup ∧ r.promotions.length ≤ r.agreed.promotedEndpointLimit :=
    ⟨sound.promoted.once, sound.promoted.count.trans_le sound.limited⟩
  cases budget : r.budget with
  | none =>
    obtain ⟨-, -, sent, -, attempt⟩ := sound.unset budget
    refine ⟨?_, ?_, ?_, ?_, ?_, numbers, promotions, sound.taken⟩
    · rw [attempt]
      exact Nat.zero_le _
    · rw [sent]
      exact Nat.zero_le _
    · rw [sent]
      exact Nat.zero_le _
    · rw [sent]
      exact nofun
    · rw [sent]
      exact fun _ => ⟨List.nodup_nil, nofun⟩
  | some b =>
    have counted := sound.counted b budget
    have timely := sound.timely (by rw [budget]; rfl)
    refine ⟨?_, counted.total.1, counted.total.2, ?_, fun anchor => ?_, numbers, promotions,
      sound.taken⟩
    · rw [← counted.rounds.2]
      exact counted.running.2
    · intro s mem
      obtain ⟨d, some, there, finish, probe⟩ := timely.sent s mem
      have original := timely.finish d (List.mem_of_getElem? there)
      exact ⟨d, some, there, finish, finish.trans_le original, probe⟩
    · have aimed := sound.aimed (fun zero => Option.some_ne_none b (budget.symm.trans (sound.first zero)))
        anchor
      exact ⟨aimed.once, fun s mem => (aimed.probed s mem).2⟩

/-- What the runs of a process send is bounded, and nothing is sent after a stop. -/
theorem punch_bounds (lib : Library) {w : World} (reachable : PunchRuns lib {} w) {run : Nat}
    {r : PunchRuntime} (there : w.runtimes[run]? = some r) :
    Bounded r ∧ (r.stopped = true → ∀ w', PunchRuns lib w w' →
      ∃ r', w'.runtimes[run]? = some r' ∧ r'.stopped = true ∧ r'.sent = r.sent) := by
  constructor
  · have sound : ∀ r ∈ w.runtimes, Sound r := by
      refine @Runs.Reachable.invariant _ _ _ (fun v => ∀ r ∈ v.runtimes, Sound r) ?_ ?_ _ reachable
      · intro v first r mem
        rw [first] at mem
        exact absurd mem List.not_mem_nil
      · rintro v v' sound ⟨e, -, moved⟩
        exact World.step_sound sound moved
    exact (sound r (List.mem_of_getElem? there)).bounded
  · intro stopped w' later
    induction later with
    | start first =>
      subst first
      exact ⟨r, there, stopped, rfl⟩
    | next _ moved ih =>
      obtain ⟨e, -, moved⟩ := moved
      obtain ⟨r', found, halted, same⟩ := ih
      obtain ⟨r'', again, still, rest⟩ := World.step_halted moved found halted
      exact ⟨r'', again, still, rest.trans same⟩

/-! A trial, in which the answerer opens a pool of eight sockets. -/

def trialBudget : Json := .object [("pool_size", .unsigned 8), ("target_port_count", .unsigned 8),
  ("probe_pps", .unsigned 200), ("burst_packets", .unsigned 8), ("pool_probe_rounds", .unsigned 3),
  ("round_duration_ms", .unsigned 2000), ("ice_finish_reserve_ms", .unsigned 3000),
  ("probe_packet_budget", .unsigned 64), ("control_packet_budget", .unsigned 48),
  ("promoted_endpoint_limit", .unsigned 4)]

def trialDigest : String := "0123456789abcdef0123456789abcdef0123456789abcdef0123456789abcdef"

def trialHello : Json := .object [
  ("base", .object [("ip", .string "192.168.0.2"), ("port", .unsigned 40000),
    ("socket", .unsigned 1), ("foundation", .string "1"), ("component", .unsigned 1)]),
  ("samples", .array []), ("budget", trialBudget), ("remaining_ms", .unsigned 10000),
  ("mode", .string "pool-wide")]

def trialPlan : Json := .object [("anchor", .string "offer"),
  ("anchor_endpoint", .object [("ip", .string "203.0.113.5"), ("port", .unsigned 50000)]),
  ("peer_ip", .string "198.51.100.7"), ("budget", trialBudget), ("duration_ms", .unsigned 2000),
  ("offer_hello", .string trialDigest), ("answer_hello", .string trialDigest)]

/-- The payload of a control packet is its kind. -/
def trialParse : JsonParser
  | [1] => some ([], trialHello)
  | [2] => some ([], trialPlan)
  | [3] => some ([], .object [("digest", .string trialDigest), ("budget", trialBudget)])
  | [4] | [5] => some ([], .object [("digest", .string trialDigest)])
  | _ => none

def trialLibrary : Library where
  parse := trialParse
  hmac := fun _ _ => Block.zero 32
  sha := fun _ => Block.zero 32
  controlPayload := fun kind _ => [kind]
  digest := fun _ => trialDigest
  equal := fun _ _ => true
  makePunchPlan := fun _ _ => some trialPlan

def trialId : Id := ⟨List.replicate 16 1, rfl⟩

def trialPurpose (epoch : Nat) : Purpose where
  offer := false
  retryEnabled := false
  epoch
  config := {}
  keys := ⟨Block.zero 32, Block.zero 32, Block.zero 32, Block.zero 32⟩
  generation := trialId
  originalDeadline := 10000

def trialPacket (kind : Kind) (sequence : BitVec 32) : Bytes :=
  encode trialParse trialLibrary.hmac
    { kind, generation := trialId, round := if kind = .hello then Block.zero 16 else trialId, sequence,
      payload := [kind] } (Block.zero 32)

def trialBatch (nowMs : Int) : BatchAnswers where
  nowMs
  observationValid := true
  connected := false
  opens := (List.range' 1 8).map fun id => (id, ⟨"192.168.0.2", 40000 + id⟩, false)
  finishedMs := nowMs

def trialControl (nowMs : Int) : ControlAnswers where
  round := none
  prepare := ⟨nowMs, true, true, [⟨false, true, ⟨"203.0.113.5", 50000⟩⟩], []⟩
  start := ⟨true, true⟩

def trialTick (nowMs : Int) : Call := .tick nowMs ⟨false, true, trialBatch nowMs, true, []⟩

/-- The answerer opens its pool and starts to probe. -/
def trialStart (run : Nat) : List Event := [
  .create (trialPurpose run),
  .call run (.begin (some trialHello) 0),
  .call run (.control (trialPacket .hello 1) 100 (trialControl 100)),
  .call run (.control (trialPacket .prepare 2) 110 (trialControl 110)),
  .call run (trialTick 120),
  .call run (.control (trialPacket .start 3) 130 (trialControl 130))]

def trialBurst (run : Nat) (nowMs : Int) (count : Nat) : List Event :=
  .call run (trialTick nowMs) :: List.replicate count (.proceed run ⟨some (Block.zero 12), true⟩)

def trialEvents : List Event :=
  trialStart 0 ++ trialBurst 0 200 10 ++ [.call 0 (.stop "disconnect" false)]

/-- Eight probes go out before the stop, and nothing after it. -/
theorem punch_bounds_trial : ∃ w r, w.runtimes[0]? = some r ∧ r.sent.length = 8 ∧ Bounded r ∧
    ∀ w', PunchRuns trialLibrary w w' →
      ∃ r', w'.runtimes[0]? = some r' ∧ r'.stopped = true ∧ r'.sent = r.sent := by
  have ran : ((Runs.run (fun _ _ => True) (World.step trialLibrary) {} trialEvents).any fun w =>
      w.runtimes[0]?.any fun r => r.sent.length = 8 && r.stopped) = true := by
    decide +kernel
  obtain ⟨w, run, checks⟩ := (Option.any_eq_true _ _).mp ran
  obtain ⟨r, there, checks⟩ := (Option.any_eq_true _ _).mp checks
  simp only [Bool.and_eq_true, decide_eq_true_eq] at checks
  have reachable : PunchRuns trialLibrary {} w :=
    Runs.Reachable.run _ _ trialEvents (.start rfl) run
  have bounds := punch_bounds trialLibrary reachable there
  exact ⟨w, r, there, checks.1, bounds.1, bounds.2 checks.2⟩

end MiniRtc.Ice.Punch
