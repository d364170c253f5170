import Mathlib

/-! The budgets of UDP punching (punch_budget.cpp, punch_scheduler.cpp): token buckets, the limits
of one run with its attempts, the rounds over endpoints, the deadlines and the sampled ports, and
the arbitration between the runs of a process. -/
namespace MiniRtc.Ice

structure PunchConfig where
  enabled : Bool := true
  triggerDelayMs : Nat := 1500
  mappingSampleMaxAgeMs : Nat := 15000
  poolSize : Nat := 128
  targetPortCount : Nat := 1024
  probePps : Nat := 128
  burstPackets : Nat := 8
  poolProbeRounds : Nat := 3
  roundDurationMs : Nat := 10000
  iceFinishReserveMs : Nat := 3000
  probePacketBudget : Nat := 1024
  controlPacketBudget : Nat := 48
  promotedEndpointLimit : Nat := 4
deriving DecidableEq, Repr

namespace PunchConfig

def sockets (c : PunchConfig) : Nat := c.poolSize

def validate (c : PunchConfig) : Bool :=
  c.triggerDelayMs ≤ 15000 && 1 ≤ c.mappingSampleMaxAgeMs && c.mappingSampleMaxAgeMs ≤ 15000 &&
    1 ≤ c.poolSize && c.poolSize ≤ 128 && 1 ≤ c.targetPortCount && c.targetPortCount ≤ 1024 &&
    1 ≤ c.probePps && c.probePps ≤ 200 && 1 ≤ c.burstPackets && c.burstPackets ≤ 8 &&
    1 ≤ c.poolProbeRounds && c.poolProbeRounds ≤ 3 && 1 ≤ c.roundDurationMs &&
    c.roundDurationMs ≤ 15000 && 3000 ≤ c.iceFinishReserveMs && c.iceFinishReserveMs ≤ 15000 &&
    1 ≤ c.probePacketBudget && c.probePacketBudget ≤ 1024 && 1 ≤ c.controlPacketBudget &&
    c.controlPacketBudget ≤ 48 && 1 ≤ c.promotedEndpointLimit && c.promotedEndpointLimit ≤ 8

theorem sockets_ne_zero {c : PunchConfig} (valid : c.validate = true) : c.sockets ≠ 0 := by
  simp only [validate, Bool.and_eq_true, decide_eq_true_eq] at valid
  unfold sockets
  omega

end PunchConfig

/-! ### Tokens -/

/-- The tokens are thousandths. -/
structure PunchTokenBucket where
  rate : Nat
  burst : Nat
  tokens : Int
  last : Int
deriving DecidableEq, Repr

namespace PunchTokenBucket

def start (rate burst : Nat) (nowMs : Int) : PunchTokenBucket := ⟨rate, burst, burst * 1000, nowMs⟩

def refill (b : PunchTokenBucket) (nowMs : Int) : PunchTokenBucket :=
  { b with
    tokens := min (b.burst * 1000) (b.tokens + min (nowMs - b.last) (1000 * b.burst) * b.rate)
    last := nowMs }

def available (b : PunchTokenBucket) (nowMs : Int) : Bool × PunchTokenBucket :=
  if nowMs < b.last then (false, b) else (1000 ≤ (b.refill nowMs).tokens, b.refill nowMs)

def take (b : PunchTokenBucket) (nowMs : Int) : Bool × PunchTokenBucket :=
  let (available, b) := b.available nowMs
  if available then (true, { b with tokens := b.tokens - 1000 }) else (false, b)

theorem refill_refill (b : PunchTokenBucket) (nowMs : Int) :
    (b.refill nowMs).refill nowMs = b.refill nowMs := by
  simp [refill]

/-- A token that is there stays there in the same millisecond. -/
theorem available_again {b : PunchTokenBucket} {nowMs : Int}
    (there : (b.available nowMs).1 = true) :
    (b.available nowMs).2.available nowMs = (true, (b.available nowMs).2) := by
  unfold available at there
  split at there
  · cases there
  rename_i later
  have enough : 1000 ≤ (b.refill nowMs).tokens := of_decide_eq_true there
  have moved : b.available nowMs = (decide (1000 ≤ (b.refill nowMs).tokens), b.refill nowMs) := by
    rw [available, if_neg later]
  have still : ¬ nowMs < (b.refill nowMs).last := lt_irrefl nowMs
  rw [moved]
  simp only [available, if_neg still, refill_refill, decide_eq_true enough]

theorem take_eq (b : PunchTokenBucket) (nowMs : Int) : b.take nowMs =
    if (b.available nowMs).1 then
      (true, { (b.available nowMs).2 with tokens := (b.available nowMs).2.tokens - 1000 })
    else (false, (b.available nowMs).2) := rfl

theorem take_fst (b : PunchTokenBucket) (nowMs : Int) :
    (b.take nowMs).1 = (b.available nowMs).1 := by
  rw [take_eq]
  split
  · rename_i there
    rw [there]
  · rename_i missing
    rw [Bool.eq_false_of_not_eq_true missing]

end PunchTokenBucket

/-- The limits of a run. They count for each attempt anew, the bucket is one for all. -/
structure PunchProbeBudget where
  bucket : PunchTokenBucket
  attempts : Nat := 0
  probes : Nat := 0
  limit : Nat
  probeLimit : Nat
  round : Nat := 1
  maxRounds : Nat
deriving DecidableEq, Repr

namespace PunchProbeBudget

def ProbeLimit (c : PunchConfig) (ackReserve : Nat) : Nat :=
  c.probePacketBudget - min ackReserve (c.probePacketBudget / 8)

def start (c : PunchConfig) (nowMs : Int) (retry : Bool) (ackReserve : Nat) : PunchProbeBudget where
  bucket := .start c.probePps c.burstPackets nowMs
  limit := c.probePacketBudget
  probeLimit := ProbeLimit c ackReserve
  maxRounds := if retry then 2 else 1

def ready (b : PunchProbeBudget) (nowMs : Int) (ack : Bool) : Bool × PunchProbeBudget :=
  if b.attempts < b.limit ∧ (ack = true ∨ b.probes < b.probeLimit) then
    ((b.bucket.available nowMs).1, { b with bucket := (b.bucket.available nowMs).2 })
  else (false, b)

def take (b : PunchProbeBudget) (nowMs : Int) (ack : Bool) : Bool × PunchProbeBudget :=
  let (ready, b) := b.ready nowMs ack
  if ready = false then (false, b)
  else
    let (taken, bucket) := b.bucket.take nowMs
    if taken = false then (false, { b with bucket })
    else
      (true, { b with
        bucket
        attempts := b.attempts + 1
        probes := if ack then b.probes else b.probes + 1 })

def exhausted (b : PunchProbeBudget) : Bool := b.limit ≤ b.attempts || b.probeLimit ≤ b.probes

def nextAttempt (b : PunchProbeBudget) : Option PunchProbeBudget :=
  if b.maxRounds ≤ b.round then none
  else some { b with round := b.round + 1, attempts := 0, probes := 0 }

/-- What a request that is granted has counted. -/
structure Granted (b b' : PunchProbeBudget) (ack : Bool) : Prop where
  limits : b'.limit = b.limit ∧ b'.probeLimit = b.probeLimit
  rounds : b'.round = b.round ∧ b'.maxRounds = b.maxRounds
  attempts : b.attempts < b.limit ∧ b'.attempts = b.attempts + 1
  probes : if ack then b'.probes = b.probes else b.probes < b.probeLimit ∧ b'.probes = b.probes + 1

/-- Only the bucket has changed. -/
structure Refilled (b b' : PunchProbeBudget) : Prop where
  limits : b'.limit = b.limit ∧ b'.probeLimit = b.probeLimit
  rounds : b'.round = b.round ∧ b'.maxRounds = b.maxRounds
  attempts : b'.attempts = b.attempts
  probes : b'.probes = b.probes

theorem ready_refilled (b : PunchProbeBudget) (nowMs : Int) (ack : Bool) :
    Refilled b (b.ready nowMs ack).2 := by
  unfold ready
  split
  · exact ⟨⟨rfl, rfl⟩, ⟨rfl, rfl⟩, rfl, rfl⟩
  · exact ⟨⟨rfl, rfl⟩, ⟨rfl, rfl⟩, rfl, rfl⟩

/-- What is ready is granted in the same millisecond. -/
theorem take_ready {b : PunchProbeBudget} {nowMs : Int} {ack : Bool}
    (ready : (b.ready nowMs ack).1 = true) :
    ((b.ready nowMs ack).2.take nowMs ack).1 = true ∧
      Granted b ((b.ready nowMs ack).2.take nowMs ack).2 ack := by
  unfold PunchProbeBudget.ready at ready
  split at ready
  swap
  · cases ready
  rename_i counts
  have first : b.ready nowMs ack =
      ((b.bucket.available nowMs).1, { b with bucket := (b.bucket.available nowMs).2 }) := by
    rw [PunchProbeBudget.ready, if_pos counts]
  have again := PunchTokenBucket.available_again ready
  have second : ({ b with bucket := (b.bucket.available nowMs).2 } : PunchProbeBudget).ready nowMs
      ack = (true, { b with bucket := (b.bucket.available nowMs).2 }) := by
    rw [PunchProbeBudget.ready, if_pos counts, again]
  have taken : ((b.bucket.available nowMs).2.take nowMs).1 = true := by
    rw [PunchTokenBucket.take_fst, again]
  rw [first]
  simp only [take, second, Bool.true_eq_false, if_false]
  rw [if_neg (by simp [taken])]
  refine ⟨rfl, ⟨⟨rfl, rfl⟩, ⟨rfl, rfl⟩, ⟨counts.1, rfl⟩, ?_⟩⟩
  cases ack with
  | true => rfl
  | false => exact ⟨counts.2.resolve_left Bool.false_ne_true, rfl⟩

end PunchProbeBudget

/-! ### Rounds and deadlines -/

structure PunchRoundRobin where
  count : Nat
  rounds : Nat
  index : Nat := 0
  round : Nat := 0
  roundStart : Int
deriving DecidableEq, Repr

namespace PunchRoundRobin

def done (s : PunchRoundRobin) : Bool := s.count = 0 || s.rounds ≤ s.round

def peek (s : PunchRoundRobin) (nowMs : Int) : Option Nat :=
  if s.done || nowMs < s.roundStart then none else some s.index

def commit (s : PunchRoundRobin) (nowMs : Int) : PunchRoundRobin :=
  if (s.peek nowMs).isNone then s
  else
    let roundStart := if s.index = 0 then nowMs else s.roundStart
    if s.index + 1 = s.count then
      { s with index := 0, round := s.round + 1, roundStart := max (roundStart + 1000) nowMs }
    else { s with index := s.index + 1, roundStart }

theorem peek_eq {s : PunchRoundRobin} {nowMs : Int} {index : Nat} (peek : s.peek nowMs = some index) :
    index = s.index ∧ s.count ≠ 0 ∧ s.round < s.rounds := by
  unfold PunchRoundRobin.peek done at peek
  split at peek
  · cases peek
  · rename_i more
    cases peek
    simp only [Bool.or_eq_true, decide_eq_true_eq, not_or, not_le] at more
    exact ⟨rfl, more.1⟩

/-- The next index of the round, or the first of the next round. -/
structure Advanced (s s' : PunchRoundRobin) : Prop where
  same : s'.count = s.count ∧ s'.rounds = s.rounds
  next : s'.round = s.round + 1 ∧ s'.index = 0 ∨
    s'.round = s.round ∧ s'.index = s.index + 1 ∧ s'.index ≠ s.count

theorem commit_advanced {s : PunchRoundRobin} {nowMs : Int} {index : Nat}
    (peek : s.peek nowMs = some index) : Advanced s (s.commit nowMs) := by
  unfold commit
  rw [if_neg (by simp [peek])]
  simp only
  split
  · exact ⟨⟨rfl, rfl⟩, .inl ⟨rfl, rfl⟩⟩
  · rename_i more
    exact ⟨⟨rfl, rfl⟩, .inr ⟨rfl, rfl, more⟩⟩

theorem commit_cases (s : PunchRoundRobin) (nowMs : Int) :
    s.commit nowMs = s ∨ Advanced s (s.commit nowMs) := by
  cases peek : s.peek nowMs with
  | none =>
    refine .inl ?_
    rw [commit, if_pos (by simp [peek])]
  | some index => exact .inr (commit_advanced peek)

end PunchRoundRobin

structure PunchDeadlines where
  probe : Int := 0
  finish : Int := 0
deriving DecidableEq, Repr

def makePunchDeadlines (nowMs originalMs : Int) (durationMs reserveMs : Nat) : PunchDeadlines :=
  if nowMs < 0 ∨ originalMs ≤ nowMs ∨ originalMs - nowMs ≤ reserveMs ∨ durationMs = 0 ∨
      15000 < durationMs ∨ reserveMs < 3000 ∨ 15000 < reserveMs then {}
  else
    let probe := nowMs + min (durationMs : Int) (originalMs - nowMs - reserveMs)
    ⟨probe, min originalMs (probe + reserveMs)⟩

theorem makePunchDeadlines_finish {nowMs originalMs : Int} {durationMs reserveMs : Nat}
    (some : (makePunchDeadlines nowMs originalMs durationMs reserveMs).probe ≠ 0) :
    (makePunchDeadlines nowMs originalMs durationMs reserveMs).finish ≤ originalMs := by
  unfold makePunchDeadlines at some ⊢
  split at some
  · exact absurd rfl some
  · rename_i fits
    rw [if_neg fits]
    exact min_le_left _ _

/-! ### Sampled ports -/

/-- The words of a random source; it fails at `none`, and after the last one. -/
abbrev PunchRandom := List (Option (BitVec 32))

/-- A word below the largest multiple of the bound, in so many tries. -/
def draw (bound : Nat) : Nat → PunchRandom → Option (Nat × PunchRandom)
  | tries + 1, some value :: random =>
    if value.toNat < 2 ^ 32 - 2 ^ 32 % bound then some (value.toNat, random)
    else draw bound tries random
  | _, _ => none

def swap (ports : List Nat) (i j : Nat) : List Nat :=
  if inside : i < ports.length ∧ j < ports.length then
    (ports.set i ports[j]).set j ports[i]
  else ports

def shuffle : (left i : Nat) → List Nat → PunchRandom → Option (List Nat)
  | 0, _, ports, _ => some ports
  | left + 1, i, ports, random => do
    let (value, random) ← draw (ports.length - i) 32 random
    shuffle left (i + 1) (swap ports i (i + value % (ports.length - i))) random

def samplePunchPorts (count : Nat) (exclude : Finset Nat) (random : PunchRandom) : List Nat :=
  if count = 0 ∨ 1024 < count then []
  else
    let ports := (List.range' 1024 (65536 - 1024)).filter (· ∉ exclude)
    if ports.length < count then []
    else
      match shuffle count 0 ports random with
      | none => []
      | some ports => (ports.take count).mergeSort

theorem swap_perm (ports : List Nat) (i j : Nat) : (swap ports i j).Perm ports := by
  unfold swap
  split
  · rename_i inside
    exact List.set_set_perm inside.1 inside.2
  · exact .refl _

theorem shuffle_perm {left i : Nat} {ports ports' : List Nat} {random : PunchRandom}
    (shuffled : shuffle left i ports random = some ports') : ports'.Perm ports := by
  induction left generalizing i ports random with
  | zero =>
    cases shuffled
    exact .refl _
  | succ left ih =>
    simp only [shuffle, Option.bind_eq_bind, Option.bind_eq_some_iff] at shuffled
    obtain ⟨⟨value, random⟩, -, rest⟩ := shuffled
    exact (ih rest).trans (swap_perm _ _ _)

/-- The sampled ports are distinct, and none is excluded. -/
theorem samplePunchPorts_spec (count : Nat) (exclude : Finset Nat) (random : PunchRandom) :
    (samplePunchPorts count exclude random).Nodup ∧
      ∀ port ∈ samplePunchPorts count exclude random, port ∉ exclude := by
  unfold samplePunchPorts
  split
  · simp
  simp only
  split
  · simp
  split
  · simp
  rename_i ports shuffled
  have perm := shuffle_perm shuffled
  have distinct : ports.Nodup := perm.nodup_iff.mpr (List.Nodup.filter _ (List.nodup_range'))
  have same := List.mergeSort_perm (ports.take count) (fun a b : Nat => decide (a ≤ b))
  constructor
  · exact same.nodup_iff.mpr (distinct.sublist (List.take_sublist _ _))
  · intro port mem
    have inside := perm.mem_iff.mp (List.mem_of_mem_take (same.mem_iff.mp mem))
    simpa using (List.mem_filter.mp inside).2

/-! ### Arbitration -/

structure Waiter where
  id : Nat
  ack : Bool
deriving DecidableEq, Repr

/-- The budget that the runs of a process share. An id is the lease of a run; zero is none. -/
structure PunchProcessBudget where
  next : Nat := 0
  active : Finset Nat := ∅
  waiting : List Waiter := []
  bucket : PunchTokenBucket := .start 200 8 0
deriving DecidableEq

namespace PunchProcessBudget

def acquire (p : PunchProcessBudget) : Nat × PunchProcessBudget :=
  if 2 ≤ p.active.card ∨ p.next = 2 ^ 64 - 1 then (0, p)
  else (p.next + 1, { p with next := p.next + 1, active := insert (p.next + 1) p.active })

def release (p : PunchProcessBudget) (id : Nat) : PunchProcessBudget :=
  { p with active := p.active.erase id, waiting := p.waiting.filter (·.id ≠ id) }

/-- The request of a run is queued, or the one that it has there becomes this one. -/
def request (p : PunchProcessBudget) (id : Nat) (ack : Bool) : List Waiter :=
  if p.waiting.any (·.id = id) then p.waiting.map fun w => if w.id = id then { w with ack } else w
  else p.waiting ++ [⟨id, ack⟩]

/-- The first request for an ACK, or else the first request. -/
def next? (waiting : List Waiter) : Option Waiter :=
  (waiting.find? Waiter.ack).orElse fun _ => waiting.head?

def take (p : PunchProcessBudget) (id : Nat) (ack : Bool) (nowMs : Int) :
    Bool × PunchProcessBudget :=
  if id ∉ p.active then (false, p)
  else
    let waiting := p.request id ack
    match next? waiting with
    | none => (false, { p with waiting })
    | some next =>
      if next.id ≠ id then (false, { p with waiting })
      else
        let (taken, bucket) := p.bucket.take nowMs
        if taken then (true, { p with waiting := waiting.erase next, bucket })
        else (false, { p with waiting, bucket })

theorem mem_request {p : PunchProcessBudget} {id : Nat} {ack : Bool} {w : Waiter}
    (mem : w ∈ p.request id ack) : w = ⟨id, ack⟩ ∨ w ∈ p.waiting ∧ w.id ≠ id := by
  unfold request at mem
  split at mem
  · obtain ⟨v, there, rfl⟩ := List.mem_map.mp mem
    split
    · rename_i own
      exact .inl (by rw [← own])
    · rename_i other
      exact .inr ⟨there, other⟩
  · rename_i absent
    obtain there | new := List.mem_append.mp mem
    · refine .inr ⟨there, fun own => absent ?_⟩
      exact List.any_eq_true.mpr ⟨w, there, decide_eq_true own⟩
    · exact .inl (List.mem_singleton.mp new)

theorem request_ids (p : PunchProcessBudget) (id : Nat) (ack : Bool) :
    (p.request id ack).map Waiter.id =
      if id ∈ p.waiting.map Waiter.id then p.waiting.map Waiter.id
      else p.waiting.map Waiter.id ++ [id] := by
  have present : (p.waiting.any (·.id = id)) = true ↔ id ∈ p.waiting.map Waiter.id := by
    simp
  unfold request
  split
  · rename_i there
    rw [if_pos (present.mp there), List.map_map]
    refine List.map_congr_left fun w _ => ?_
    simp only [Function.comp_apply]
    split <;> rfl
  · rename_i absent
    rw [if_neg fun mem => absent (present.mpr mem), List.map_append]
    rfl

theorem request_nodup {p : PunchProcessBudget} (distinct : (p.waiting.map Waiter.id).Nodup)
    (id : Nat) (ack : Bool) : ((p.request id ack).map Waiter.id).Nodup := by
  rw [request_ids]
  split
  · exact distinct
  · rename_i absent
    exact List.nodup_append.mpr ⟨distinct, List.nodup_singleton _, fun a mem b new same => by
      rw [List.mem_singleton.mp new] at same
      exact absent (same ▸ mem)⟩

theorem next?_mem {waiting : List Waiter} {w : Waiter} (found : next? waiting = some w) :
    w ∈ waiting := by
  unfold next? at found
  cases ack : waiting.find? Waiter.ack with
  | some v =>
    rw [ack] at found
    cases found
    exact List.mem_of_find?_eq_some ack
  | none =>
    rw [ack] at found
    exact List.mem_of_head? found

theorem next?_isSome {waiting : List Waiter} (filled : waiting ≠ []) :
    ∃ w, next? waiting = some w := by
  unfold next?
  cases waiting.find? Waiter.ack with
  | some w => exact ⟨w, rfl⟩
  | none => exact ⟨waiting.head filled, List.head?_eq_some_head filled⟩

theorem request_ne_nil (p : PunchProcessBudget) (id : Nat) (ack : Bool) :
    p.request id ack ≠ [] := by
  unfold request
  split
  · rename_i there
    rintro none
    rw [List.map_eq_nil_iff.mp none] at there
    cases there
  · simp

/-- A request is granted, or it is in the queue and another one comes before it, or there is no
token. -/
theorem take_cases (p : PunchProcessBudget) (id : Nat) (ack : Bool) (nowMs : Int) :
    (id ∉ p.active ∧ p.take id ack nowMs = (false, p)) ∨
      (∃ bucket next, id ∈ p.active ∧ next? (p.request id ack) = some next ∧ next.id = id ∧
        p.take id ack nowMs =
          (true, { p with waiting := (p.request id ack).erase next, bucket })) ∨
      ∃ bucket, id ∈ p.active ∧
        p.take id ack nowMs = (false, { p with waiting := p.request id ack, bucket }) ∧
        ((∃ next, next? (p.request id ack) = some next ∧ next.id ≠ id) ∨
          (p.bucket.available nowMs).1 = false) := by
  by_cases active : id ∈ p.active
  swap
  · exact .inl ⟨active, by rw [take, if_pos active]⟩
  obtain ⟨next, found⟩ := next?_isSome (p.request_ne_nil id ack)
  have taken := PunchTokenBucket.take_fst p.bucket nowMs
  by_cases own : next.id = id
  · cases there : (p.bucket.available nowMs).1 with
    | true =>
      refine .inr (.inl ⟨(p.bucket.take nowMs).2, next, active, found, own, ?_⟩)
      rw [there] at taken
      simp only [take, if_neg (not_not.mpr active), found, if_neg (not_not.mpr own)]
      rw [if_pos taken]
    | false =>
      refine .inr (.inr ⟨(p.bucket.take nowMs).2, active, ?_, .inr rfl⟩)
      rw [there] at taken
      simp only [take, if_neg (not_not.mpr active), found, if_neg (not_not.mpr own)]
      rw [if_neg (by simp [taken])]
  · refine .inr (.inr ⟨p.bucket, active, ?_, .inl ⟨next, found, own⟩⟩)
    simp only [take, if_neg (not_not.mpr active), found, if_pos own]

end PunchProcessBudget

end MiniRtc.Ice
