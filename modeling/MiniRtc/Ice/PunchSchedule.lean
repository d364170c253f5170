import MiniRtc.Ice.PunchBudget
import MiniRtc.Lib.TokenBucket

/-! Whole runs of the rounds over endpoints and of the token bucket (punch_scheduler.cpp). -/
namespace MiniRtc.Ice

/-! ### Rounds -/

namespace PunchRoundRobin

inductive Call where
  | peek (nowMs : Int)
  | commit (nowMs : Int)

/-- The state, and the commits that had an effect: the index and the time of each. -/
structure History where
  state : PunchRoundRobin
  commits : List (Nat × Int) := []

def History.call (h : History) : Call → History
  | .peek _ => h
  | .commit nowMs =>
    { state := h.state.commit nowMs
      commits := h.commits ++ ((h.state.peek nowMs).map fun index => (index, nowMs)).toList }

theorem History.call_commit (h : History) (nowMs : Int) :
    h.call (.commit nowMs) =
      { state := h.state.commit nowMs
        commits := h.commits ++ ((h.state.peek nowMs).map fun index => (index, nowMs)).toList } := rfl

def history (count rounds : Nat) (startMs : Int) (calls : List Call) : History :=
  calls.foldl History.call { state := { count := count, rounds := rounds, roundStart := startMs } }

/-- What the state says about the commits so far. In a round that has begun, its start is the time of the first commit;
between two rounds it is a second later at least. -/
structure Kept (count rounds : Nat) (h : History) : Prop where
  sizes : h.state.count = count ∧ h.state.rounds = rounds
  inside : 0 < count → h.state.index < count
  most : h.state.round ≤ rounds
  ended : h.state.round = rounds → h.state.index = 0
  place : h.state.round * count + h.state.index = h.commits.length
  indices : ∀ k c, h.commits[k]? = some c → c.1 = k % count
  begun : 0 < h.state.index → ∃ c, h.commits[h.state.round * count]? = some c ∧ c.2 = h.state.roundStart
  between : h.state.index = 0 → ∀ r c, h.state.round = r + 1 → h.commits[r * count]? = some c →
    c.2 + 1000 ≤ h.state.roundStart
  apart : ∀ r c d, h.commits[r * count]? = some c → h.commits[(r + 1) * count]? = some d → c.2 + 1000 ≤ d.2

theorem kept_start (count rounds : Nat) (startMs : Int) :
    Kept count rounds { state := { count := count, rounds := rounds, roundStart := startMs } } := by
  constructor <;> simp

theorem peek_start {s : PunchRoundRobin} {nowMs : Int} {index : Nat} (peek : s.peek nowMs = some index) :
    s.roundStart ≤ nowMs := by
  unfold PunchRoundRobin.peek at peek
  split at peek
  · cases peek
  · rename_i open'
    simp only [Bool.or_eq_true, decide_eq_true_eq, not_or, not_lt] at open'
    exact open'.2

theorem commit_none {s : PunchRoundRobin} {nowMs : Int} (shut : s.peek nowMs = none) : s.commit nowMs = s := by
  rw [commit, if_pos (by simp [shut])]

variable {count rounds : Nat} {h : History} {nowMs : Int}

/-- A new commit is a second or more after the first one of the round before. -/
theorem Kept.apart_new (kept : Kept count rounds h) (positive : 0 < count) (later : h.state.roundStart ≤ nowMs) {r : Nat}
    {c : Nat × Int} (first : h.commits[r * count]? = some c) (here : (r + 1) * count = h.commits.length) :
    c.2 + 1000 ≤ nowMs := by
  have inside := kept.inside positive
  have place := kept.place
  have divided : r + 1 = h.state.round := by
    have same : (r + 1) * count / count = (h.state.round * count + h.state.index) / count := by rw [here, place]
    rw [Nat.mul_div_cancel _ positive, Nat.mul_comm, Nat.mul_add_div positive, Nat.div_eq_of_lt inside] at same
    exact same
  have zero : h.state.index = 0 := by
    rw [← here, divided] at place
    omega
  have := kept.between zero r c divided.symm first
  omega

theorem getElem?_new {α : Type*} {l : List α} {x c : α} {k : Nat} (there : (l ++ [x])[k]? = some c) :
    l[k]? = some c ∨ k = l.length ∧ c = x := by
  rcases Nat.lt_trichotomy k l.length with old | rfl | past
  · rw [List.getElem?_append_left old] at there
    exact .inl there
  · rw [List.getElem?_concat_length] at there
    exact .inr ⟨rfl, (Option.some.inj there).symm⟩
  · rw [List.getElem?_eq_none (by simp; omega)] at there
    cases there

theorem Kept.commit (kept : Kept count rounds h) {index : Nat} (peek : h.state.peek nowMs = some index) :
    Kept count rounds (h.call (.commit nowMs)) := by
  obtain ⟨rfl, some, more⟩ := peek_eq peek
  have later := peek_start peek
  obtain ⟨sameCount, sameRounds⟩ := kept.sizes
  have positive : 0 < count := by omega
  have inside := kept.inside positive
  have place := kept.place
  have commits : (h.call (.commit nowMs)).commits = h.commits ++ [(h.state.index, nowMs)] := by
    rw [History.call_commit, peek]
    rfl
  have indices : ∀ k c, (h.commits ++ [(h.state.index, nowMs)])[k]? = Option.some c → c.1 = k % count := by
    intro k c there
    rcases getElem?_new there with old | ⟨rfl, rfl⟩
    · exact kept.indices k c old
    · rw [← place, Nat.mul_comm, Nat.mul_add_mod, Nat.mod_eq_of_lt inside]
  have apart : ∀ r c d, (h.commits ++ [(h.state.index, nowMs)])[r * count]? = Option.some c →
      (h.commits ++ [(h.state.index, nowMs)])[(r + 1) * count]? = Option.some d → c.2 + 1000 ≤ d.2 := by
    intro r c d first second
    have before : r * count < (r + 1) * count := Nat.mul_lt_mul_of_pos_right (Nat.lt_succ_self r) positive
    rcases getElem?_new second with old | ⟨here, rfl⟩
    · have bound := (List.getElem?_eq_some_iff.mp old).1
      rw [List.getElem?_append_left (by omega)] at first
      exact kept.apart r c d first old
    · rw [List.getElem?_append_left (by omega)] at first
      exact kept.apart_new positive later first here
  -- The first commit of the round that is open after this one.
  have opening : ∃ c, (h.commits ++ [(h.state.index, nowMs)])[h.state.round * count]? = Option.some c ∧
      c.2 = if h.state.index = 0 then nowMs else h.state.roundStart := by
    by_cases zero : h.state.index = 0
    · refine ⟨(h.state.index, nowMs), ?_, (if_pos zero).symm⟩
      have here : h.state.round * count = h.commits.length := by omega
      rw [here, List.getElem?_concat_length]
    · obtain ⟨c, there, start⟩ := kept.begun (by omega)
      rw [List.getElem?_append_left (by omega), if_neg zero]
      exact ⟨c, there, start⟩
  have moved : h.state.commit nowMs =
      if h.state.index + 1 = h.state.count then
        { h.state with
          index := 0
          round := h.state.round + 1
          roundStart := max ((if h.state.index = 0 then nowMs else h.state.roundStart) + 1000) nowMs }
      else
        { h.state with
          index := h.state.index + 1
          roundStart := if h.state.index = 0 then nowMs else h.state.roundStart } := by
    rw [PunchRoundRobin.commit, if_neg (by simp [peek])]
  have state : (h.call (.commit nowMs)).state = h.state.commit nowMs := rfl
  by_cases last : h.state.index + 1 = h.state.count
  · rw [if_pos last] at moved
    constructor
    · rw [state, moved]
      exact kept.sizes
    · rw [state, moved]
      exact fun _ => positive
    · rw [state, moved]
      show h.state.round + 1 ≤ rounds
      omega
    · rw [state, moved]
      exact fun _ => rfl
    · rw [state, moved, commits, List.length_append, ← place]
      show (h.state.round + 1) * count + 0 = _
      rw [Nat.succ_mul, List.length_singleton]
      omega
    · rw [commits]
      exact indices
    · rw [state, moved]
      exact fun some => absurd some (lt_irrefl 0)
    · rw [state, moved, commits]
      intro _ r c same there
      obtain rfl := Nat.succ.inj same
      obtain ⟨d, there', start⟩ := opening
      obtain rfl := Option.some.inj (there.symm.trans there')
      rw [start]
      exact le_max_left _ _
    · rw [commits]
      exact apart
  · rw [if_neg last] at moved
    constructor
    · rw [state, moved]
      exact kept.sizes
    · rw [state, moved]
      show _ → h.state.index + 1 < count
      omega
    · rw [state, moved]
      exact kept.most
    · rw [state, moved]
      show h.state.round = rounds → _
      omega
    · rw [state, moved, commits, List.length_append, ← place]
      rfl
    · rw [commits]
      exact indices
    · rw [state, moved, commits]
      exact fun _ => opening
    · rw [state, moved]
      exact fun zero => absurd zero (Nat.succ_ne_zero _)
    · rw [commits]
      exact apart

theorem Kept.call (kept : Kept count rounds h) (c : Call) : Kept count rounds (h.call c) := by
  cases c with
  | peek nowMs => exact kept
  | commit nowMs =>
    cases peek : h.state.peek nowMs with
    | none =>
      have same : h.call (.commit nowMs) = h := by
        rw [History.call_commit, peek, commit_none peek]
        simp
      rw [same]
      exact kept
    | some index => exact kept.commit peek

theorem history_kept (count rounds : Nat) (startMs : Int) (calls : List Call) :
    Kept count rounds (history count rounds startMs calls) := by
  induction calls using List.reverseRecOn with
  | nil => exact kept_start count rounds startMs
  | append_singleton calls c ih =>
    have more : history count rounds startMs (calls ++ [c]) = (history count rounds startMs calls).call c :=
      List.foldl_concat ..
    rw [more]
    exact ih.call c

/-- The commits with an effect go through the indices, and rounds begin a second apart. All is done with the last index
of the last round. -/
theorem round_robin_schedule (count rounds : Nat) (startMs : Int) (calls : List Call) :
    (∀ k c, (history count rounds startMs calls).commits[k]? = some c → c.1 = k % count) ∧
    (0 < count → (history count rounds startMs calls).commits.length ≤ count * rounds ∧
      ((history count rounds startMs calls).state.done = true ↔
        (history count rounds startMs calls).commits.length = count * rounds)) ∧
    (∀ r c d, (history count rounds startMs calls).commits[r * count]? = some c →
      (history count rounds startMs calls).commits[(r + 1) * count]? = some d → c.2 + 1000 ≤ d.2) ∧
    ∀ nowMs, (history count rounds startMs calls).state.peek nowMs = none →
      (history count rounds startMs calls).call (.commit nowMs) = history count rounds startMs calls := by
  have kept := history_kept count rounds startMs calls
  generalize history count rounds startMs calls = h at kept ⊢
  refine ⟨kept.indices, fun positive => ?_, kept.apart, fun nowMs shut => ?_⟩
  · have inside := kept.inside positive
    have place := kept.place
    obtain ⟨sameCount, sameRounds⟩ := kept.sizes
    have done : h.state.done = true ↔ h.state.round = rounds := by
      simp only [PunchRoundRobin.done, Bool.or_eq_true, decide_eq_true_eq, sameCount, sameRounds]
      have := kept.most
      omega
    rcases kept.most.lt_or_eq with before | last
    · have less : (h.state.round + 1) * count ≤ rounds * count := Nat.mul_le_mul_right count before
      rw [Nat.succ_mul, Nat.mul_comm rounds] at less
      rw [done]
      omega
    · have zero := kept.ended last
      rw [last, zero, Nat.mul_comm] at place
      rw [done]
      omega
  · rw [History.call_commit, shut, commit_none shut]
    simp

end PunchRoundRobin

/-! ### Tokens over a run -/

namespace PunchTokenBucket

open TokenBucket

inductive Call where
  | available (nowMs : Int)
  | take (nowMs : Int)

def Call.time : Call → Int
  | .available nowMs => nowMs
  | .take nowMs => nowMs

/-- The state, and the times at which a token was taken. -/
structure History where
  state : PunchTokenBucket
  takes : List Int := []

def History.call (h : History) : Call → History
  | .available nowMs => { h with state := (h.state.available nowMs).2 }
  | .take nowMs =>
    { state := (h.state.take nowMs).2
      takes := if (h.state.take nowMs).1 then h.takes ++ [nowMs] else h.takes }

def history (rate burst : Nat) (startMs : Int) (calls : List Call) : History :=
  calls.foldl History.call { state := start rate burst startMs }

theorem History.call_available (h : History) (nowMs : Int) :
    h.call (.available nowMs) = { h with state := (h.state.available nowMs).2 } := rfl

theorem History.call_take (h : History) (nowMs : Int) :
    h.call (.take nowMs) =
      { state := (h.state.take nowMs).2
        takes := if (h.state.take nowMs).1 then h.takes ++ [nowMs] else h.takes } := rfl

theorem history_concat (rate burst : Nat) (startMs : Int) (calls : List Call) (c : Call) :
    history rate burst startMs (calls ++ [c]) = (history rate burst startMs calls).call c := List.foldl_concat ..

/-- A result in 64 bits. An overflow has none. -/
def int64 (x : Int) : Option Int := if -2 ^ 63 ≤ x ∧ x < 2 ^ 63 then some x else none

theorem int64_eq {x : Int} (low : -2 ^ 63 ≤ x) (high : x < 2 ^ 63) : int64 x = some x := if_pos ⟨low, high⟩

/-! The same functions with every sum, difference and product in 64 bits. -/

def start64 (rate burst : Nat) (nowMs : Int) : Option PunchTokenBucket := do
  let tokens ← int64 (burst * 1000)
  some ⟨rate, burst, tokens, nowMs⟩

def available64 (b : PunchTokenBucket) (nowMs : Int) : Option (Bool × PunchTokenBucket) :=
  if nowMs < b.last then some (false, b)
  else do
    let most ← int64 (1000 * b.burst)
    let waited ← int64 (nowMs - b.last)
    let added ← int64 (min waited most * b.rate)
    let filled ← int64 (b.tokens + added)
    let full ← int64 (b.burst * 1000)
    some (1000 ≤ min full filled, { b with tokens := min full filled, last := nowMs })

def take64 (b : PunchTokenBucket) (nowMs : Int) : Option (Bool × PunchTokenBucket) := do
  let (available, b) ← b.available64 nowMs
  if available then
    let tokens ← int64 (b.tokens - 1000)
    some (true, { b with tokens })
  else some (false, b)

def History.call64 (h : History) : Call → Option History
  | .available nowMs => do
    let (_, state) ← h.state.available64 nowMs
    some { h with state }
  | .take nowMs => do
    let (taken, state) ← h.state.take64 nowMs
    some { state, takes := if taken then h.takes ++ [nowMs] else h.takes }

def history64 (rate burst : Nat) (startMs : Int) (calls : List Call) : Option History := do
  let state ← start64 rate burst startMs
  calls.foldlM History.call64 { state }

/-! ### The ideal bucket -/

def Call.request : Call → Request Int
  | .available nowMs => .look nowMs
  | .take nowMs => .pay nowMs 1000

def History.ledger (h : History) : Ledger Int where
  bucket := ⟨h.state.tokens, h.state.last⟩
  paid := h.takes.map fun nowMs => (nowMs, 1000)

theorem History.ledger_eq (h : History) :
    h.ledger = { bucket := ⟨h.state.tokens, h.state.last⟩, paid := h.takes.map fun nowMs => (nowMs, 1000) } := rfl

/-- The ideal bucket does not cap the time that it waits. -/
def ideal (rate burst : Nat) (startMs : Int) (calls : List Call) : Ledger Int :=
  calls.foldl (fun l c => l.request (1000 * burst) rate c.request) { bucket := ⟨1000 * burst, startMs⟩ }

section Steps

variable {b : PunchTokenBucket} {h : History} {nowMs : Int}

theorem refill_tokens (positive : 1 ≤ b.rate) (nonneg : 0 ≤ b.tokens) :
    (b.refill nowMs).tokens = min (1000 * (b.burst : Int)) (b.tokens + (nowMs - b.last) * b.rate) := by
  rw [refill, mul_comm (b.burst : Int)]
  exact refill_capped (by exact_mod_cast positive) nonneg (by positivity)

theorem available_before (before : nowMs < b.last) : b.available nowMs = (false, b) := if_pos before

theorem available_later (later : b.last ≤ nowMs) :
    b.available nowMs = (decide (1000 ≤ (b.refill nowMs).tokens), b.refill nowMs) := if_neg (not_lt.mpr later)

theorem take_before (before : nowMs < b.last) : b.take nowMs = (false, b) := by
  rw [take_eq, available_before before]
  rfl

theorem take_later (later : b.last ≤ nowMs) : b.take nowMs =
    if 1000 ≤ (b.refill nowMs).tokens then
      (true, { b.refill nowMs with tokens := (b.refill nowMs).tokens - 1000 })
    else (false, b.refill nowMs) := by
  rw [take_eq, available_later later]
  simp

theorem History.ledger_refill (positive : 1 ≤ h.state.rate) (nonneg : 0 ≤ h.state.tokens) :
    ({ h with state := h.state.refill nowMs } : History).ledger =
      h.ledger.refill (1000 * (h.state.burst : Int)) (h.state.rate : Int) nowMs := by
  have tokens : (h.state.refill nowMs).tokens = _ := refill_tokens positive nonneg
  simp only [History.ledger_eq, Ledger.refill, Bucket.refill, tokens]
  rfl

/-- One call does to the bucket what the request does to the ideal one. -/
theorem History.ledger_call (positive : 1 ≤ h.state.rate) (nonneg : 0 ≤ h.state.tokens) (c : Call) :
    (h.call c).ledger = h.ledger.request (1000 * (h.state.burst : Int)) (h.state.rate : Int) c.request := by
  cases c with
  | available nowMs =>
    rw [Call.request, Ledger.request]
    by_cases before : nowMs < h.state.last
    · rw [if_pos (show nowMs < h.ledger.bucket.last from before), History.call_available, available_before before]
    · rw [if_neg (show ¬ nowMs < h.ledger.bucket.last from before), History.call_available,
        available_later (not_lt.mp before)]
      exact ledger_refill positive nonneg
  | take nowMs =>
    rw [Call.request, Ledger.request]
    by_cases before : nowMs < h.state.last
    · rw [if_pos (show nowMs < h.ledger.bucket.last from before), History.call_take, take_before before]
      rfl
    · rw [if_neg (show ¬ nowMs < h.ledger.bucket.last from before), History.call_take,
        take_later (not_lt.mp before), ← ledger_refill positive nonneg]
      have level : (History.ledger { h with state := h.state.refill nowMs }).bucket.level =
          (h.state.refill nowMs).tokens := rfl
      rw [level]
      by_cases there : 1000 ≤ (h.state.refill nowMs).tokens
      · rw [if_pos there, if_pos there]
        simp [History.ledger_eq, Ledger.withdraw, refill]
      · rw [if_neg there, if_neg there]
        rfl

end Steps

/-- What a run keeps. `times` are the readings of the clock. -/
structure Kept (rate burst : Nat) (times : List Int) (h : History) : Prop where
  sizes : h.state.rate = rate ∧ h.state.burst = burst
  sound : h.ledger.Sound (1000 * (burst : Int)) (rate : Int)
  seen : h.state.last ∈ times

section Runs

variable {rate burst : Nat} {times : List Int} {h : History} {nowMs : Int}

theorem Kept.nonneg (kept : Kept rate burst times h) : 0 ≤ h.state.tokens := kept.sound.nonneg

theorem Kept.most (kept : Kept rate burst times h) : h.state.tokens ≤ 1000 * burst := kept.sound.most

theorem kept_start (rate burst : Nat) {startMs : Int} (mem : startMs ∈ times) :
    Kept rate burst times { state := start rate burst startMs } := by
  constructor
  · exact ⟨rfl, rfl⟩
  · have sound : Ledger.Sound (1000 * (burst : Int)) (rate : Int) { bucket := ⟨1000 * burst, startMs⟩ } :=
      .full (by positivity) (by positivity) startMs
    rw [mul_comm] at sound ⊢
    exact sound
  · exact mem

/-- A call with a time before the last one does nothing, any other sets the last time. -/
theorem History.call_cases (h : History) (c : Call) :
    h.call c = h ∨
    (h.call c).state = h.state.refill c.time ∨
    (h.call c).state = { h.state.refill c.time with tokens := (h.state.refill c.time).tokens - 1000 } := by
  cases c with
  | available nowMs =>
    by_cases before : nowMs < h.state.last
    · exact .inl (by rw [History.call_available, available_before before])
    · exact .inr (.inl (by rw [History.call_available, available_later (not_lt.mp before)]; rfl))
  | take nowMs =>
    by_cases before : nowMs < h.state.last
    · exact .inl (by rw [History.call_take, take_before before]; rfl)
    · by_cases there : 1000 ≤ (h.state.refill nowMs).tokens
      · exact .inr (.inr (by rw [History.call_take, take_later (not_lt.mp before), if_pos there]; rfl))
      · exact .inr (.inl (by rw [History.call_take, take_later (not_lt.mp before), if_neg there]; rfl))

theorem History.call_sizes (h : History) (c : Call) :
    (h.call c).state.rate = h.state.rate ∧ (h.call c).state.burst = h.state.burst := by
  rcases h.call_cases c with same | moved | moved
  · rw [same]
    exact ⟨rfl, rfl⟩
  · rw [moved]
    exact ⟨rfl, rfl⟩
  · rw [moved]
    exact ⟨rfl, rfl⟩

theorem History.call_last (h : History) (c : Call) :
    (h.call c).state.last = h.state.last ∨ (h.call c).state.last = c.time := by
  rcases h.call_cases c with same | moved | moved
  · exact .inl (by rw [same])
  · exact .inr (by rw [moved]; rfl)
  · exact .inr (by rw [moved]; rfl)

theorem Kept.call (kept : Kept rate burst times h) (positive : 1 ≤ rate) {c : Call} (mem : c.time ∈ times) :
    Kept rate burst times (h.call c) := by
  obtain ⟨sameRate, sameBurst⟩ := kept.sizes
  obtain ⟨keptRate, keptBurst⟩ := h.call_sizes c
  constructor
  · exact ⟨keptRate.trans sameRate, keptBurst.trans sameBurst⟩
  · rw [History.ledger_call (by omega) kept.nonneg, sameRate, sameBurst]
    refine kept.sound.request (by positivity) fun now cost pays => ?_
    cases c with
    | available nowMs => cases pays
    | take nowMs =>
      cases pays
      norm_num
  · rcases h.call_last c with same | moved
    · rw [same]
      exact kept.seen
    · rw [moved]
      exact mem

/-! No result leaves the 64 bits. -/

variable (fits : 1000 * (burst : Int) * (rate + 1) < 2 ^ 63)
include fits

theorem most_fits : 1000 * (burst : Int) < 2 ^ 63 := by
  have less : 1000 * (burst : Int) * 1 ≤ 1000 * burst * (rate + 1) :=
    mul_le_mul_of_nonneg_left (by linarith [Int.natCast_nonneg rate]) (by positivity)
  linarith

theorem Kept.available64 (kept : Kept rate burst times h) (near : nowMs - h.state.last < 2 ^ 63) :
    h.state.available64 nowMs = some (h.state.available nowMs) := by
  obtain ⟨sameRate, sameBurst⟩ := kept.sizes
  by_cases before : nowMs < h.state.last
  · rw [available_before before, PunchTokenBucket.available64, if_pos before]
  · have most := most_fits fits
    have nonneg := kept.nonneg
    have level := kept.most
    have low : 0 ≤ min (nowMs - h.state.last) (1000 * (burst : Int)) * (rate : Int) :=
      mul_nonneg (le_min (by omega) (by positivity)) (by positivity)
    have high : min (nowMs - h.state.last) (1000 * (burst : Int)) * (rate : Int) ≤ 1000 * burst * rate :=
      mul_le_mul_of_nonneg_right (min_le_right _ _) (by positivity)
    have sum : 1000 * (burst : Int) * (rate + 1) = 1000 * burst * rate + 1000 * burst := by ring
    have full : int64 (1000 * (burst : Int)) = some _ := int64_eq (by omega) most
    have full' : int64 ((burst : Int) * 1000) = some _ := int64_eq (by omega) (by omega)
    have waited : int64 (nowMs - h.state.last) = some _ := int64_eq (by omega) near
    have added : int64 (min (nowMs - h.state.last) (1000 * (burst : Int)) * (rate : Int)) = some _ :=
      int64_eq (by omega) (by omega)
    have filled : int64 (h.state.tokens + min (nowMs - h.state.last) (1000 * (burst : Int)) * (rate : Int)) = some _ :=
      int64_eq (by omega) (by omega)
    rw [available_later (not_lt.mp before), PunchTokenBucket.available64, if_neg before]
    simp only [sameRate, sameBurst, full, full', waited, added, filled, Option.bind_eq_bind, Option.bind_some, refill]

theorem Kept.take64 (kept : Kept rate burst times h) (near : nowMs - h.state.last < 2 ^ 63) :
    h.state.take64 nowMs = some (h.state.take nowMs) := by
  have nonneg := kept.nonneg
  have most := most_fits fits
  rw [PunchTokenBucket.take64, kept.available64 fits near]
  by_cases before : nowMs < h.state.last
  · simp [available_before before, take_before before]
  · have least : (h.state.refill nowMs).tokens ≤ 1000 * burst := by
      rw [← kept.sizes.2, mul_comm]
      exact min_le_left _ _
    rw [available_later (not_lt.mp before), take_later (not_lt.mp before)]
    by_cases there : 1000 ≤ (h.state.refill nowMs).tokens
    · have paid : int64 ((h.state.refill nowMs).tokens - 1000) = some _ := int64_eq (by omega) (by omega)
      simp [there, paid]
    · simp [there]

theorem Kept.call64 (kept : Kept rate burst times h) {c : Call} (near : c.time - h.state.last < 2 ^ 63) :
    h.call64 c = some (h.call c) := by
  cases c with
  | available nowMs =>
    have same : h.state.available64 nowMs = _ := kept.available64 fits near
    rw [History.call64, same]
    rfl
  | take nowMs =>
    have same : h.state.take64 nowMs = _ := kept.take64 fits near
    rw [History.call64, same]
    rfl

end Runs

/-- The ledger of a run is that of the ideal bucket. -/
theorem history_ledger {rate : Nat} (burst : Nat) {startMs : Int} {calls : List Call} {times : List Int} (positive : 1 ≤ rate)
    (first : startMs ∈ times) (later : ∀ c ∈ calls, c.time ∈ times) :
    (history rate burst startMs calls).ledger = ideal rate burst startMs calls ∧
      Kept rate burst times (history rate burst startMs calls) := by
  induction calls using List.reverseRecOn with
  | nil =>
    have same : (History.ledger { state := start rate burst startMs }) = { bucket := ⟨1000 * burst, startMs⟩ } := by
      rw [History.ledger_eq]
      simp [start, mul_comm]
    exact ⟨same, kept_start rate burst first⟩
  | append_singleton calls c ih =>
    obtain ⟨same, kept⟩ := ih fun d mem => later d (List.mem_append_left _ mem)
    obtain ⟨sameRate, sameBurst⟩ := kept.sizes
    have step := (history rate burst startMs calls).ledger_call (by omega) kept.nonneg c
    rw [sameRate, sameBurst, same] at step
    have more : ideal rate burst startMs (calls ++ [c]) =
        (ideal rate burst startMs calls).request (1000 * (burst : Int)) (rate : Int) c.request := List.foldl_concat ..
    rw [history_concat, more]
    exact ⟨step, kept.call positive (later c (by simp))⟩

/-- In a run the 64 bits are enough. -/
theorem history64_eq {rate burst : Nat} {startMs : Int} {calls : List Call} {times : List Int} (positive : 1 ≤ rate)
    (fits : 1000 * (burst : Int) * (rate + 1) < 2 ^ 63) (first : startMs ∈ times)
    (later : ∀ c ∈ calls, c.time ∈ times) (near : ∀ s ∈ times, ∀ t ∈ times, s - t < 2 ^ 63) :
    history64 rate burst startMs calls = some (history rate burst startMs calls) := by
  induction calls using List.reverseRecOn with
  | nil =>
    have most := most_fits fits
    have tokens : int64 ((burst : Int) * 1000) = some _ := int64_eq (by omega) (by omega)
    simp [history64, start64, tokens, history, start]
  | append_singleton calls c ih =>
    have before : ∀ d ∈ calls, d.time ∈ times := fun d mem => later d (List.mem_append_left _ mem)
    have kept := (history_ledger burst positive first before).2
    have step := kept.call64 fits (near _ (later c (by simp)) _ kept.seen)
    have more : history64 rate burst startMs (calls ++ [c]) = (history64 rate burst startMs calls).bind (·.call64 c) := by
      simp [history64, List.foldlM_append, Option.bind_assoc]
    rw [more, ih before, Option.bind_some, step, history_concat]

theorem spent_takes (h : History) (times : Int → Prop) [DecidablePred times] :
    spent times h.ledger.paid = 1000 * (h.takes.countP fun nowMs => times nowMs : Nat) := by
  rw [History.ledger_eq]
  induction h.takes using List.reverseRecOn with
  | nil => rfl
  | append_singleton takes nowMs ih =>
    rw [List.map_append, List.map_singleton, spent_concat, ih, List.countP_append]
    by_cases counts : times nowMs
    · simp [counts]
      ring
    · simp [counts]

/-- The bucket is the ideal one in every run, and its numbers stay in 64 bits. -/
theorem token_bucket_ideal (rate burst : Nat) (positive : 1 ≤ rate) (fits : 1000 * burst * (rate + 1) < 2 ^ 63)
    (startMs : Int) (calls : List Call)
    (near : ∀ s ∈ startMs :: calls.map Call.time, ∀ t ∈ startMs :: calls.map Call.time, s - t < 2 ^ 63) :
    history64 rate burst startMs calls = some (history rate burst startMs calls) ∧
    (history rate burst startMs calls).ledger = ideal rate burst startMs calls ∧
    (0 ≤ (history rate burst startMs calls).state.tokens ∧
      (history rate burst startMs calls).state.tokens ≤ 1000 * burst) ∧
    (∀ a b : Int, a ≤ b → ((history rate burst startMs calls).takes.countP fun t => a ≤ t ∧ t ≤ b : ℚ) ≤
      burst + rate * (b - a) / 1000) ∧
    (∀ nowMs, (history rate burst startMs calls).state.last ≤ nowMs →
      ((history rate burst startMs calls).state.refill nowMs).tokens =
        min (1000 * (burst : Int)) ((history rate burst startMs calls).state.tokens +
          (nowMs - (history rate burst startMs calls).state.last) * rate)) ∧
    ∀ nowMs, nowMs < (history rate burst startMs calls).state.last →
      (history rate burst startMs calls).state.available nowMs = (false, (history rate burst startMs calls).state) ∧
      (history rate burst startMs calls).state.take nowMs = (false, (history rate burst startMs calls).state) := by
  have fits' : 1000 * (burst : Int) * (rate + 1) < 2 ^ 63 := by exact_mod_cast fits
  have first : startMs ∈ startMs :: calls.map Call.time := List.mem_cons_self
  have later : ∀ c ∈ calls, c.time ∈ startMs :: calls.map Call.time :=
    fun c mem => List.mem_cons_of_mem _ (List.mem_map_of_mem mem)
  obtain ⟨same, kept⟩ := history_ledger burst positive first later
  have runs := history64_eq positive fits' first later near
  generalize history rate burst startMs calls = h at *
  obtain ⟨sameRate, sameBurst⟩ := kept.sizes
  refine ⟨runs, same, ⟨kept.nonneg, kept.most⟩, fun a b before => ?_, fun nowMs _ => ?_, fun nowMs before => ?_⟩
  · have window := kept.sound.window a b before
    rw [spent_takes] at window
    have window' : (1000 * (h.takes.countP fun t => a ≤ t ∧ t ≤ b : Nat) : ℚ) ≤ 1000 * burst + (b - a) * rate := by
      exact_mod_cast window
    linarith
  · have tokens : (h.state.refill nowMs).tokens = _ := refill_tokens (by omega) kept.nonneg
    rw [sameRate, sameBurst] at tokens
    exact tokens
  · exact ⟨available_before before, take_before before⟩

theorem token_bucket_ideal_backwards :
    history64 128 8 0 [.take 0, .take (-5), .available 10, .take 2000] =
      some (history 128 8 0 [.take 0, .take (-5), .available 10, .take 2000]) ∧
    (history 128 8 0 [.take 0, .take (-5), .available 10, .take 2000]).takes = [0, 2000] :=
  ⟨(token_bucket_ideal 128 8 (by decide) (by decide) 0 [.take 0, .take (-5), .available 10, .take 2000]
    (by decide)).1, by decide⟩

end PunchTokenBucket

end MiniRtc.Ice
