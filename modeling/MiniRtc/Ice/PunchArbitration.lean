import MiniRtc.Ice.PunchRuns

/-! Who waits for the budget of a process. A refused request stays queued, and the next one of the
same run takes its place; a run that asks no more leaves it there. -/
namespace MiniRtc.Ice.Punch
open Wire Context

/-- A run that has something to send: a queued ACK, or an attempt that is not draining. -/
def Live (r : PunchRuntime) : Prop :=
  r.stopped = false ∧ (r.acks ≠ [] ∨ r.budget.isSome = true ∧ r.draining = false)

structure Fair (p : PunchProcessBudget) (runs : Nat → Option PunchRuntime) : Prop where
  sound : ∀ i r, runs i = some r → Sound r
  leases : ∀ i r, runs i = some r → r.lease ≠ 0 → r.lease ∈ p.active ∧ r.lease ≤ p.next
  alone : ∀ i j r s, runs i = some r → runs j = some s → r.lease ≠ 0 → r.lease = s.lease → i = j
  distinct : (p.waiting.map Waiter.id).Nodup
  owned : ∀ w ∈ p.waiting, w.id ≠ 0 ∧ ∃ i r, runs i = some r ∧ r.lease = w.id ∧ Live r

namespace Fair

variable {p p' : PunchProcessBudget} {runs : Nat → Option PunchRuntime} {run : Nat}
  {r r' : PunchRuntime}

/-- A request of a run is one of a live run. -/
theorem live_of_waits (fair : Fair p runs) (there : runs run = some r) {w : Waiter}
    (mem : w ∈ p.waiting) (own : w.id = r.lease) : Live r := by
  obtain ⟨nonzero, i, s, found, lease, live⟩ := fair.owned w mem
  have same : i = run := fair.alone i run s r found there (lease ▸ nonzero) (lease.trans own)
  subst same
  rw [there] at found
  cases found
  exact live

/-- What one run and the budget become, when the requests of the others stay. -/
theorem become (fair : Fair p runs) (there : runs run = some r) (sound : Sound r')
    (leased : r'.lease ≠ 0 → r'.lease ∈ p'.active ∧ r'.lease ≤ p'.next ∧
      (r'.lease = r.lease ∨ p.next < r'.lease))
    (others : ∀ id ∈ p.active, id ≤ p.next → id ≠ r.lease → id ∈ p'.active ∧ id ≤ p'.next)
    (distinct : (p'.waiting.map Waiter.id).Nodup)
    (waiting : ∀ w ∈ p'.waiting, w ∈ p.waiting ∧ w.id ≠ r.lease ∨
      w.id ≠ 0 ∧ w.id = r'.lease ∧ Live r') :
    Fair p' (Function.update runs run (some r')) := by
  have away : ∀ j s, j ≠ run → runs j = some s → s.lease ≠ 0 →
      s.lease ≠ r.lease ∧ s.lease ≠ r'.lease := by
    intro j s differs found nonzero
    have old : s.lease ≠ r.lease := fun same => differs (fair.alone j run s r found there nonzero same)
    refine ⟨old, fun same => ?_⟩
    obtain kept | new := (leased (same ▸ nonzero)).2.2
    · exact old (same.trans kept)
    · have bound := (fair.leases j s found nonzero).2
      omega
  refine ⟨?_, ?_, ?_, distinct, ?_⟩
  · intro i s found
    by_cases same : i = run
    · rw [same, Function.update_self] at found
      cases found
      exact sound
    · rw [Function.update_of_ne same] at found
      exact fair.sound i s found
  · intro i s found nonzero
    by_cases same : i = run
    · rw [same, Function.update_self] at found
      cases found
      exact ⟨(leased nonzero).1, (leased nonzero).2.1⟩
    · rw [Function.update_of_ne same] at found
      have before := fair.leases i s found nonzero
      exact others s.lease before.1 before.2 (away i s same found nonzero).1
  · intro i j s t first second nonzero same
    by_cases left : i = run
    · by_cases right : j = run
      · exact left.trans right.symm
      rw [left, Function.update_self] at first
      cases first
      rw [Function.update_of_ne right] at second
      exact absurd same.symm (away j t right second (same ▸ nonzero)).2
    · rw [Function.update_of_ne left] at first
      by_cases right : j = run
      · rw [right, Function.update_self] at second
        cases second
        exact absurd same (away i s left first nonzero).2
      · rw [Function.update_of_ne right] at second
        exact fair.alone i j s t first second nonzero same
  · intro w mem
    obtain ⟨old, other⟩ | ⟨nonzero, own, live⟩ := waiting w mem
    · obtain ⟨nonzero, i, s, found, lease, live⟩ := fair.owned w old
      refine ⟨nonzero, i, s, ?_, lease, live⟩
      rw [Function.update_of_ne, found]
      intro same
      rw [same, there] at found
      cases found
      exact other lease.symm
    · exact ⟨nonzero, run, r', Function.update_self .., own.symm, live⟩

/-- The budget stays, and the run has as much to send as before. -/
theorem keep (fair : Fair p runs) (there : runs run = some r) (sound : Sound r')
    (lease : r'.lease = r.lease) (live : Live r → Live r') :
    Fair p (Function.update runs run (some r')) := by
  refine fair.become there sound (fun nonzero => ?_) (fun id active bound _ => ⟨active, bound⟩)
    fair.distinct fun w mem => ?_
  · rw [lease] at nonzero ⊢
    have before := fair.leases run r there nonzero
    exact ⟨before.1, before.2, .inl rfl⟩
  · by_cases own : w.id = r.lease
    · exact .inr ⟨(fair.owned w mem).1, own.trans lease.symm, live (fair.live_of_waits there mem own)⟩
    · exact .inl ⟨mem, own⟩

theorem released (fair : Fair p runs) (there : runs run = some r) (sound : Sound r')
    (lease : r'.lease = 0) :
    Fair (if r.lease = 0 then p else p.release r.lease) (Function.update runs run (some r')) := by
  have none : ∀ {q : Prop}, r'.lease ≠ 0 → q := fun nonzero => absurd lease nonzero
  split
  · rename_i zero
    refine fair.become there sound none (fun id active bound _ => ⟨active, bound⟩) fair.distinct
      fun w mem => .inl ⟨mem, ?_⟩
    rw [zero]
    exact (fair.owned w mem).1
  · refine fair.become there sound none (fun id active bound other => ?_) ?_ fun w mem => .inl ?_
    · exact ⟨Finset.mem_erase.mpr ⟨other, active⟩, bound⟩
    · exact fair.distinct.sublist ((List.filter_sublist).map Waiter.id)
    · have kept := List.mem_filter.mp mem
      exact ⟨kept.1, of_decide_eq_true kept.2⟩

/-- A new lease is one that no run has had. -/
theorem acquired (fair : Fair p runs) (there : runs run = some r) (sound : Sound r')
    (lease : r'.lease = p.acquire.1) (idle : ¬ Live r) :
    Fair p.acquire.2 (Function.update runs run (some r')) := by
  have waiting : ∀ w ∈ p.waiting, w.id ≠ r.lease :=
    fun w mem own => idle (fair.live_of_waits there mem own)
  rw [PunchProcessBudget.acquire] at lease ⊢
  split at lease
  · rename_i full
    rw [if_pos full]
    exact fair.become there sound (fun nonzero => absurd lease nonzero)
      (fun id active bound _ => ⟨active, bound⟩) fair.distinct fun w mem => .inl ⟨mem, waiting w mem⟩
  · rename_i free
    rw [if_neg free]
    refine fair.become there sound (fun _ => ?_) (fun id active bound _ => ?_) fair.distinct
      fun w mem => .inl ⟨mem, waiting w mem⟩
    · rw [lease]
      exact ⟨Finset.mem_insert_self _ _, le_refl _, .inr (Nat.lt_succ_self _)⟩
    · exact ⟨Finset.mem_insert_of_mem active, bound.trans (Nat.le_succ _)⟩

/-- A request that is refused is queued for a run that has something to send. -/
theorem queued (fair : Fair p runs) (there : runs run = some r) (live : Live r)
    (leased : r.lease ≠ 0) {ack : Bool} {nowMs : Int} (no : (p.take r.lease ack nowMs).1 = false) :
    Fair (p.take r.lease ack nowMs).2 (Function.update runs run (some r)) := by
  have before := fair.leases run r there leased
  obtain ⟨inactive, -⟩ | ⟨bucket, next, -, -, -, taken⟩ | ⟨bucket, -, taken, -⟩ :=
    p.take_cases r.lease ack nowMs
  · exact absurd before.1 inactive
  · rw [taken] at no
    cases no
  rw [taken]
  refine fair.become there (fair.sound run r there) (fun _ => ⟨before.1, before.2, .inl rfl⟩)
    (fun id active bound _ => ⟨active, bound⟩)
    (PunchProcessBudget.request_nodup fair.distinct _ _) fun w mem => ?_
  obtain rfl | old := PunchProcessBudget.mem_request mem
  · exact .inr ⟨leased, rfl, live⟩
  · exact .inl old

/-- A request that is granted is no longer queued. -/
theorem granted (fair : Fair p runs) (there : runs run = some r) (sound : Sound r')
    (leased : r.lease ≠ 0) (lease : r'.lease = r.lease) {ack : Bool} {nowMs : Int}
    (yes : p.take r.lease ack nowMs = (true, p')) :
    Fair p' (Function.update runs run (some r')) := by
  have before := fair.leases run r there leased
  obtain ⟨-, taken⟩ | ⟨bucket, next, -, found, own, taken⟩ | ⟨bucket, -, taken, -⟩ :=
    p.take_cases r.lease ack nowMs
  · rw [taken] at yes
    cases yes
  swap
  · rw [taken] at yes
    cases yes
  rw [taken] at yes
  cases yes
  have distinct := PunchProcessBudget.request_nodup fair.distinct r.lease ack
  refine fair.become there sound (fun _ => ?_) (fun id active bound _ => ⟨active, bound⟩)
    (distinct.sublist (List.erase_sublist.map Waiter.id)) fun w mem => .inl ?_
  · rw [lease]
    exact ⟨before.1, before.2, .inl rfl⟩
  · have kept := (List.Nodup.mem_erase_iff (List.Nodup.of_map _ distinct)).mp mem
    have other : w.id ≠ r.lease := by
      intro same
      refine kept.1 (List.inj_on_of_nodup_map distinct kept.2
        (PunchProcessBudget.next?_mem found) (same.trans own.symm))
    obtain rfl | old := PunchProcessBudget.mem_request kept.2
    · exact absurd rfl other
    · exact old

variable {lib : Library} {c c' : Context}

theorem move (fair : Fair c.process (Function.update runs run (some c.runtime)))
    (move : Moves lib c c') : Fair c'.process (Function.update runs run (some c'.runtime)) := by
  have there : Function.update runs run (some c.runtime) run = some c.runtime :=
    Function.update_self ..
  have before := fair.sound run _ there
  have sound := before.move move
  have twice : ∀ r, Function.update (Function.update runs run (some c.runtime)) run (some r) =
      Function.update runs run (some r) := fun r => Function.update_idem ..
  rw [← twice]
  cases move with
  | stopped => exact fair.released there sound rfl
  | considered r first frame =>
    refine fair.keep there sound ?_ ?_
    · simp only [Context.withRuntime]
      rw [frame]
    · simp only [Context.withRuntime]
      rw [frame]
      exact id
  | leased first =>
    have none := before.first first
    refine fair.acquired there sound rfl ?_
    rintro ⟨-, acks | ⟨some, -⟩⟩
    · exact acks (before.unset none).2.1
    · exact Option.isSome_iff_ne_none.mp some none
  | started round deadlines schedule nowMs unset live later calm finish fresh ports =>
    refine fair.keep there sound rfl ?_
    rintro ⟨-, acks | ⟨some, -⟩⟩
    · exact ⟨live, .inl acks⟩
    · exact absurd unset (Option.isSome_iff_ne_none.mp some)
  | retried ports excludedPorts deadlines schedule b b' retry first budget next finish fresh sampled =>
    exact fair.keep there sound rfl fun live => ⟨live.1, .inr ⟨rfl, rfl⟩⟩
  | refilled b b' budget same =>
    refine fair.keep there sound rfl ?_
    rintro ⟨live, acks | ⟨-, undrained⟩⟩
    · exact ⟨live, .inl acks⟩
    · exact ⟨live, .inr ⟨rfl, undrained⟩⟩
  | refused ack nowMs live leased asks no =>
    refine fair.queued there ⟨live, ?_⟩ leased no
    cases ack with
    | true => exact .inl asks
    | false => exact .inr asks
  | acked _ ack rest nowMs b b' queue emitted result =>
    refine fair.granted there sound emitted.leased ?_ emitted.taken
    rw [result]
  | probed _ s index handle destination payload outstanding nowMs b b' schedule peek number aimed
      emitted result =>
    refine fair.granted there sound emitted.leased ?_ emitted.taken
    rw [result]
  | repeated sequence cached there' budget =>
    exact fair.keep there sound rfl fun live => ⟨live.1, .inl (by simp [Context.withRuntime])⟩
  | answered handle destination payload ackCache number budget cache =>
    exact fair.keep there sound rfl fun live => ⟨live.1, .inl (by simp [Context.withRuntime])⟩
  | _ => exact fair.keep there sound rfl id

theorem moves (fair : Fair c.process (Function.update runs run (some c.runtime)))
    (moves : Relation.ReflTransGen (Moves lib) c c') :
    Fair c'.process (Function.update runs run (some c'.runtime)) := by
  induction moves with
  | refl => exact fair
  | tail _ move ih => exact ih.move move

end Fair

theorem Fair.start : Fair ({} : World).process (({} : World).runtimes[·]?) := by
  have none : ∀ {i : Nat} {r : PunchRuntime}, ({} : World).runtimes[i]? ≠ some r := by
    intro i r
    simp
  refine ⟨?_, ?_, ?_, List.nodup_nil, ?_⟩
  · exact fun i r found => absurd found none
  · exact fun i r found => absurd found none
  · exact fun i j r s found => absurd found none
  · exact fun w mem => absurd mem List.not_mem_nil

/-- What a tick does not drain with an attempt. -/
theorem tickDrain_frame (c : Context) (nowMs : Int) :
    (c.tickDrain nowMs).process = c.process ∧
      (c.tickDrain nowMs).runtime.lease = c.runtime.lease ∧
      (c.tickDrain nowMs).runtime.stopped = c.runtime.stopped ∧
      (c.tickDrain nowMs).runtime.acks = c.runtime.acks ∧
      (¬ (c.runtime.draining = false ∧ attemptOver c.runtime nowMs = true) →
        (c.tickDrain nowMs).runtime.budget = c.runtime.budget ∧
          (c.tickDrain nowMs).runtime.draining = c.runtime.draining) := by
  unfold Context.tickDrain
  simp only
  split
  · rename_i done
    unfold Context.drain
    simp only
    split
    · exact ⟨rfl, rfl, rfl, rfl, fun no => absurd done no⟩
    · exact ⟨rfl, rfl, rfl, rfl, fun no => absurd done no⟩
  · exact ⟨rfl, rfl, rfl, rfl, fun _ => ⟨rfl, rfl⟩⟩

/-- A new run has no lease. -/
theorem Fair.join {p : PunchProcessBudget} {runs : Nat → Option PunchRuntime} {run : Nat}
    (fair : Fair p runs) (free : runs run = none) (purpose : Purpose) :
    Fair p (Function.update runs run (some (.new purpose))) := by
  have cases : ∀ {i : Nat} {r : PunchRuntime},
      Function.update runs run (some (.new purpose)) i = some r →
      r = .new purpose ∨ runs i = some r := by
    intro i r found
    by_cases same : i = run
    · rw [same, Function.update_self] at found
      exact .inl (Option.some.inj found).symm
    · rw [Function.update_of_ne same] at found
      exact .inr found
  refine ⟨?_, ?_, ?_, fair.distinct, ?_⟩
  · intro i r found
    obtain rfl | old := cases found
    · exact .new purpose
    · exact fair.sound i r old
  · intro i r found nonzero
    obtain rfl | old := cases found
    · exact absurd rfl nonzero
    · exact fair.leases i r old nonzero
  · intro i j r s first second nonzero same
    obtain rfl | old := cases first
    · exact absurd rfl nonzero
    obtain rfl | old' := cases second
    · exact absurd same nonzero
    · exact fair.alone i j r s old old' nonzero same
  · intro w mem
    obtain ⟨nonzero, i, r, found, rest⟩ := fair.owned w mem
    refine ⟨nonzero, i, r, ?_, rest⟩
    rw [Function.update_of_ne, found]
    rintro rfl
    rw [free] at found
    cases found

namespace World

/-- A tick that drains an attempt while a request of the run is queued and no ACK is. -/
def abandons (w : World) : Event → Bool
  | .proceed run _ =>
    w.runtimes[run]?.any fun r =>
      match r.phase with
      | .draining nowMs =>
        !r.draining && attemptOver r nowMs && r.acks.isEmpty &&
          w.process.waiting.any (·.id = r.lease)
      | _ => false
  | _ => false

variable {lib : Library} {w w' : World}

theorem runtimes_update {run : Nat} {r : PunchRuntime} (there : w.runtimes[run]? = some r)
    (c : Context) : ((w.update run c).runtimes[·]?) =
      Function.update (w.runtimes[·]?) run (some c.runtime) := by
  have inside := (List.getElem?_eq_some_iff.mp there).1
  funext i
  by_cases same : i = run
  · rw [same, Function.update_self]
    exact List.getElem?_set_self inside
  · rw [Function.update_of_ne same]
    exact List.getElem?_set_ne (Ne.symm same)

theorem runtimes_create (w : World) (r : PunchRuntime) :
    ((w.runtimes ++ [r])[·]?) = Function.update (w.runtimes[·]?) w.runtimes.length (some r) := by
  funext i
  by_cases same : i = w.runtimes.length
  · rw [same, Function.update_self]
    exact List.getElem?_concat_length
  · rw [Function.update_of_ne same, List.getElem?_append]
    split
    · rfl
    · rename_i beyond
      rw [List.getElem?_eq_none (by simp; omega), List.getElem?_eq_none (by omega)]

/-- A run in its own place. -/
theorem runtimes_self {run : Nat} {r : PunchRuntime} (there : w.runtimes[run]? = some r) :
    Function.update (w.runtimes[·]?) run (some r) = (w.runtimes[·]?) := by
  rw [← there]
  exact Function.update_eq_self run _

theorem drain_fair (lib : Library) {run : Nat} {r : PunchRuntime} {nowMs : Int}
    {answers : BurstAnswers} (fair : Fair w.process (w.runtimes[·]?))
    (there : w.runtimes[run]? = some r) (phase : r.phase = .draining nowMs)
    (kept : w.abandons (.proceed run answers) = false) :
    Fair ((w.context r).tickDrain nowMs).process
      (Function.update (w.runtimes[·]?) run (some ((w.context r).tickDrain nowMs).runtime)) := by
  have calm : r.phase ≠ .stopping := by
    rw [phase]
    exact nofun
  have before : Sound (w.context r).runtime := fair.sound run r there
  have sound := before.tickDrain lib nowMs calm
  obtain ⟨process, lease, stopped, acks, drains⟩ := tickDrain_frame (w.context r) nowMs
  rw [process]
  by_cases drained : r.draining = false ∧ attemptOver r nowMs = true ∧ r.acks = []
  · -- Nothing of the run is queued here.
    have none : ∀ waiter ∈ w.process.waiting, waiter.id ≠ r.lease := by
      intro waiter mem own
      have queued : w.process.waiting.any (·.id = r.lease) = true :=
        List.any_eq_true.mpr ⟨waiter, mem, decide_eq_true own⟩
      simp [abandons, there, phase, drained.1, drained.2.1, drained.2.2, queued] at kept
    refine fair.become there sound (fun nonzero => ?_) (fun id active bound _ => ⟨active, bound⟩)
      fair.distinct fun waiter mem => .inl ⟨mem, none waiter mem⟩
    rw [lease] at nonzero ⊢
    have old := fair.leases run r there nonzero
    exact ⟨old.1, old.2, .inl rfl⟩
  · refine fair.keep there sound lease fun live => ⟨stopped.trans live.1, ?_⟩
    by_cases some : r.acks = []
    · have still := drains fun done => drained ⟨done.1, done.2, some⟩
      obtain acked | probing := live.2
      · exact absurd some acked
      · exact .inr ⟨still.1 ▸ probing.1, still.2.trans probing.2⟩
    · exact .inl fun empty => some (acks.symm.trans empty)

theorem step_fair {e : Event} (fair : Fair w.process (w.runtimes[·]?)) (kept : w.abandons e = false)
    (moved : w.step lib e = some w') : Fair w'.process (w'.runtimes[·]?) := by
  cases e with
  | create purpose =>
    cases moved
    rw [runtimes_create]
    exact fair.join (List.getElem?_eq_none_iff.mpr (le_refl _)) purpose
  | call run call =>
    simp only [step] at moved
    split at moved
    · cases moved
    rename_i r there
    split at moved
    · rename_i idle
      cases moved
      rw [runtimes_update there]
      rw [← runtimes_self there] at fair
      refine Fair.moves ?_ (call_moves lib (w.context r) idle call)
      exact fair
    · cases moved
  | proceed run answers =>
    simp only [step] at moved
    split at moved
    · cases moved
    rename_i r there
    cases moved
    rw [runtimes_update there]
    obtain ⟨nowMs, phase, drains⟩ | moves := proceed_moves lib (w.context r) answers
    · rw [drains]
      exact drain_fair lib fair there phase kept
    · rw [← runtimes_self there] at fair
      refine Fair.moves ?_ moves
      exact fair

end World

/-- A request is one of a live run with an active lease. -/
structure Owned (w : World) (waiter : Waiter) : Prop where
  active : waiter.id ∈ w.process.active
  owner : ∃ r ∈ w.runtimes, r.lease = waiter.id ∧ Live r

/-- Runs of a process in which no tick abandons a request. -/
abbrev AttendedRuns (lib : Library) : World → Prop :=
  Runs.Reachable (· = {}) (Runs.Guarded (fun w e => w.abandons e = false)
    fun w e w' => w.step lib e = some w')

/-- As long as no request is abandoned, only live runs wait, and only they hold others up. -/
theorem waiters_are_live (lib : Library) {w : World} (reachable : AttendedRuns lib w) :
    (w.process.waiting.map Waiter.id).Nodup ∧ (∀ waiter ∈ w.process.waiting, Owned w waiter) ∧
      ∀ id ∈ w.process.active, ∀ ack nowMs, (w.process.bucket.available nowMs).1 = true →
        (w.process.take id ack nowMs).1 = false →
        ∃ other ∈ w.process.waiting, other.id ≠ id ∧
          PunchProcessBudget.next? (w.process.request id ack) = some other ∧ Owned w other := by
  have fair : Fair w.process (w.runtimes[·]?) := by
    refine @Runs.Reachable.invariant _ _ _ (fun v => Fair v.process (v.runtimes[·]?)) ?_ ?_ _ reachable
    · rintro v rfl
      exact .start
    · rintro v v' fair ⟨e, kept, moved⟩
      exact World.step_fair fair kept moved
  have owned : ∀ waiter ∈ w.process.waiting, Owned w waiter := by
    intro waiter mem
    obtain ⟨nonzero, i, r, there, lease, live⟩ := fair.owned waiter mem
    have active := (fair.leases i r there (lease ▸ nonzero)).1
    exact ⟨lease ▸ active, r, List.mem_of_getElem? there, lease, live⟩
  refine ⟨fair.distinct, owned, fun id active ack nowMs token refused => ?_⟩
  obtain ⟨inactive, -⟩ | ⟨bucket, next, -, -, -, taken⟩ | ⟨bucket, -, -, reason⟩ :=
    w.process.take_cases id ack nowMs
  · exact absurd active inactive
  · rw [taken] at refused
    cases refused
  obtain ⟨next, found, other⟩ | missing := reason
  · obtain rfl | old := PunchProcessBudget.mem_request (PunchProcessBudget.next?_mem found)
    · exact absurd rfl other
    · exact ⟨next, old.1, other, found, owned next old.1⟩
  · exact absurd (token.symm.trans missing) Bool.true_eq_false.mp

/-- The second of two runs finds no token left, and comes first when there is one again. -/
def waitingEvents : List Event :=
  trialStart 0 ++ trialStart 1 ++ trialBurst 0 200 10 ++ trialBurst 1 200 2

theorem waiters_are_live_two : ∃ w : World, ∃ other ∈ w.process.waiting, other.id ≠ 1 ∧
    PunchProcessBudget.next? (w.process.request 1 false) = some other ∧ Owned w other := by
  have ran : ((Runs.run (fun w e => w.abandons e = false) (World.step trialLibrary) {}
      waitingEvents).any fun w => decide (1 ∈ w.process.active) &&
        (w.process.bucket.available 210).1 && !(w.process.take 1 false 210).1) = true := by
    decide +kernel
  obtain ⟨w, run, checks⟩ := (Option.any_eq_true _ _).mp ran
  simp only [Bool.and_eq_true, decide_eq_true_eq, Bool.not_eq_true'] at checks
  have reachable : AttendedRuns trialLibrary w :=
    Runs.Reachable.run _ _ waitingEvents (.start rfl) run
  exact ⟨w, (waiters_are_live trialLibrary reachable).2.2 1 checks.1.1 false 210 checks.1.2 checks.2⟩

/-- Then its attempt is over before it has asked again. -/
def abandonedEvents : List Event := waitingEvents ++ trialBurst 1 2130 1

/-- The first run is refused for one that has nothing to send. -/
theorem idle_lease_blocks : ∃ w, PunchRuns trialLibrary {} w ∧ 1 ∈ w.process.active ∧
    (∃ waiter ∈ w.process.waiting, ¬ Owned w waiter) ∧
    (w.process.bucket.available 2200).1 = true ∧ (w.process.take 1 false 2200).1 = false ∧
    ¬ ∃ other ∈ w.process.waiting, other.id ≠ 1 ∧ Owned w other := by
  have ran : ((Runs.run (fun _ _ => True) (World.step trialLibrary) {} abandonedEvents).any fun w =>
      decide (1 ∈ w.process.active) && decide (w.process.waiting = [⟨2, false⟩]) &&
        (w.runtimes.all fun r => decide (r.lease ≠ 2) || r.acks.isEmpty && r.draining) &&
        (w.process.bucket.available 2200).1 && !(w.process.take 1 false 2200).1) = true := by
    decide +kernel
  obtain ⟨w, run, checks⟩ := (Option.any_eq_true _ _).mp ran
  simp only [Bool.and_eq_true, decide_eq_true_eq, Bool.not_eq_true', List.all_eq_true,
    Bool.or_eq_true, List.isEmpty_iff] at checks
  obtain ⟨⟨⟨⟨active, waiting⟩, idle⟩, token⟩, refused⟩ := checks
  have dead : ¬ Owned w ⟨2, false⟩ := by
    rintro ⟨-, r, mem, lease, live⟩
    obtain other | ⟨acks, draining⟩ := idle r mem
    · exact other lease
    obtain queued | probing := live.2
    · exact queued acks
    · exact Bool.false_ne_true (probing.2.symm.trans draining)
  refine ⟨w, Runs.Reachable.run _ _ abandonedEvents (.start rfl) run, active, ?_, token, refused, ?_⟩
  · rw [waiting]
    exact ⟨_, List.mem_singleton_self _, dead⟩
  · rw [waiting]
    rintro ⟨other, mem, -, owned⟩
    rw [List.mem_singleton.mp mem] at owned
    exact dead owned

end MiniRtc.Ice.Punch
