import MiniRtc.Ice.PunchRuntime

/-! What a call can do to a run. Every call is a chain of a few kinds of moves, each with what the
code has checked before it; draining an attempt is a step of its own. -/
namespace MiniRtc.Ice.Punch
open Wire Context

/-- Preparation has begun. -/
def NegotiationState.later : NegotiationState → Bool
  | .allocating | .preparing | .ready | .probing => true
  | _ => false

namespace Context

/-- What `Stop` does besides the negotiation. -/
def released (c : Context) : Context where
  process := if c.runtime.lease = 0 then c.process else c.process.release c.runtime.lease
  runtime := { c.runtime with
    stopped := true
    lease := 0
    acks := []
    ackCache := SortedMap.empty
    outstanding := []
    schedule := none }

end Context

/-- What is checked before a packet is sent, and what the budgets grant for it. -/
structure Emitted (c c' : Context) (bytes : Bytes) (nowMs : Int) (ack : Bool)
    (b b' : PunchProbeBudget) : Prop where
  live : c.runtime.stopped = false
  leased : c.runtime.lease ≠ 0
  filled : bytes ≠ []
  early : nowMs < c.runtime.deadlines.finish
  probing : ack = false → c.runtime.draining = false ∧ nowMs < c.runtime.deadlines.probe
  budget : c.runtime.budget = some b
  granted : PunchProbeBudget.Granted b b' ack
  taken : c.process.take c.runtime.lease ack nowMs = (true, c'.process)

inductive Moves (lib : Library) : Context → Context → Prop where
  | negotiated (c : Context) (n : PunchNegotiation)
      (later : n.state.later = true → c.runtime.negotiation.state.later = true) :
      Moves lib c (c.withNegotiation n)
  | greeted (c : Context) (remoteSnapshotDeadline : Int) :
      Moves lib c (c.withRuntime { c.runtime with remoteSnapshotDeadline })
  | phased (c : Context) (phase : Phase)
      (calm : c.runtime.phase = .stopping → c.runtime.stopped = true) :
      Moves lib c (c.inPhase phase)
  | stopped (c : Context) : Moves lib c c.released
  | considered (c : Context) (r : PunchRuntime) (first : c.runtime.prepareSocketCount = 0)
      (frame : r = { c.runtime with
        pool := r.pool
        anchor := r.anchor
        peerIp := r.peerIp
        excludedPorts := r.excludedPorts
        round := r.round
        agreed := r.agreed
        preparedPorts := r.preparedPorts
        ports := r.ports }) :
      Moves lib c (c.withRuntime r)
  | leased (c : Context) (first : c.runtime.prepareSocketCount = 0) :
      Moves lib c ⟨c.process.acquire.2, { c.runtime with lease := c.process.acquire.1 }⟩
  | declined (c : Context) (negotiation : PunchNegotiation) :
      Moves lib c (c.withRuntime { c.runtime with negotiation, phase := .stopping })
  | prepared (c : Context) (negotiation : PunchNegotiation) (prepareSocketCount : Nat)
      (first : c.runtime.prepareSocketCount = 0) (some : prepareSocketCount ≠ 0)
      (ports : c.runtime.pool = false → c.runtime.ports.Nodup ∧
        (∀ port ∈ c.runtime.ports, port ∉ c.runtime.preparedPorts) ∧
        c.runtime.excludedPorts = c.runtime.preparedPorts ∪ c.runtime.ports.toFinset) :
      Moves lib c (c.withRuntime { c.runtime with negotiation, prepareSocketCount })
  | opened (c : Context) (more : List Endpoint) :
      Moves lib c (c.withRuntime { c.runtime with endpoints := c.runtime.endpoints ++ more })
  | dated (c : Context) (round : Id) (deadlines : PunchDeadlines) (unset : c.runtime.budget = none) :
      Moves lib c (c.withRuntime { c.runtime with round, deadlines })
  | started (c : Context) (round : Id) (deadlines : PunchDeadlines) (schedule : PunchRoundRobin)
      (nowMs : Int) (unset : c.runtime.budget = none) (live : c.runtime.stopped = false)
      (later : c.runtime.negotiation.state.later = true) (calm : c.runtime.phase ≠ .stopping)
      (finish : deadlines.finish ≤ c.runtime.originalDeadline)
      (fresh : schedule.index = 0 ∧ schedule.round = 0)
      (ports : c.runtime.pool = false →
        schedule.count = c.runtime.ports.length ∧ schedule.rounds = 1) :
      Moves lib c (c.withRuntime { c.runtime with
        round
        deadlines
        attempt := 1
        attempts := [deadlines]
        budget := some (.start c.runtime.agreed nowMs c.runtime.retryEnabled kAckReserve)
        schedule := some schedule })
  | resampled (c : Context) (ports : List Nat) (excludedPorts : Finset Nat) (b : PunchProbeBudget)
      (retry : c.runtime.retryEnabled = true) (first : c.runtime.attempt = 1)
      (budget : c.runtime.budget = some b) (last : b.nextAttempt = none) :
      Moves lib c (c.withRuntime { c.runtime with ports, excludedPorts })
  | retried (c : Context) (ports : List Nat) (excludedPorts : Finset Nat)
      (deadlines : PunchDeadlines) (schedule : PunchRoundRobin) (b b' : PunchProbeBudget)
      (retry : c.runtime.retryEnabled = true) (first : c.runtime.attempt = 1)
      (budget : c.runtime.budget = some b) (next : b.nextAttempt = some b')
      (finish : deadlines.finish ≤ c.runtime.originalDeadline)
      (fresh : schedule.index = 0 ∧ schedule.round = 0)
      (sampled : c.runtime.pool = false → ports.Nodup ∧
        (∀ port ∈ ports, port ∉ c.runtime.excludedPorts) ∧
        excludedPorts = c.runtime.excludedPorts ∪ ports.toFinset ∧
        schedule.count = ports.length ∧ schedule.rounds = 1) :
      Moves lib c (c.withRuntime { c.runtime with
        ports
        excludedPorts
        budget := some b'
        attempt := c.runtime.attempt + 1
        deadlines
        attempts := c.runtime.attempts ++ [deadlines]
        draining := false
        schedule := some schedule })
  | refilled (c : Context) (b b' : PunchProbeBudget) (budget : c.runtime.budget = some b)
      (same : PunchProbeBudget.Refilled b b') :
      Moves lib c (c.withRuntime { c.runtime with budget := some b' })
  | refused (c : Context) (ack : Bool) (nowMs : Int) (live : c.runtime.stopped = false)
      (leased : c.runtime.lease ≠ 0) (asks : if ack then c.runtime.acks ≠ []
        else c.runtime.budget.isSome = true ∧ c.runtime.draining = false)
      (no : (c.process.take c.runtime.lease ack nowMs).1 = false) :
      Moves lib c ⟨(c.process.take c.runtime.lease ack nowMs).2, c.runtime⟩
  | acked (c c' : Context) (ack : Ack) (rest : List Ack) (nowMs : Int) (b b' : PunchProbeBudget)
      (queue : c.runtime.acks = ack :: rest) (emitted : Emitted c c' ack.bytes nowMs true b b')
      (result : c'.runtime = { c.runtime with
        budget := some b'
        taken := c.runtime.taken + 1
        sent := c.runtime.sent ++ [⟨c.runtime.attempt, c.runtime.draining, true, ack.handle,
          ack.destination, ack.bytes, nowMs⟩]
        acks := rest }) :
      Moves lib c c'
  | probed (c c' : Context) (s : PunchRoundRobin) (index handle : Nat) (destination : NiceAddress)
      (payload : Bytes) (outstanding : List (Block 12 × Outstanding)) (nowMs : Int)
      (b b' : PunchProbeBudget) (schedule : c.runtime.schedule = some s)
      (peek : s.peek nowMs = some index) (number : c.runtime.sequence ≠ 0)
      (aimed : c.runtime.pool = false → destination.port = c.runtime.ports.getD index 0)
      (emitted : Emitted c c' (c.encodeProbe lib .probe payload) nowMs false b b')
      (result : c'.runtime = { c.runtime with
        budget := some b'
        taken := c.runtime.taken + 1
        sent := c.runtime.sent ++ [⟨c.runtime.attempt, c.runtime.draining, false, handle,
          destination, c.encodeProbe lib .probe payload, nowMs⟩]
        sequence := c.runtime.sequence + 1
        issued := c.runtime.issued ++ [c.encodeProbe lib .probe payload]
        outstanding
        schedule := some (s.commit nowMs) }) :
      Moves lib c c'
  | passed (c : Context) (nowMs : Int) : Moves lib c (c.withSchedule nowMs)
  | promoted (c : Context) (endpoint : Endpoint) (pool : c.runtime.pool = true)
      (there : c.runtime.endpoints.find? (·.id = endpoint.id) = some endpoint)
      (new : endpoint.promoted = false)
      (room : c.runtime.promoted < c.runtime.agreed.promotedEndpointLimit)
      (budget : c.runtime.budget.isSome = true) :
      Moves lib c (c.withRuntime { c.runtime with
        endpoints := markPromoted endpoint.id c.runtime.endpoints
        promoted := c.runtime.promoted + 1
        promotions := c.runtime.promotions ++ [endpoint.id] })
  | received (c : Context) (probeReplay : ReplayWindow)
      (outstanding : List (Block 12 × Outstanding)) :
      Moves lib c (c.withRuntime { c.runtime with probeReplay, outstanding })
  | repeated (c : Context) (sequence : Nat) (cached : Ack)
      (there : c.runtime.ackCache.find sequence = some cached)
      (budget : c.runtime.budget.isSome = true) :
      Moves lib c (c.withRuntime { c.runtime with acks := c.runtime.acks ++ [cached] })
  | answered (c : Context) (handle : Nat) (destination : NiceAddress) (payload : Bytes)
      (ackCache : SortedMap Nat Ack) (number : c.runtime.sequence ≠ 0)
      (budget : c.runtime.budget.isSome = true)
      (cache : ∀ e ∈ ackCache.entries, e ∈ c.runtime.ackCache.entries ∨
        e.2 = ⟨handle, destination, c.encodeProbe lib .ack payload⟩) :
      Moves lib c (c.withRuntime { c.runtime with
        sequence := c.runtime.sequence + 1
        issued := c.runtime.issued ++ [c.encodeProbe lib .ack payload]
        ackCache
        acks := c.runtime.acks ++ [⟨handle, destination, c.encodeProbe lib .ack payload⟩] })

/-- Moves that leave the phase as it is. -/
def Quiet (lib : Library) (c c' : Context) : Prop :=
  Relation.ReflTransGen (Moves lib) c c' ∧ c'.runtime.phase = c.runtime.phase

section Negotiation

variable {lib : Library} {c c' c'' : Context}

theorem Quiet.refl (c : Context) : Quiet lib c c := ⟨.refl, rfl⟩

theorem Quiet.trans (first : Quiet lib c c') (second : Quiet lib c' c'') : Quiet lib c c'' :=
  ⟨first.1.trans second.1, second.2.trans first.2⟩

theorem Quiet.move (move : Moves lib c c') (same : c'.runtime.phase = c.runtime.phase) :
    Quiet lib c c' :=
  ⟨.single move, same⟩

theorem Quiet.negotiated (n : PunchNegotiation)
    (later : n.state.later = true → c.runtime.negotiation.state.later = true) :
    Quiet lib c (c.withNegotiation n) :=
  .move (.negotiated c n later) rfl

variable (lib) in
/-- Only a sequence number is given up. -/
theorem make_eq (c : Context) (kind : Kind) (value : Json) :
    ∃ nextSequence, (c.make lib kind value).2 =
      c.withNegotiation { c.runtime.negotiation with nextSequence } := by
  unfold Context.make
  simp only
  split
  · exact ⟨c.runtime.negotiation.nextSequence, rfl⟩
  · exact ⟨_, rfl⟩

variable (lib) in
theorem halt_eq (c : Context) (reason : String) (notify : Bool) :
    ∃ n, c.halt lib reason notify = c.withNegotiation n ∧
      (n.state.later = true → c.runtime.negotiation.state.later = true) := by
  unfold Context.halt
  simp only
  split
  · exact ⟨c.runtime.negotiation, rfl, id⟩
  obtain ⟨nextSequence, made⟩ :=
    make_eq lib c .cancel (.object [("reason", .string reason)])
  split
  · simp only [made]
    split
    · exact ⟨_, rfl, Bool.false_ne_true.elim⟩
    · exact ⟨_, rfl, Bool.false_ne_true.elim⟩
  · exact ⟨_, rfl, Bool.false_ne_true.elim⟩

theorem Quiet.stop (c : Context) (reason : String) (notify : Bool) :
    Quiet lib c (c.stop lib reason notify) := by
  unfold Context.stop
  split
  · exact .refl c
  · obtain ⟨n, halted, later⟩ := halt_eq lib c reason notify
    rw [halted]
    exact (Quiet.negotiated n later).trans (.move (.stopped _) rfl)

theorem Quiet.emitControl (c : Context) (bytes : Bytes) :
    Quiet lib c (c.emitControl lib bytes).2 := by
  unfold Context.emitControl
  simp only
  split
  · exact .refl c
  split
  · exact .stop c _ _
  · exact .negotiated _ id

theorem Quiet.setPending (c : Context) (kind : Kind) (bytes : Bytes) (nowMs : Int) :
    Quiet lib c (c.setPending lib kind bytes nowMs) := by
  unfold Context.setPending
  refine Quiet.trans ?_ (Quiet.emitControl _ bytes)
  exact Quiet.negotiated _ id

theorem Quiet.make (c : Context) (kind : Kind) (value : Json) :
    Quiet lib c (c.make lib kind value).2 := by
  obtain ⟨nextSequence, made⟩ := make_eq lib c kind value
  rw [made]
  exact .negotiated _ id

theorem Quiet.startProbing (c : Context) (round : Id) (nowMs : Int) (answers : StartAnswers)
    (later : c.runtime.negotiation.state.later = true) (calm : c.runtime.phase ≠ .stopping) :
    Quiet lib c (c.startProbing lib round nowMs answers) := by
  unfold Context.startProbing
  simp only
  split
  · exact .refl c
  rename_i unopened
  split
  · exact .stop c _ _
  rw [not_or, Bool.not_eq_true, Option.isSome_iff_ne_none, not_not] at unopened
  split
  · exact (Quiet.move (.dated c round _ unopened.2) rfl).trans (.stop _ _ _)
  · rename_i some
    refine .move (.started c round _ _ nowMs unopened.2 unopened.1 later calm
      (makePunchDeadlines_finish some) ⟨rfl, rfl⟩ fun anchor => ?_) rfl
    simp [anchor]

theorem Quiet.start (c : Context) (nowMs : Int) (answers : StartAnswers)
    (later : c.runtime.negotiation.state.later = true) (calm : c.runtime.phase ≠ .stopping) :
    Quiet lib c (c.start lib nowMs answers) := by
  unfold Context.start
  simp only
  split
  · exact .refl c
  · exact (Quiet.negotiated _ fun _ => later).trans (.startProbing _ _ _ _ rfl calm)

/-- The sockets of a batch come behind the ones there are. -/
theorem openSockets_append (count left : Nat) (endpoints : List Endpoint)
    (opens : List (Nat × NiceAddress × Bool)) :
    ∃ more, (openSockets count left endpoints opens).2 = endpoints ++ more := by
  fun_induction openSockets count left endpoints opens with
  | case1 => exact ⟨[], (List.append_nil _).symm⟩
  | case2 => exact ⟨[], (List.append_nil _).symm⟩
  | case3 => exact ⟨_, rfl⟩
  | case4 left endpoints id bound timeUp opens _ _ _ ih =>
    obtain ⟨more, appended⟩ := ih
    exact ⟨⟨id, bound, false⟩ :: more, by rw [appended, List.append_assoc, List.singleton_append]⟩
  | case5 => exact ⟨[], (List.append_nil _).symm⟩

theorem prepareBatch_cases (c : Context) (answers : BatchAnswers) :
    ∃ more, (c.prepareBatch answers).2 =
      c.withRuntime { c.runtime with endpoints := c.runtime.endpoints ++ more } := by
  have none : c = c.withRuntime { c.runtime with endpoints := c.runtime.endpoints ++ [] } := by
    rw [List.append_nil]
    rfl
  obtain ⟨more, appended⟩ :=
    openSockets_append c.runtime.prepareSocketCount 8 c.runtime.endpoints answers.opens
  unfold Context.prepareBatch
  simp only
  split
  · exact ⟨[], none⟩
  split
  · exact ⟨[], none⟩
  split
  · exact ⟨[], none⟩
  refine ⟨more, ?_⟩
  split
  · simp only [appended]
  split
  · simp only [appended]
  split
  · simp only [appended]
  · simp only [appended]

theorem Quiet.prepareBatch (c : Context) (answers : BatchAnswers) :
    Quiet lib c (c.prepareBatch answers).2 := by
  obtain ⟨more, batch⟩ := prepareBatch_cases c answers
  rw [batch]
  exact .move (.opened c more) rfl

theorem Quiet.finishPreparation (c : Context) (nowMs : Int) :
    Quiet lib c (c.finishPreparation lib nowMs) := by
  unfold Context.finishPreparation
  simp only
  split
  · exact .refl c
  rename_i allocating
  have later : c.runtime.negotiation.state.later = true := by
    rw [not_not.mp allocating]
    rfl
  refine (Quiet.negotiated { c.runtime.negotiation with
    digest := lib.digest (lib.controlPayload .prepare c.runtime.negotiation.plan) } id).trans ?_
  split
  · refine Quiet.trans ?_ (.setPending _ _ _ _)
    refine Quiet.trans ?_ (.emitControl _ _)
    obtain ⟨nextSequence, made⟩ := make_eq lib (c.withNegotiation
      { c.runtime.negotiation with
        digest := lib.digest (lib.controlPayload .prepare c.runtime.negotiation.plan) })
      .prepare c.runtime.negotiation.plan
    rw [made]
    exact .negotiated _ fun _ => later
  · refine Quiet.trans ?_ (.setPending _ _ _ _)
    refine (Quiet.make _ _ _).trans (Quiet.negotiated _ fun _ => ?_)
    obtain ⟨nextSequence, made⟩ := make_eq lib (c.withNegotiation
      { c.runtime.negotiation with
        digest := lib.digest (lib.controlPayload .prepare c.runtime.negotiation.plan) })
      .ready _
    rw [made]
    exact later

theorem Quiet.tickNegotiation (c : Context) (nowMs : Int) (answers : BatchAnswers) :
    Quiet lib c (c.tickNegotiation lib nowMs answers) := by
  unfold Context.tickNegotiation
  simp only
  split
  · exact .refl c
  split
  · exact .stop c _ _
  split
  · split
    · exact (Quiet.prepareBatch c answers).trans (.stop _ _ _)
    · exact (Quiet.prepareBatch c answers).trans (.finishPreparation _ _)
    · exact .prepareBatch c answers
  split
  · exact .refl c
  split
  · split
    · exact .negotiated _ id
    · exact .stop c _ _
  have hello : Quiet lib c (if c.runtime.negotiation.pendingKind = .prepare then
      c.emitControl lib c.runtime.negotiation.hello else (true, c)).2 := by
    split
    · exact .emitControl c _
    · exact .refl c
  generalize (if c.runtime.negotiation.pendingKind = .prepare then
    c.emitControl lib c.runtime.negotiation.hello else (true, c)) = first at hello ⊢
  split
  · exact hello
  split
  · exact hello.trans (.emitControl _ _)
  · exact (hello.trans (.emitControl _ _)).trans (.negotiated _ id)

theorem allocate_moves {c : Context} (n : PunchNegotiation) (random : PunchRandom)
    (first : c.runtime.prepareSocketCount = 0) (sockets : c.runtime.agreed.sockets ≠ 0) :
    Relation.ReflTransGen (Moves lib) c
      (if ((c.withNegotiation n).allocate random).1 then ((c.withNegotiation n).allocate random).2
      else ((c.withNegotiation n).allocate random).2.inPhase .stopping) := by
  generalize result : (c.withNegotiation n).allocate random = allocated
  have leased : Relation.ReflTransGen (Moves lib) c
      ⟨c.process.acquire.2, { c.runtime with
        lease := c.process.acquire.1
        preparedPorts := c.runtime.excludedPorts }⟩ :=
    (Relation.ReflTransGen.single (.leased c first)).tail (.considered _ _ (by exact first) rfl)
  unfold Context.allocate at result
  simp only at result
  split at result
  · subst result
    exact leased.tail (.declined _ n)
  split at result
  · rename_i pool
    subst result
    refine leased.tail (.prepared _ n _ (by exact first) sockets fun anchor => ?_)
    exact absurd (anchor.symm.trans pool) Bool.false_ne_true
  generalize sampled : samplePunchPorts _ _ random = ports at result
  have sampling : Relation.ReflTransGen (Moves lib) c
      ⟨c.process.acquire.2, { c.runtime with
        lease := c.process.acquire.1
        preparedPorts := c.runtime.excludedPorts
        ports }⟩ :=
    leased.tail (.considered _ _ (by exact first) rfl)
  split at result
  · subst result
    exact sampling.tail (.declined _ n)
  · subst result
    have spread := samplePunchPorts_spec (min c.runtime.agreed.targetPortCount
      (PunchProbeBudget.ProbeLimit c.runtime.agreed kAckReserve)) c.runtime.excludedPorts random
    have union : Moves lib
        ⟨c.process.acquire.2, { c.runtime with
          lease := c.process.acquire.1
          preparedPorts := c.runtime.excludedPorts
          ports }⟩
        ⟨c.process.acquire.2, { c.runtime with
          lease := c.process.acquire.1
          preparedPorts := c.runtime.excludedPorts
          ports
          excludedPorts := c.runtime.excludedPorts ∪ ports.toFinset }⟩ :=
      .considered _ _ (by exact first) rfl
    refine (sampling.tail union).tail (.prepared _ n 1 (by exact first) Nat.one_ne_zero fun _ => ?_)
    rw [← sampled]
    exact ⟨spread.1, spread.2, rfl⟩

/-- What a preparation does to a run whose negotiation has just become this one. -/
theorem prepare_moves (c : Context) (n : PunchNegotiation) (plan : Json) (answers : PrepareAnswers) :
    Relation.ReflTransGen (Moves lib) c
      (if ((c.withNegotiation n).prepare plan answers).1 then
        ((c.withNegotiation n).prepare plan answers).2
      else ((c.withNegotiation n).prepare plan answers).2.inPhase .stopping) := by
  generalize result : (c.withNegotiation n).prepare plan answers = prepared
  unfold Context.prepare at result
  simp only at result
  split at result
  · subst result
    exact .single (.declined c n)
  rename_i first
  simp only [not_or, not_not] at first
  generalize known : (answers.candidates.filter fun candidate =>
    !candidate.relayed && candidate.udp) = candidates at result
  split at result
  · subst result
    exact .single (.declined c n)
  split at result
  · subst result
    have aimed : Moves lib c (c.withRuntime (aim c.runtime plan candidates)) :=
      .considered c _ first.2.1 rfl
    exact (Relation.ReflTransGen.single aimed).tail (.declined _ n)
  have agreed : Moves lib c (c.withRuntime { aim c.runtime plan candidates with
      round := n.round
      agreed := agreedConfig c.runtime.agreed plan }) :=
    .considered c _ first.2.1 rfl
  split at result
  · subst result
    exact (Relation.ReflTransGen.single agreed).tail (.declined _ n)
  rename_i valid
  subst result
  refine (Relation.ReflTransGen.single agreed).trans (allocate_moves n answers.random first.2.1 ?_)
  exact PunchConfig.sockets_ne_zero (Bool.eq_true_of_not_eq_false (not_or.mp valid).1)

section Receiving

variable (c : Context) (packet : Packet) (value : Json) (nowMs : Int) (answers : ControlAnswers)

theorem beginPreparation_moves (answers : PrepareAnswers) :
    Relation.ReflTransGen (Moves lib) c (c.beginPreparation answers) :=
  prepare_moves c _ _ answers

theorem receiveHello_moves :
    Relation.ReflTransGen (Moves lib) c (c.receiveHello lib packet value nowMs answers) := by
  unfold Context.receiveHello
  simp only
  split
  · split
    · exact (Quiet.stop c _ _).1
    split
    · exact ((Quiet.emitControl c _).trans (.emitControl _ _)).1
    · exact .refl
  have greeted : Quiet lib c ((c.withNegotiation { c.runtime.negotiation with
      remoteHello := value
      remoteHelloPayload := packet.payload }).remoteHello value nowMs) :=
    (Quiet.negotiated _ (by exact id)).trans (.move (.greeted _ _) rfl)
  split
  · exact (greeted.trans (.emitControl _ _)).1
  split
  · exact (greeted.trans (.stop _ _ _)).1
  rename_i proposal _
  split
  · exact (greeted.trans (.stop _ _ _)).1
  split
  · exact ((greeted.trans (.negotiated _ (by exact id))).trans (.stop _ _ _)).1
  rename_i round _
  split
  · exact (((greeted.trans (.negotiated _ (by exact id))).trans (.negotiated _ (by exact id))).trans (.stop _ _ _)).1
  · exact ((greeted.trans (.negotiated _ (by exact id))).trans (.negotiated _ (by exact id))).1.trans
      (beginPreparation_moves _ _)

theorem receivePrepare_moves :
    Relation.ReflTransGen (Moves lib) c (c.receivePrepare lib packet value answers) := by
  unfold Context.receivePrepare
  simp only
  split
  · split
    · exact (Quiet.stop c _ _).1
    split
    · exact (Quiet.emitControl c _).1
    · exact .refl
  split
  · exact .refl
  split
  · exact .refl
  split
  · exact .refl
  · exact (Quiet.negotiated _ (by exact id)).1.trans (beginPreparation_moves _ _)

theorem receiveReady_moves (calm : c.runtime.phase ≠ .stopping) :
    Relation.ReflTransGen (Moves lib) c (c.receiveReady lib value nowMs answers) := by
  unfold Context.receiveReady
  simp only
  split
  · exact .refl
  split
  · rename_i preparing
    obtain ⟨nextSequence, made⟩ := make_eq lib c .start
      (.object [("digest", .string c.runtime.negotiation.digest)])
    generalize c.make lib .start _ = result at made ⊢
    obtain ⟨bytes, c'⟩ := result
    subst made
    have later : c.runtime.negotiation.state.later = true := by
      rw [preparing]
      rfl
    refine (Quiet.trans ?_ (.setPending _ _ _ _)).1
    refine (Quiet.negotiated _ (by exact id)).trans ?_
    exact (Quiet.negotiated _ (by exact id)).trans (.start _ _ _ later calm)
  split
  · exact (Quiet.emitControl c _).1
  · exact .refl

theorem receiveStart_moves (calm : c.runtime.phase ≠ .stopping) :
    Relation.ReflTransGen (Moves lib) c (c.receiveStart lib value nowMs answers) := by
  unfold Context.receiveStart
  simp only
  split
  · exact .refl
  split
  · rename_i ready
    have later : c.runtime.negotiation.state.later = true := by
      rw [ready]
      rfl
    obtain ⟨nextSequence, made⟩ := make_eq lib
      (c.withNegotiation { c.runtime.negotiation with pending := [] }) .started
      (.object [("digest", .string c.runtime.negotiation.digest)])
    generalize Context.make lib (c.withNegotiation _) .started _ = result at made ⊢
    obtain ⟨bytes, c'⟩ := result
    subst made
    refine (Quiet.trans ?_ (.emitControl _ _)).1
    refine (Quiet.negotiated _ (by exact id)).trans ?_
    exact (Quiet.negotiated _ (by exact id)).trans (.start _ _ _ later calm)
  split
  · exact (Quiet.emitControl c _).1
  · exact .refl

theorem receiveControl_moves (duplicate : Bool) (calm : c.runtime.phase ≠ .stopping) :
    Relation.ReflTransGen (Moves lib) c
      (c.receiveControl lib packet value duplicate nowMs answers) := by
  unfold Context.receiveControl
  simp only
  split
  · exact receiveHello_moves c packet value nowMs answers
  split
  · exact receivePrepare_moves c packet value answers
  split
  · exact receiveReady_moves c value nowMs answers calm
  split
  · exact receiveStart_moves c value nowMs answers calm
  split
  · exact (Quiet.negotiated _ (by exact id)).1
  split
  · exact (Quiet.stop c _ _).1
  · exact .refl

theorem control_moves (data : Bytes) (calm : c.runtime.phase ≠ .stopping) :
    Relation.ReflTransGen (Moves lib) c (c.control lib data nowMs answers) := by
  unfold Context.control
  split
  · exact .refl
  unfold Context.receive
  simp only
  split
  · exact .refl
  split
  · exact (Quiet.stop c _ _).1
  split
  · exact .refl
  split
  · exact .refl
  have replayed : ∀ window, Quiet lib c
      (c.withNegotiation { c.runtime.negotiation with replay := window }) :=
    fun window => .negotiated _ id
  split
  · exact (replayed _).1
  split
  · exact ((replayed _).trans (.stop _ _ _)).1
  split
  · exact (replayed _).1
  · exact (replayed _).1.trans (receiveControl_moves _ _ _ _ _ _ calm)

theorem begin_moves (hello : Option Json) :
    Relation.ReflTransGen (Moves lib) c (c.begin lib hello nowMs) := by
  unfold Context.begin
  split
  · exact (Quiet.stop c _ _).1
  simp only
  split
  · exact .refl
  · refine Relation.ReflTransGen.trans ?_ (Quiet.setPending _ _ _ _).1
    refine Relation.ReflTransGen.trans ?_ (Quiet.negotiated _ (by exact id)).1
    refine Relation.ReflTransGen.trans ?_ (Quiet.make _ _ _).1
    exact (Quiet.negotiated _ Bool.false_ne_true.elim).1

end Receiving

end Negotiation

/-! ### Ticks and packets -/

section Probing

variable {lib : Library} {c : Context}

theorem retryPorts_spec {r : PunchRuntime} {random : PunchRandom} {ports : List Nat}
    (sampled : retryPorts r random = some ports) (anchor : r.pool = false) :
    r.budget.isSome = true ∧ ports.Nodup ∧ ∀ port ∈ ports, port ∉ r.excludedPorts := by
  unfold retryPorts at sampled
  rw [if_neg (by simp [anchor])] at sampled
  split at sampled
  · cases sampled
  rename_i b budget
  simp only at sampled
  split at sampled
  · cases sampled
  · cases sampled
    exact ⟨by rw [budget]; rfl, samplePunchPorts_spec _ _ _⟩

theorem Quiet.startRetry (nowMs : Int) (answers : TickAnswers) :
    Quiet lib c (c.startRetry lib nowMs answers).2 := by
  unfold Context.startRetry
  simp only
  split
  · exact .refl c
  rename_i first
  simp only [not_or, Bool.not_eq_false, not_not] at first
  split
  · exact .refl c
  split
  · exact .stop c _ _
  split
  · exact .refl c
  rename_i some
  split
  · exact .refl c
  rename_i ports sampled
  by_cases side : c.runtime.pool = true
  · simp only [if_pos side]
    split
    · exact .refl c
    · rename_i b' next
      obtain ⟨b, budget, next⟩ := Option.bind_eq_some_iff.mp next
      refine .move (.retried c c.runtime.ports c.runtime.excludedPorts _ _ b b' first.1 first.2 budget
        next (makePunchDeadlines_finish some) ⟨rfl, rfl⟩ fun anchor => ?_) rfl
      exact absurd (anchor.symm.trans side) Bool.false_ne_true
  · obtain ⟨given, spread⟩ := retryPorts_spec sampled (Bool.eq_false_of_not_eq_true side)
    obtain ⟨b, budget⟩ := Option.isSome_iff_exists.mp given
    simp only [if_neg side]
    split
    · rename_i last
      refine .move (.resampled c ports _ b first.1 first.2 budget ?_) rfl
      rw [budget] at last
      exact last
    · rename_i b' next
      simp only [budget, Option.bind_some] at next
      exact .move (.retried c ports _ _ _ b b' first.1 first.2 budget next
        (makePunchDeadlines_finish some) ⟨rfl, rfl⟩
        fun _ => ⟨spread.1, spread.2, rfl, rfl, rfl⟩) rfl

theorem tick_moves (nowMs : Int) (answers : TickAnswers) (calm : c.runtime.phase ≠ .stopping) :
    Relation.ReflTransGen (Moves lib) c (c.tick lib nowMs answers) := by
  unfold Context.tick
  simp only
  split
  · exact .refl
  split
  · exact (Quiet.stop c _ _).1
  split
  · exact (Quiet.stop c _ _).1
  split
  · exact (Quiet.stop c _ _).1
  have ticked : Quiet lib c (c.tickNegotiation lib nowMs answers.batch) := .tickNegotiation c nowMs _
  generalize c.tickNegotiation lib nowMs answers.batch = c' at ticked ⊢
  split
  · exact ticked.1
  split
  · exact ticked.1.tail (.phased _ _ fun stopping => absurd (ticked.2.symm.trans stopping) calm)
  have retried := ticked.trans (Quiet.startRetry nowMs answers)
  split
  · exact retried.1.tail (.phased _ _ fun stopping => absurd (retried.2.symm.trans stopping) calm)
  · exact (retried.trans (.stop _ _ _)).1

/-- A packet is sent, or a request is queued, or only the bucket of the run changes. -/
theorem emit_cases (c : Context) (handle : Nat) (destination : NiceAddress) (bytes : Bytes)
    (nowMs : Int) (ack : Bool) :
    c.emit handle destination bytes nowMs ack = (false, c) ∨
      (∃ b b', c.runtime.budget = some b ∧ PunchProbeBudget.Refilled b b' ∧
        c.emit handle destination bytes nowMs ack =
          (false, c.withRuntime { c.runtime with budget := some b' })) ∨
      (∃ b b', c.runtime.budget = some b ∧ PunchProbeBudget.Refilled b b' ∧
        c.runtime.stopped = false ∧ c.runtime.lease ≠ 0 ∧
        (ack = false → c.runtime.draining = false) ∧
        (c.process.take c.runtime.lease ack nowMs).1 = false ∧
        c.emit handle destination bytes nowMs ack = (false,
          ⟨(c.process.take c.runtime.lease ack nowMs).2, { c.runtime with budget := some b' }⟩)) ∨
      ∃ c' b b', Emitted c c' bytes nowMs ack b b' ∧
        c.emit handle destination bytes nowMs ack = (true, c') ∧
        c'.runtime = { c.runtime with
          budget := some b'
          taken := c.runtime.taken + 1
          sent := c.runtime.sent ++ [⟨c.runtime.attempt, c.runtime.draining, ack, handle,
            destination, bytes, nowMs⟩] } := by
  generalize result : c.emit handle destination bytes nowMs ack = e
  unfold Context.emit at result
  simp only at result
  split at result
  · exact .inl result.symm
  rename_i checks
  simp only [not_or, Bool.not_eq_true, not_and, not_le] at checks
  obtain ⟨live, leased, filled, early, probing⟩ := checks
  split at result
  · exact .inl result.symm
  rename_i b budget
  have refilled := b.ready_refilled nowMs ack
  split at result
  · exact .inr (.inl ⟨b, _, budget, refilled, result.symm⟩)
  rename_i ready
  have granted := PunchProbeBudget.take_ready (Bool.eq_true_of_not_eq_false ready)
  split at result
  · rename_i no
    exact .inr (.inr (.inl ⟨b, _, budget, refilled, live, leased, fun probe => (probing probe).1, no,
      result.symm⟩))
  rename_i yes
  rw [if_neg (by simp [granted.1])] at result
  refine .inr (.inr (.inr ⟨_, b, _, ?_, result.symm, rfl⟩))
  exact ⟨live, leased, filled, early, probing, budget, granted.2,
    Prod.ext (Bool.eq_true_of_not_eq_false yes) rfl⟩

theorem Quiet.promote (id : Nat) (promotes : Bool) (budget : c.runtime.budget.isSome = true) :
    Quiet lib c (c.promote id promotes) := by
  unfold Context.promote
  simp only
  split
  · exact .refl c
  rename_i pool
  split
  · exact .refl c
  rename_i endpoint there
  split
  · exact .refl c
  rename_i new
  simp only [not_or, Bool.not_eq_true, not_le] at new
  have same : endpoint.id = id := by simpa using List.find?_some there
  subst same
  exact .move (.promoted c endpoint (Bool.eq_true_of_not_eq_false (not_or.mp pool).1) there new.1
    new.2.1 budget) rfl

theorem Emitted.withRuntime {c c' : Context} {bytes : Bytes} {nowMs : Int} {ack : Bool}
    {b b' : PunchProbeBudget} (emitted : Emitted c c' bytes nowMs ack b b') (r : PunchRuntime) :
    Emitted c (c'.withRuntime r) bytes nowMs ack b b' :=
  { emitted with taken := emitted.taken }

/-- What is left of a run whose packet was not sent. -/
theorem unsent_moves {c : Context} {b b' : PunchProbeBudget} {ack : Bool} {nowMs : Int}
    (budget : c.runtime.budget = some b) (refilled : PunchProbeBudget.Refilled b b')
    (live : c.runtime.stopped = false) (leased : c.runtime.lease ≠ 0)
    (asks : if ack then c.runtime.acks ≠ []
      else c.runtime.budget.isSome = true ∧ c.runtime.draining = false)
    (no : (c.process.take c.runtime.lease ack nowMs).1 = false) :
    Quiet lib c ⟨(c.process.take c.runtime.lease ack nowMs).2,
      { c.runtime with budget := some b' }⟩ :=
  (Quiet.move (.refused c ack nowMs live leased asks no) rfl).trans
    (.move (.refilled _ b b' budget refilled) rfl)

theorem Quiet.probe (c : Context) (s : PunchRoundRobin) (index : Nat) (nowMs : Int)
    (answers : BurstAnswers) (schedule : c.runtime.schedule = some s)
    (peek : s.peek nowMs = some index) : Quiet lib c (c.probe lib index nowMs answers).2 := by
  unfold Context.probe
  simp only
  split
  · exact .refl c
  rename_i endpoint _
  split
  · exact .move (.passed c nowMs) rfl
  split
  · exact .stop c _ _
  split
  · exact .stop c _ _
  rename_i nonce _ number
  generalize target : (if c.runtime.pool = true then c.runtime.anchor
    else ⟨c.runtime.peerIp, c.runtime.ports.getD index 0⟩ : NiceAddress) = destination
  have aimed : c.runtime.pool = false → destination.port = c.runtime.ports.getD index 0 := by
    intro anchor
    rw [← target, if_neg (by simp [anchor])]
  obtain unsent | ⟨b, b', budget, refilled, unsent⟩ |
      ⟨b, b', budget, refilled, live, leased, probing, no, unsent⟩ |
      ⟨c', b, b', emitted, done, result⟩ :=
    emit_cases c endpoint.id destination (c.encodeProbe lib .probe
      (probePayload ⟨BitVec.ofNat 64 endpoint.id, nonce⟩)) nowMs false
  · rw [unsent, if_pos rfl]
    exact .refl c
  · rw [unsent, if_pos rfl]
    exact .move (.refilled c b b' budget refilled) rfl
  · rw [unsent, if_pos rfl]
    exact unsent_moves budget refilled live leased ⟨by rw [budget]; rfl, probing rfl⟩ no
  · rw [done, if_neg Bool.true_eq_false.mp]
    refine .move (.probed c _ s index endpoint.id destination _
      (if c'.runtime.outstanding.any (·.1 = nonce) then c'.runtime.outstanding
        else c'.runtime.outstanding ++ [(nonce, ⟨endpoint.id, destination⟩)])
      nowMs b b' schedule peek number aimed (emitted.withRuntime _) ?_) ?_
    · simp only [Context.withSchedule, Context.withRuntime, result, schedule, Option.map_some]
    · simp only [Context.withSchedule, Context.withRuntime, result]

theorem burst_moves (c : Context) (nowMs : Int) (left : Nat) (answers : BurstAnswers)
    (calm : c.runtime.phase ≠ .stopping) :
    Relation.ReflTransGen (Moves lib) c (c.burst lib nowMs left answers) := by
  have phased : ∀ {c' : Context} (phase : Phase), Quiet lib c c' →
      Relation.ReflTransGen (Moves lib) c (c'.inPhase phase) :=
    fun phase moved => moved.1.tail
      (.phased _ phase fun stopping => absurd (moved.2.symm.trans stopping) calm)
  unfold Context.burst
  simp only
  split
  · exact phased _ (.refl c)
  split
  · rename_i ack rest queue
    have asks : c.runtime.acks ≠ [] := by
      rw [queue]
      exact List.cons_ne_nil _ _
    obtain unsent | ⟨b, b', budget, refilled, unsent⟩ |
        ⟨b, b', budget, refilled, live, leased, -, no, unsent⟩ |
        ⟨c', b, b', emitted, done, result⟩ :=
      emit_cases c ack.handle ack.destination ack.bytes nowMs true
    · rw [unsent, if_pos rfl]
      exact phased _ (.refl c)
    · rw [unsent, if_pos rfl]
      exact phased _ (.move (.refilled c b b' budget refilled) rfl)
    · rw [unsent, if_pos rfl]
      exact phased _ (unsent_moves budget refilled live leased asks no)
    · rw [done, if_neg Bool.true_eq_false.mp]
      have popped : Quiet lib c (c'.withRuntime { c'.runtime with acks := c'.runtime.acks.tail }) := by
        refine .move (.acked c _ ack rest nowMs b b' queue (emitted.withRuntime _) ?_) ?_
        · simp only [Context.withRuntime, result, queue, List.tail_cons]
        · simp only [Context.withRuntime, result]
      refine phased _ (popped.trans (.promote _ _ ?_))
      simp only [Context.withRuntime, result, Option.isSome_some]
  split
  · exact phased _ (.refl c)
  split
  · exact phased _ (.refl c)
  · rename_i index next
    obtain ⟨s, schedule, peek⟩ := Option.bind_eq_some_iff.mp next
    exact phased _ (.probe c s index nowMs answers schedule peek)

theorem directAck_moves (c : Context) (p : DirectPacket) (probe : Probe) (promotes : Bool)
    (budget : c.runtime.budget.isSome = true) :
    Relation.ReflTransGen (Moves lib) c (c.directAck p probe promotes) := by
  unfold Context.directAck
  simp only
  split
  · exact .refl
  split
  · exact .refl
  · have erased : Quiet lib c (c.withRuntime { c.runtime with
        outstanding := c.runtime.outstanding.filter (·.1 ≠ probe.nonce) }) :=
      .move (.received c c.runtime.probeReplay _) rfl
    exact (erased.trans (.promote _ _ budget)).1

theorem directProbe_moves (c : Context) (p : DirectPacket) (packet : Packet)
    (budget : c.runtime.budget.isSome = true) :
    Relation.ReflTransGen (Moves lib) c (c.directProbe lib p packet) := by
  unfold Context.directProbe
  simp only
  split
  · exact .refl
  rename_i room
  split
  · rename_i cached there
    exact .single (.repeated c _ cached there budget)
  · refine .single (.answered c p.handle p.address packet.payload _ (not_or.mp room).2 budget ?_)
    intro e mem
    obtain rfl | old := SortedMap.mem_insertEntry mem
    · exact .inr rfl
    refine .inl ?_
    split at old
    · split at old
      · exact (SortedMap.mem_erase.mp old).1
      · exact old
    · exact old

theorem direct_moves (c : Context) (p : DirectPacket) (nowMs : Int) (promotes : Bool) :
    Relation.ReflTransGen (Moves lib) c (c.direct lib p nowMs promotes) := by
  unfold Context.direct
  simp only
  split
  · exact .refl
  rename_i checks
  have budget : c.runtime.budget.isSome = true := by
    rw [Option.isSome_iff_ne_none, ne_eq, ← Option.isNone_iff_eq_none]
    exact (not_or.mp (not_or.mp checks).2).1
  split
  · exact .refl
  split
  · exact .refl
  split
  · exact .refl
  split
  · exact .refl
  have replayed : ∀ window, Relation.ReflTransGen (Moves lib) c
      (c.withRuntime { c.runtime with probeReplay := window }) :=
    fun window => .single (.received c window c.runtime.outstanding)
  split
  · exact replayed _
  split
  · exact replayed _
  split
  · exact (replayed _).trans (directAck_moves _ _ _ _ budget)
  · exact (replayed _).trans (directProbe_moves _ _ _ budget)

end Probing

/-- A call is a chain of moves, and so is what is left of one, unless it drains an attempt. -/
theorem call_moves (lib : Library) (c : Context) (idle : c.runtime.phase = .idle) (call : Call) :
    Relation.ReflTransGen (Moves lib) c (c.call lib call) := by
  have calm : c.runtime.phase ≠ .stopping := by
    rw [idle]
    exact nofun
  cases call with
  | begin hello nowMs => exact begin_moves c nowMs hello
  | tick nowMs answers => exact tick_moves nowMs answers calm
  | control data nowMs answers => exact control_moves c nowMs answers data calm
  | direct packet nowMs promotes => exact direct_moves c packet nowMs promotes
  | stop reason notify => exact (Quiet.stop c reason notify).1

theorem proceed_moves (lib : Library) (c : Context) (answers : BurstAnswers) :
    (∃ nowMs, c.runtime.phase = .draining nowMs ∧ c.proceed lib answers = c.tickDrain nowMs) ∨
      Relation.ReflTransGen (Moves lib) c (c.proceed lib answers) := by
  unfold Context.proceed
  split
  · exact .inr .refl
  · refine .inr ((Quiet.stop c "resources" true).1.tail (.phased _ _ fun _ => ?_))
    unfold Context.stop
    split
    · assumption
    · rfl
  · rename_i nowMs phase
    exact .inl ⟨nowMs, phase, rfl⟩
  · rename_i nowMs left phase
    refine .inr (burst_moves c nowMs left answers ?_)
    rw [phase]
    exact nofun

end MiniRtc.Ice.Punch
