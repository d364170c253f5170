import MiniRtc.Lib.SortedMap
import MiniRtc.Ice.PunchCodec
import MiniRtc.Ice.PunchBudget

/-! One run of UDP punching: the negotiation of a round (punch_coordinator.cpp) with the hooks of
the runtime, and the runtime itself (punch_runtime.cpp). What libnice, the clock and the random
source answer comes with each call.
A call is cut into pieces where another run can get at the budget of the process. -/
namespace MiniRtc.Ice.Punch
open Wire

def kAckReserve : Nat := 32

/-- The functions of the protocol that this part only calls. -/
structure Library where
  parse : JsonParser
  hmac : Key → Bytes → Block 32
  sha : Bytes → Block 32
  controlPayload : Kind → Json → Bytes
  digest : Bytes → String
  equal : Json → Json → Bool
  makePunchPlan : (offer answer : Json) → Option Json

structure Keys where
  offerControl : Key
  answerControl : Key
  offerProbe : Key
  answerProbe : Key

structure NiceAddress where
  ip : String
  port : Nat
deriving DecidableEq, Repr

end MiniRtc.Ice.Punch

namespace Json

/-- An unsigned number that the schema has checked. -/
def uint : Json → Nat
  | .integer v | .unsigned v => v.toNat % 2 ^ 32
  | _ => 0

def text : Json → String
  | .string s => s
  | _ => ""

def isNull : Json → Bool
  | .null => true
  | _ => false

def items : Json → List Json
  | .array items => items
  | _ => []

/-- A field that is there becomes another value. -/
def assign (j : Json) (key : String) (value : Json) : Json :=
  match j with
  | .object fields => .object (fields.map fun f => if f.1 = key then (key, value) else f)
  | j => j

end Json

namespace MiniRtc.Ice.Punch
open Wire

/-! ### Replays -/

inductive ReplayResult where
  | fresh
  | duplicate
  | tooOld
  | conflict
deriving DecidableEq, Repr

structure ReplayWindow where
  high : Nat := 0
  seen : BitVec 256 := 0
  digests : Nat → Block 32 := fun _ => Block.zero 32

def ReplayWindow.accept (w : ReplayWindow) (sequence : Nat) (hash : Block 32) :
    ReplayResult × ReplayWindow :=
  if sequence = 0 ∨ sequence ≤ w.high ∧ 256 ≤ w.high - sequence then (.tooOld, w)
  else
    let w := if w.high < sequence then
        { w with
          seen := if 256 ≤ sequence - w.high then 0 else w.seen <<< (sequence - w.high)
          high := sequence }
      else w
    let offset := w.high - sequence
    if w.seen.getLsbD offset then
      (if hash = w.digests (sequence % 256) then .duplicate else .conflict, w)
    else
      (.fresh, { w with
        seen := w.seen ||| BitVec.twoPow 256 offset
        digests := fun i => if i = sequence % 256 then hash else w.digests i })

/-! ### The state -/

inductive NegotiationState where
  | idle
  | hello
  | allocating
  | preparing
  | ready
  | probing
  | stopped
deriving DecidableEq, Repr

structure PunchNegotiation where
  round : Id := Block.zero 16
  state : NegotiationState := .idle
  replay : ReplayWindow := {}
  localHello : Json := .null
  remoteHello : Json := .null
  plan : Json := .null
  hello : Bytes := []
  prepare : Bytes := []
  ready : Bytes := []
  start : Bytes := []
  started : Bytes := []
  pending : Bytes := []
  remoteHelloPayload : Bytes := []
  pendingKind : Kind := .hello
  digest : String := ""
  nextSequence : BitVec 32 := 1
  attempts : Nat := 0
  limit : Nat := 48
  retries : Nat := 0
  deadline : Int := 0
  retryAt : Int := 0

structure Endpoint where
  id : Nat
  bound : NiceAddress
  promoted : Bool := false
deriving DecidableEq, Repr

structure Outstanding where
  handle : Nat
  destination : NiceAddress
deriving DecidableEq, Repr

structure Ack where
  handle : Nat
  destination : NiceAddress
  bytes : Bytes
deriving DecidableEq

/-- A packet that went out, with the attempt and whether it was being drained then. -/
structure Sent where
  attempt : Nat
  draining : Bool
  ack : Bool
  handle : Nat
  destination : NiceAddress
  bytes : Bytes
  nowMs : Int
deriving DecidableEq

/-- How far a call has come: what is left of a failed preparation, or of a tick. -/
inductive Phase where
  | idle
  | stopping
  | draining (nowMs : Int)
  | bursting (nowMs : Int) (left : Nat)
deriving DecidableEq, Repr

/-- Behind the fields of the source come those that are for the statements: the packets that went
out and the tokens of the process that were taken for them, the deadlines of the attempts, the
ports that were excluded before the first sample, the promoted endpoints, and the byte strings
that sequence numbers were given to. -/
structure PunchRuntime where
  offer : Bool
  retryEnabled : Bool
  epoch : Nat
  localConfig : PunchConfig
  keys : Keys
  generation : Id
  originalDeadline : Int
  phase : Phase := .idle
  prepareSocketCount : Nat := 0
  pool : Bool := false
  stopped : Bool := false
  draining : Bool := false
  attempt : Nat := 0
  agreed : PunchConfig
  round : Id := Block.zero 16
  remoteSnapshotDeadline : Int := 0
  deadlines : PunchDeadlines := {}
  anchor : NiceAddress := ⟨"", 0⟩
  peerIp : String := ""
  endpoints : List Endpoint := []
  ports : List Nat := []
  excludedPorts : Finset Nat := ∅
  outstanding : List (Block 12 × Outstanding) := []
  acks : List Ack := []
  ackCache : SortedMap Nat Ack := SortedMap.empty
  probeReplay : ReplayWindow := {}
  sequence : BitVec 32 := 1
  promoted : Nat := 0
  lease : Nat := 0
  budget : Option PunchProbeBudget := none
  schedule : Option PunchRoundRobin := none
  negotiation : PunchNegotiation := {}
  sent : List Sent := []
  taken : Nat := 0
  attempts : List PunchDeadlines := []
  preparedPorts : Finset Nat := ∅
  promotions : List Nat := []
  issued : List Bytes := []

/-- A run and the budget that it shares with others. -/
structure Context where
  process : PunchProcessBudget
  runtime : PunchRuntime

namespace PunchRuntime

def controlKey (r : PunchRuntime) (own : Bool) : Key :=
  if r.offer = own then r.keys.offerControl else r.keys.answerControl

def probeKey (r : PunchRuntime) (own : Bool) : Key :=
  if r.offer = own then r.keys.offerProbe else r.keys.answerProbe

end PunchRuntime

namespace Context

def withRuntime (c : Context) (runtime : PunchRuntime) : Context := { c with runtime }

def withNegotiation (c : Context) (negotiation : PunchNegotiation) : Context :=
  { c with runtime := { c.runtime with negotiation } }

def inPhase (c : Context) (phase : Phase) : Context := c.withRuntime { c.runtime with phase }

/-- The schedule goes on. -/
def withSchedule (c : Context) (nowMs : Int) : Context :=
  c.withRuntime { c.runtime with schedule := c.runtime.schedule.map (·.commit nowMs) }

section Calls

variable (lib : Library)

/-- The bytes of a control packet, for which the negotiation gives up a sequence number. -/
def make (c : Context) (kind : Kind) (value : Json) : Bytes × Context :=
  let n := c.runtime.negotiation
  if n.nextSequence = 0 ∨ n.state = .stopped then ([], c)
  else
    (encode lib.parse lib.hmac
      { kind
        generation := c.runtime.generation
        round := if kind = .hello then Block.zero 16 else n.round
        sequence := n.nextSequence
        payload := lib.controlPayload kind value }
      (c.runtime.controlKey true),
    c.withNegotiation { n with nextSequence := n.nextSequence + 1 })

/-- What the negotiation does when it stops: it tells the peer if it has a round. -/
def halt (c : Context) (reason : String) (notify : Bool) : Context :=
  let n := c.runtime.negotiation
  if n.state = .stopped then c
  else
    let c := if notify ∧ ¬ isZero n.round ∧ n.attempts < n.limit then
        let (bytes, c) := c.make lib .cancel (.object [("reason", .string reason)])
        if bytes = [] then c
        else c.withNegotiation { c.runtime.negotiation with attempts := n.attempts + 1 }
      else c
    c.withNegotiation { c.runtime.negotiation with state := .stopped, pending := [] }

/-- `Stop` of the runtime, which is also the hook of the negotiation; each stops the other. -/
def stop (c : Context) (reason : String) (notify : Bool) : Context :=
  if c.runtime.stopped then c
  else
    let c := c.halt lib reason notify
    { process := if c.runtime.lease = 0 then c.process else c.process.release c.runtime.lease
      runtime := { c.runtime with
        stopped := true
        lease := 0
        acks := []
        ackCache := SortedMap.empty
        outstanding := []
        schedule := none } }

/-- `Emit` of the negotiation; a packet counts even if it is not sent. -/
def emitControl (c : Context) (bytes : Bytes) : Bool × Context :=
  let n := c.runtime.negotiation
  if bytes = [] ∨ n.state = .stopped then (false, c)
  else if n.limit ≤ n.attempts then (false, c.stop lib "budget" false)
  else (true, c.withNegotiation { n with attempts := n.attempts + 1 })

def setPending (c : Context) (kind : Kind) (bytes : Bytes) (nowMs : Int) : Context :=
  let n := c.runtime.negotiation
  (emitControl lib (c.withNegotiation
    { n with pending := bytes, pendingKind := kind, retries := 0, retryAt := nowMs + 200 }) bytes).2

/-- `Begin`; what `PunchHello` makes of the snapshot is given. -/
def begin (c : Context) (hello : Option Json) (nowMs : Int) : Context :=
  match hello with
  | none => c.stop lib "ineligible" false
  | some hello =>
    let deadline := c.runtime.originalDeadline
    if c.runtime.negotiation.state ≠ .idle ∨ deadline ≤ nowMs ∨ 30000 < deadline - nowMs ∨
        lib.controlPayload .hello hello = [] then c
    else
      let c := c.withNegotiation { c.runtime.negotiation with
        state := .hello
        deadline
        localHello := hello
        limit := ((hello.item "budget").item "control_packet_budget").uint }
      let (bytes, c) := c.make lib .hello hello
      let c := c.withNegotiation { c.runtime.negotiation with hello := bytes }
      c.setPending lib .hello bytes nowMs

end Calls

/-! ### Preparation -/

/-- A candidate of the peer. -/
structure RemoteCandidate where
  relayed : Bool
  udp : Bool
  address : NiceAddress
deriving DecidableEq, Repr

structure PrepareAnswers where
  nowMs : Int
  observationValid : Bool
  baseAlive : Bool
  candidates : List RemoteCandidate
  random : PunchRandom

/-- The budget that both sides have agreed to. -/
def agreedConfig (config : PunchConfig) (plan : Json) : PunchConfig :=
  let b := plan.item "budget"
  { config with
    poolSize := (b.item "pool_size").uint
    targetPortCount := (b.item "target_port_count").uint
    probePps := (b.item "probe_pps").uint
    burstPackets := (b.item "burst_packets").uint
    poolProbeRounds := (b.item "pool_probe_rounds").uint
    roundDurationMs := (plan.item "duration_ms").uint
    iceFinishReserveMs := (b.item "ice_finish_reserve_ms").uint
    probePacketBudget := (b.item "probe_packet_budget").uint
    controlPacketBudget := (b.item "control_packet_budget").uint
    promotedEndpointLimit := (b.item "promoted_endpoint_limit").uint }

/-- The side, the addresses and the excluded ports of a plan. -/
def aim (r : PunchRuntime) (plan : Json) (known : List RemoteCandidate) : PunchRuntime :=
  let pool : Bool := ((plan.item "anchor").isString "offer") ≠ r.offer
  let anchor : NiceAddress := ⟨((plan.item "anchor_endpoint").item "ip").text,
    ((plan.item "anchor_endpoint").item "port").uint⟩
  let peerIp := if pool then anchor.ip else (plan.item "peer_ip").text
  let peers := known.filter fun candidate => candidate.address.ip = peerIp
  { r with
    pool
    anchor
    peerIp
    excludedPorts := r.excludedPorts ∪ (peers.map fun candidate => candidate.address.port).toFinset }

/-- The last part of `Prepare`. -/
def allocate (c : Context) (random : PunchRandom) : Bool × Context :=
  let (lease, process) := c.process.acquire
  let r := { c.runtime with lease, preparedPorts := c.runtime.excludedPorts }
  if lease = 0 then (false, ⟨process, r⟩)
  else if r.pool then (true, ⟨process, { r with prepareSocketCount := r.agreed.sockets }⟩)
  else
    let count := min r.agreed.targetPortCount (PunchProbeBudget.ProbeLimit r.agreed kAckReserve)
    let ports := samplePunchPorts count r.excludedPorts random
    if ports.length ≠ count then (false, ⟨process, { r with ports }⟩)
    else
      (true, ⟨process, { r with
        ports
        excludedPorts := r.excludedPorts ∪ ports.toFinset
        prepareSocketCount := 1 }⟩)

/-- `Prepare`, where the text of an address is one that the schema has checked. -/
def prepare (c : Context) (plan : Json) (answers : PrepareAnswers) : Bool × Context :=
  let r := c.runtime
  if r.stopped ∨ r.prepareSocketCount ≠ 0 ∨ r.endpoints ≠ [] then (false, c)
  else if answers.baseAlive = false ∨ answers.observationValid = false ∨
      r.remoteSnapshotDeadline ≤ answers.nowMs then (false, c)
  else
    let known := answers.candidates.filter fun candidate => !candidate.relayed && candidate.udp
    let r := aim r plan known
    if ¬ known.any (fun candidate => candidate.address.ip = r.peerIp) ∨
        r.pool = true ∧ ¬ known.any (fun candidate => candidate.address = r.anchor) then
      (false, c.withRuntime r)
    else
      let r := { r with round := r.negotiation.round, agreed := agreedConfig r.agreed plan }
      if r.agreed.validate = false ∨ (makePunchDeadlines answers.nowMs r.originalDeadline
          r.agreed.roundDurationMs r.agreed.iceFinishReserveMs).probe = 0 then (false, c.withRuntime r)
      else (c.withRuntime r).allocate answers.random

inductive Preparation where
  | pending
  | ready
  | failed
deriving DecidableEq, Repr

/-- Each socket that is opened has an id, the address it is bound to, and whether the time of the
batch is then over; an id of zero is none. -/
structure BatchAnswers where
  nowMs : Int
  observationValid : Bool
  connected : Bool
  opens : List (Nat × NiceAddress × Bool)
  finishedMs : Int

/-- The sockets of a batch, until there are enough; `none` if one is not opened. -/
def openSockets (count : Nat) : (left : Nat) → List Endpoint → List (Nat × NiceAddress × Bool) →
    Bool × List Endpoint
  | left + 1, endpoints, (id, bound, timeUp) :: opens =>
    if count ≤ endpoints.length then (true, endpoints)
    else if id = 0 then (false, endpoints)
    else if timeUp then (true, endpoints ++ [⟨id, bound, false⟩])
    else openSockets count left (endpoints ++ [⟨id, bound, false⟩]) opens
  | _, endpoints, _ => (true, endpoints)

def prepareBatch (c : Context) (answers : BatchAnswers) : Preparation × Context :=
  let r := c.runtime
  if r.stopped then (.failed, c)
  else if r.originalDeadline ≤ answers.nowMs ∨ r.remoteSnapshotDeadline ≤ answers.nowMs ∨
      answers.observationValid = false then (.failed, c)
  else if answers.connected then (.pending, c)
  else
    let (opened, endpoints) := openSockets r.prepareSocketCount 8 r.endpoints answers.opens
    let c := c.withRuntime { r with endpoints }
    if opened = false then (.failed, c)
    else if r.originalDeadline ≤ answers.finishedMs ∨
        r.remoteSnapshotDeadline ≤ answers.finishedMs then (.failed, c)
    else if endpoints.length < r.prepareSocketCount then (.pending, c)
    else (.ready, c)

section Negotiation

variable (lib : Library)

structure StartAnswers where
  observationValid : Bool
  baseAlive : Bool

/-- `Start` of the runtime. -/
def startProbing (c : Context) (round : Id) (nowMs : Int) (answers : StartAnswers) : Context :=
  let r := c.runtime
  if r.stopped ∨ r.budget.isSome then c
  else if answers.observationValid = false ∨ r.remoteSnapshotDeadline ≤ nowMs ∨
      answers.baseAlive = false then c.stop lib "ineligible" true
  else
    let deadlines := makePunchDeadlines nowMs r.originalDeadline r.agreed.roundDurationMs
      r.agreed.iceFinishReserveMs
    let r := { r with round, deadlines }
    if deadlines.probe = 0 then (c.withRuntime r).stop lib "timeout" true
    else
      c.withRuntime { r with
        attempt := 1
        attempts := [deadlines]
        budget := some (.start r.agreed nowMs r.retryEnabled kAckReserve)
        schedule := some {
          count := if r.pool then r.endpoints.length else r.ports.length
          rounds := if r.pool then r.agreed.poolProbeRounds else 1
          roundStart := nowMs } }

/-- `Start` of the negotiation. -/
def start (c : Context) (nowMs : Int) (answers : StartAnswers) : Context :=
  let n := c.runtime.negotiation
  if n.state = .probing ∨ n.state = .stopped then c
  else startProbing lib (c.withNegotiation { n with state := .probing }) n.round nowMs answers

/-- A preparation that fails stops the run in a step of its own. -/
def beginPreparation (c : Context) (answers : PrepareAnswers) : Context :=
  let c := c.withNegotiation { c.runtime.negotiation with state := .allocating, pending := [] }
  let (prepared, c) := c.prepare c.runtime.negotiation.plan answers
  if prepared then c else c.inPhase .stopping

def finishPreparation (c : Context) (nowMs : Int) : Context :=
  let n := c.runtime.negotiation
  if n.state ≠ .allocating then c
  else
    let digest := lib.digest (lib.controlPayload .prepare n.plan)
    let c := c.withNegotiation { n with digest }
    if c.runtime.offer then
      let (bytes, c) := c.make lib .prepare n.plan
      let c := c.withNegotiation { c.runtime.negotiation with prepare := bytes, state := .preparing }
      let (_, c) := c.emitControl lib c.runtime.negotiation.hello
      c.setPending lib .prepare bytes nowMs
    else
      let (bytes, c) := c.make lib .ready
        (.object [("digest", .string digest), ("budget", n.plan.item "budget")])
      let c := c.withNegotiation { c.runtime.negotiation with ready := bytes, state := .ready }
      c.setPending lib .ready bytes nowMs

/-- `Tick` of the negotiation. -/
def tickNegotiation (c : Context) (nowMs : Int) (answers : BatchAnswers) : Context :=
  let n := c.runtime.negotiation
  if n.state = .idle ∨ n.state = .stopped then c
  else if n.deadline ≤ nowMs then c.stop lib "timeout" true
  else if n.state = .allocating then
    let (result, c) := c.prepareBatch answers
    match result with
    | .failed => c.stop lib "resources" true
    | .ready => finishPreparation lib c nowMs
    | .pending => c
  else if n.pending = [] ∨ nowMs < n.retryAt then c
  else if n.retries = 3 then
    if n.pendingKind = .hello then c.withNegotiation { n with pending := [] }
    else c.stop lib "timeout" true
  else
    let (emitted, c) := if n.pendingKind = .prepare then c.emitControl lib n.hello else (true, c)
    if emitted = false then c
    else
      let (emitted, c) := c.emitControl lib n.pending
      if emitted = false then c
      else
        c.withNegotiation { c.runtime.negotiation with
          retryAt := nowMs + if n.retries = 0 then 400 else 800
          retries := n.retries + 1 }

structure ControlAnswers where
  round : Option Id
  prepare : PrepareAnswers
  start : StartAnswers

/-- The plan with the digests of both HELLOs. -/
def planned (offer answer : Json) (offerHello answerHello : Bytes) : Option Json :=
  (lib.makePunchPlan offer answer).map fun plan =>
    (plan.assign "offer_hello" (.string (lib.digest offerHello))).assign "answer_hello"
      (.string (lib.digest answerHello))

/-- A hook of the negotiation. -/
def remoteHello (c : Context) (hello : Json) (nowMs : Int) : Context :=
  let age := ((hello.item "samples").items.map fun sample => (sample.item "age_ms").uint).foldl max 0
  c.withRuntime { c.runtime with
    remoteSnapshotDeadline := nowMs + c.runtime.localConfig.mappingSampleMaxAgeMs - age }

def receiveHello (c : Context) (packet : Packet) (value : Json) (nowMs : Int)
    (answers : ControlAnswers) : Context :=
  let n := c.runtime.negotiation
  if n.remoteHello.isNull = false then
    if lib.equal n.remoteHello value = false ∨ n.remoteHelloPayload ≠ packet.payload then
      c.stop lib "conflict" true
    else if c.runtime.offer ∧ n.prepare ≠ [] ∧ n.state = .preparing then
      ((c.emitControl lib n.hello).2.emitControl lib n.prepare).2
    else c
  else
    let c := (c.withNegotiation { n with
      remoteHello := value
      remoteHelloPayload := packet.payload }).remoteHello value nowMs
    if c.runtime.offer = false then (c.emitControl lib n.hello).2
    else
      match planned lib n.localHello value (lib.controlPayload .hello n.localHello)
          packet.payload with
      | none => c.stop lib "ineligible" false
      | some proposal =>
        if lib.controlPayload .prepare proposal = [] then c.stop lib "ineligible" false
        else
          let c := c.withNegotiation { c.runtime.negotiation with plan := proposal }
          match answers.round with
          | none => c.stop lib "resources" false
          | some round =>
            let c := c.withNegotiation { c.runtime.negotiation with round }
            if isZero round then c.stop lib "resources" false
            else c.beginPreparation answers.prepare

def receivePrepare (c : Context) (packet : Packet) (value : Json) (answers : ControlAnswers) :
    Context :=
  let n := c.runtime.negotiation
  if n.plan.isNull = false then
    if lib.equal n.plan value = false then c.stop lib "conflict" true
    else if n.ready ≠ [] then (c.emitControl lib n.ready).2
    else c
  else if n.state ≠ .hello ∨ n.remoteHello.isNull then c
  else
    match planned lib n.remoteHello n.localHello n.remoteHelloPayload
        (lib.controlPayload .hello n.localHello) with
    | none => c
    | some expected =>
      if lib.equal expected value = false then c
      else
        (c.withNegotiation { n with round := packet.round, plan := value }).beginPreparation
          answers.prepare

def receiveReady (c : Context) (value : Json) (nowMs : Int) (answers : ControlAnswers) : Context :=
  let n := c.runtime.negotiation
  if (value.item "digest").isString n.digest = false ∨
      lib.equal (value.item "budget") (n.plan.item "budget") = false then c
  else if n.state = .preparing then
    let (bytes, c) := c.make lib .start (.object [("digest", .string n.digest)])
    let c := c.withNegotiation { c.runtime.negotiation with start := bytes }
    (c.start lib nowMs answers.start).setPending lib .start bytes nowMs
  else if n.state = .probing ∧ n.start ≠ [] then (c.emitControl lib n.start).2
  else c

def receiveStart (c : Context) (value : Json) (nowMs : Int) (answers : ControlAnswers) : Context :=
  let n := c.runtime.negotiation
  if (value.item "digest").isString n.digest = false then c
  else if n.state = .ready then
    let c := c.withNegotiation { n with pending := [] }
    let (bytes, c) := c.make lib .started (.object [("digest", .string n.digest)])
    let c := c.withNegotiation { c.runtime.negotiation with started := bytes }
    ((c.start lib nowMs answers.start).emitControl lib bytes).2
  else if n.state = .probing then (c.emitControl lib n.started).2
  else c

/-- A control packet that the replay window has not refused. -/
def receiveControl (c : Context) (packet : Packet) (value : Json) (duplicate : Bool) (nowMs : Int)
    (answers : ControlAnswers) : Context :=
  let n := c.runtime.negotiation
  if packet.kind = .hello then receiveHello lib c packet value nowMs answers
  else if packet.kind = .prepare ∧ c.runtime.offer = false then
    receivePrepare lib c packet value answers
  else if packet.kind = .ready ∧ c.runtime.offer = true then receiveReady lib c value nowMs answers
  else if packet.kind = .start ∧ c.runtime.offer = false then receiveStart lib c value nowMs answers
  else if packet.kind = .started ∧ c.runtime.offer = true ∧ n.state = .probing ∧
      (value.item "digest").isString n.digest then c.withNegotiation { n with pending := [] }
  else if packet.kind = .cancel ∧ duplicate = false then c.stop lib (value.item "reason").text false
  else c

/-- `Receive` of the negotiation. -/
def receive (c : Context) (data : Bytes) (nowMs : Int) (answers : ControlAnswers) : Context :=
  let r := c.runtime
  let n := r.negotiation
  if n.state = .idle ∨ n.state = .stopped then c
  else if n.deadline ≤ nowMs then c.stop lib "timeout" true
  else
    match decode lib.parse lib.hmac data (r.controlKey false) .control r.generation with
    | none => c
    | some packet =>
      if packet.kind ≠ .hello ∧ packet.round ≠ n.round ∧
          ¬ (packet.kind = .prepare ∧ r.offer = false ∧ isZero n.round ∧ n.state = .hello) then c
      else
        let (replay, window) := n.replay.accept packet.sequence.toNat (lib.sha data)
        let c := c.withNegotiation { n with replay := window }
        if replay = .tooOld then c
        else if replay = .conflict then c.stop lib "conflict" true
        else
          match parseControl lib.parse packet.kind packet.payload with
          | none => c
          | some value =>
            receiveControl lib c packet value (replay = .duplicate) nowMs answers

def control (c : Context) (data : Bytes) (nowMs : Int) (answers : ControlAnswers) : Context :=
  if c.runtime.stopped then c else c.receive lib data nowMs answers

end Negotiation

/-! ### Probing -/

/-- What libnice says at a tick, and at a retry. -/
structure TickAnswers where
  directSelected : Bool
  baseAlive : Bool
  batch : BatchAnswers
  retryBaseAlive : Bool
  random : PunchRandom

/-- A nonce if the random source has one, and whether libnice promotes an endpoint. -/
structure BurstAnswers where
  nonce : Option (Block 12)
  promotes : Bool

/-- A packet of a peer, with the address it came to. -/
structure DirectPacket where
  epoch : Nat
  handle : Nat
  baseAddress : NiceAddress
  address : NiceAddress
  bytes : Bytes

section Probing

variable (lib : Library)

def drain (c : Context) : Context :=
  let r := c.runtime
  if r.draining ∨ r.stopped then c else c.withRuntime { r with draining := true, schedule := none }

/-- The ports of another attempt; none for a pool. -/
def retryPorts (r : PunchRuntime) (random : PunchRandom) : Option (List Nat) :=
  if r.pool then some []
  else
    match r.budget with
    | none => none
    | some budget =>
      let count := min r.agreed.targetPortCount budget.probeLimit
      let ports := samplePunchPorts count r.excludedPorts random
      if ports.length ≠ count then none else some ports

def startRetry (c : Context) (nowMs : Int) (answers : TickAnswers) : Bool × Context :=
  let r := c.runtime
  if r.retryEnabled = false ∨ r.attempt ≠ 1 then (false, c)
  else if r.originalDeadline - nowMs < r.agreed.iceFinishReserveMs + 1000 then (false, c)
  else if answers.retryBaseAlive = false then (false, c.stop lib "interface-change" true)
  else
    let deadlines := makePunchDeadlines nowMs r.originalDeadline r.agreed.roundDurationMs
      r.agreed.iceFinishReserveMs
    if deadlines.probe = 0 then (false, c)
    else
      match retryPorts r answers.random with
      | none => (false, c)
      | some ports =>
        let r := if r.pool then r
          else { r with ports, excludedPorts := r.excludedPorts ∪ ports.toFinset }
        match r.budget.bind PunchProbeBudget.nextAttempt with
        | none => (false, c.withRuntime r)
        | some budget =>
          (true, c.withRuntime { r with
            budget := some budget
            attempt := r.attempt + 1
            deadlines
            attempts := r.attempts ++ [deadlines]
            draining := false
            schedule := some {
              count := if r.pool then r.endpoints.length else r.ports.length
              rounds := if r.pool then r.agreed.poolProbeRounds else 1
              roundStart := nowMs } })

/-- `Tick` before the attempt is drained. -/
def tick (c : Context) (nowMs : Int) (answers : TickAnswers) : Context :=
  let r := c.runtime
  if r.stopped then c
  else if answers.directSelected then c.stop lib "direct_selected" false
  else if r.originalDeadline ≤ nowMs then c.stop lib "timeout" true
  else if answers.baseAlive = false then c.stop lib "interface-change" true
  else
    let c := c.tickNegotiation lib nowMs answers.batch
    let r := c.runtime
    if r.stopped ∨ r.budget.isNone then c
    else if nowMs < r.deadlines.finish then c.withRuntime { r with phase := .draining nowMs }
    else
      let (retried, c) := c.startRetry lib nowMs answers
      if retried then c.inPhase (.draining nowMs)
      else c.stop lib "timeout" true

/-- An attempt is over for new probes. -/
def attemptOver (r : PunchRuntime) (nowMs : Int) : Bool :=
  r.deadlines.probe ≤ nowMs || r.budget.any PunchProbeBudget.exhausted ||
    r.schedule.any PunchRoundRobin.done

/-- `Tick` where the attempt is drained, up to the burst. -/
def tickDrain (c : Context) (nowMs : Int) : Context :=
  let c := if c.runtime.draining = false ∧ attemptOver c.runtime nowMs then c.drain else c
  c.inPhase (.bursting nowMs c.runtime.agreed.burstPackets)

/-- The bytes of a packet with the next sequence number. -/
def encodeProbe (c : Context) (kind : Kind) (payload : Bytes) : Bytes :=
  let r := c.runtime
  encode lib.parse lib.hmac
    { kind, generation := r.generation, round := r.round, sequence := r.sequence, payload }
    (r.probeKey true)

/-- `Emit`: the budget of the process is asked when the budget of the run has room. -/
def emit (c : Context) (handle : Nat) (destination : NiceAddress) (bytes : Bytes) (nowMs : Int)
    (ack : Bool) : Bool × Context :=
  let r := c.runtime
  if r.stopped ∨ r.lease = 0 ∨ bytes = [] ∨ r.deadlines.finish ≤ nowMs ∨
      ack = false ∧ (r.draining ∨ r.deadlines.probe ≤ nowMs) then (false, c)
  else
    match r.budget with
    | none => (false, c)
    | some budget =>
      let (ready, budget) := budget.ready nowMs ack
      let r := { r with budget := some budget }
      if ready = false then (false, c.withRuntime r)
      else
        let (taken, process) := c.process.take r.lease ack nowMs
        if taken = false then (false, ⟨process, r⟩)
        else
          let r := { r with taken := r.taken + 1 }
          let (granted, budget) := budget.take nowMs ack
          let r := { r with budget := some budget }
          if granted = false then (false, ⟨process, r⟩)
          else
            (true, ⟨process, { r with
              sent := r.sent ++ [⟨r.attempt, r.draining, ack, handle, destination, bytes, nowMs⟩] }⟩)

/-- The first endpoint with an id is promoted. -/
def markPromoted (id : Nat) : List Endpoint → List Endpoint
  | [] => []
  | e :: rest => if e.id = id then { e with promoted := true } :: rest else e :: markPromoted id rest

def promote (c : Context) (id : Nat) (promotes : Bool) : Context :=
  let r := c.runtime
  if r.pool = false ∨ r.stopped then c
  else
    match r.endpoints.find? (·.id = id) with
    | none => c
    | some endpoint =>
      if endpoint.promoted ∨ r.agreed.promotedEndpointLimit ≤ r.promoted ∨ promotes = false then c
      else
        c.withRuntime { r with
          endpoints := markPromoted id r.endpoints
          promoted := r.promoted + 1
          promotions := r.promotions ++ [id] }

/-- A probe from an endpoint; `false` ends the burst. -/
def probe (c : Context) (index : Nat) (nowMs : Int) (answers : BurstAnswers) : Bool × Context :=
  let r := c.runtime
  match r.endpoints[if r.pool then index else 0]? with
  | none => (false, c)
  | some endpoint =>
    if endpoint.promoted then (true, c.withSchedule nowMs)
    else
      match answers.nonce with
      | none => (false, c.stop lib "resources" true)
      | some nonce =>
        if r.sequence = 0 then (false, c.stop lib "resources" true)
        else
          let destination := if r.pool then r.anchor else ⟨r.peerIp, r.ports.getD index 0⟩
          let bytes := c.encodeProbe lib .probe (probePayload ⟨BitVec.ofNat 64 endpoint.id, nonce⟩)
          let (emitted, c) := c.emit endpoint.id destination bytes nowMs false
          if emitted = false then (false, c)
          else
            let outstanding := c.runtime.outstanding
            (true, (c.withRuntime { c.runtime with
              sequence := c.runtime.sequence + 1
              issued := c.runtime.issued ++ [bytes]
              outstanding :=
                if outstanding.any (·.1 = nonce) then outstanding
                else outstanding ++ [(nonce, ⟨endpoint.id, destination⟩)] }).withSchedule nowMs)

/-- One turn of the loop of `Tick`, in which at most one packet is sent. -/
def burst (c : Context) (nowMs : Int) (left : Nat) (answers : BurstAnswers) : Context :=
  let r := c.runtime
  if left = 0 then c.inPhase .idle
  else
    match r.acks with
    | ack :: _ =>
      let (emitted, c) := c.emit ack.handle ack.destination ack.bytes nowMs true
      if emitted = false then c.inPhase .idle
      else
        let c := c.withRuntime { c.runtime with acks := c.runtime.acks.tail }
        (c.promote ack.handle answers.promotes).inPhase (.bursting nowMs (left - 1))
    | [] =>
      if r.draining then c.inPhase .idle
      else
        match r.schedule.bind (·.peek nowMs) with
        | none => c.inPhase .idle
        | some index =>
          let (sent, c) := c.probe lib index nowMs answers
          c.inPhase (if sent then .bursting nowMs (left - 1) else .idle)

/-- An ACK of the peer that answers a probe from the endpoint it came to. -/
def directAck (c : Context) (p : DirectPacket) (probe : Probe) (promotes : Bool) : Context :=
  let r := c.runtime
  match r.outstanding.find? (·.1 = probe.nonce) with
  | none => c
  | some (_, found) =>
    if found.handle ≠ p.handle ∨ probe.socket.toNat ≠ p.handle ∨ found.destination ≠ p.address then c
    else
      (c.withRuntime { r with
        outstanding := r.outstanding.filter (·.1 ≠ probe.nonce) }).promote p.handle promotes

/-- A probe of the peer, which is answered once; what was answered before is answered again. -/
def directProbe (c : Context) (p : DirectPacket) (packet : Packet) : Context :=
  let r := c.runtime
  if 8 ≤ r.acks.length ∨ r.sequence = 0 then c
  else
    match r.ackCache.find packet.sequence.toNat with
    | some cached => c.withRuntime { r with acks := r.acks ++ [cached] }
    | none =>
      let bytes := c.encodeProbe lib .ack packet.payload
      let response : Ack := ⟨p.handle, p.address, bytes⟩
      let cache := if r.ackCache.entries.length = 256 then
          match r.ackCache.first with
          | some (oldest, _) => r.ackCache.erase oldest
          | none => r.ackCache
        else r.ackCache
      c.withRuntime { r with
        sequence := r.sequence + 1
        issued := r.issued ++ [bytes]
        ackCache := cache.emplace packet.sequence.toNat response
        acks := r.acks ++ [response] }

def direct (c : Context) (p : DirectPacket) (nowMs : Int) (promotes : Bool) : Context :=
  let r := c.runtime
  if r.stopped ∨ r.budget.isNone ∨ r.deadlines.finish ≤ nowMs ∨ p.epoch ≠ r.epoch then c
  else
    match r.endpoints.find? (·.id = p.handle) with
    | none => c
    | some endpoint =>
      if endpoint.bound ≠ p.baseAddress ∨ p.address.ip ≠ r.peerIp ∨
          r.pool = true ∧ p.address ≠ r.anchor then c
      else
        match decode lib.parse lib.hmac p.bytes (r.probeKey false) .probe r.generation with
        | none => c
        | some packet =>
          if packet.round ≠ r.round then c
          else
            let (replay, window) := r.probeReplay.accept packet.sequence.toNat (lib.sha p.bytes)
            let c := c.withRuntime { r with probeReplay := window }
            if replay = .tooOld ∨ replay = .conflict then c
            else
              match parseProbe packet.payload with
              | none => c
              | some probe =>
                if packet.kind = .ack then c.directAck p probe promotes
                else c.directProbe lib p packet

/-- What is left of a call. -/
def proceed (c : Context) (answers : BurstAnswers) : Context :=
  match c.runtime.phase with
  | .idle => c
  | .stopping => (c.stop lib "resources" true).inPhase .idle
  | .draining nowMs => c.tickDrain nowMs
  | .bursting nowMs left => c.burst lib nowMs left answers

end Probing

end Context

/-! ### The runs of a process -/

open Context in
inductive Call where
  | begin (hello : Option Json) (nowMs : Int)
  | tick (nowMs : Int) (answers : TickAnswers)
  | control (data : Bytes) (nowMs : Int) (answers : ControlAnswers)
  | direct (packet : DirectPacket) (nowMs : Int) (promotes : Bool)
  | stop (reason : String) (notify : Bool)

def Context.call (lib : Library) (c : Context) : Call → Context
  | .begin hello nowMs => c.begin lib hello nowMs
  | .tick nowMs answers => c.tick lib nowMs answers
  | .control data nowMs answers => c.control lib data nowMs answers
  | .direct packet nowMs promotes => c.direct lib packet nowMs promotes
  | .stop reason notify => c.stop lib reason notify

/-- What a run is made for. -/
structure Purpose where
  offer : Bool
  retryEnabled : Bool
  epoch : Nat
  config : PunchConfig
  keys : Keys
  generation : Id
  originalDeadline : Int

def PunchRuntime.new (p : Purpose) : PunchRuntime where
  offer := p.offer
  retryEnabled := p.retryEnabled
  epoch := p.epoch
  localConfig := p.config
  keys := p.keys
  generation := p.generation
  originalDeadline := p.originalDeadline
  agreed := p.config

structure World where
  process : PunchProcessBudget := {}
  runtimes : List PunchRuntime := []

/-- A call starts when the one before has returned. -/
inductive Event where
  | create (purpose : Purpose)
  | call (run : Nat) (call : Call)
  | proceed (run : Nat) (answers : Context.BurstAnswers)

namespace World

/-- One run and what it shares. -/
def context (w : World) (runtime : PunchRuntime) : Context := ⟨w.process, runtime⟩

def update (w : World) (run : Nat) (c : Context) : World where
  process := c.process
  runtimes := w.runtimes.set run c.runtime

def step (lib : Library) (w : World) : Event → Option World
  | .create purpose => some { w with runtimes := w.runtimes ++ [.new purpose] }
  | .call run call =>
    match w.runtimes[run]? with
    | none => none
    | some r => if r.phase = .idle then some (w.update run ((w.context r).call lib call)) else none
  | .proceed run answers =>
    match w.runtimes[run]? with
    | none => none
    | some r => some (w.update run ((w.context r).proceed lib answers))

end World

end MiniRtc.Ice.Punch
