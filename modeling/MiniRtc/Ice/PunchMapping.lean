import MiniRtc.Lib.JsonDump
import MiniRtc.Ice.PunchRuntime

/-! The mappings that both sides observe and what they agree to (punch_scheduler.cpp,
punch_protocol.cpp, nat_traversal.h): the classification of a mapping, the HELLO that reports it, and
the plan that both sides compute from the two HELLOs. SHA-256 and the text of a float are parameters. -/

namespace Json

/-- A number as an unsigned one of so many bits. -/
def bits (width : Nat) : Json → BitVec width
  | .integer v | .unsigned v => v.setWidth width
  | _ => 0

end Json

namespace MiniRtc.Ice.Punch
open Wire

/-! ### Mappings -/

structure PunchMappingSample where
  socket : BitVec 64 := 0
  generation : BitVec 64 := 0
  serverIp : String := ""
  mappedIp : String := ""
  serverPort : BitVec 16 := 0
  mappedPort : BitVec 16 := 0
  receivedMs : Int := 0
  sequence : BitVec 32 := 0
deriving DecidableEq, Repr

structure PunchMappingSnapshot where
  socket : BitVec 64 := 0
  generation : BitVec 64 := 0
  localIp : String := ""
  foundation : String := ""
  localPort : BitVec 16 := 0
  component : BitVec 32 := 1
  samples : List PunchMappingSample := []
deriving DecidableEq, Repr

inductive PunchMapping where
  | unknown | stableObserved | dependentObserved
deriving DecidableEq, Repr

/-- One number of an address, how many digits it has, and what follows; leading zeros are taken. -/
def publicNumber : List Char → Nat → Nat → Option (Nat × Nat × List Char)
  | [], n, count => some (n, count, [])
  | c :: rest, n, count =>
    if '0' ≤ c ∧ c ≤ '9' then
      let n := n * 10 + (c.toNat - '0'.toNat)
      if 255 < n ∨ 3 < count + 1 then none else publicNumber rest n (count + 1)
    else some (n, count, c :: rest)

/-- The numbers of an address, with the number of dots that are still to come. -/
def publicNumbers : Nat → List Char → Option (List Nat)
  | dots, ip =>
    match publicNumber ip 0 0 with
    | none => none
    | some (n, count, rest) =>
      if count = 0 then none
      else
        match dots, rest with
        | 0, rest => if rest.isEmpty then some [n] else none
        | dots + 1, '.' :: rest => (publicNumbers dots rest).map (n :: ·)
        | _, _ => none

def isPublicIpv4ForPrediction (ip : String) : Bool :=
  match publicNumbers 3 ip.toList with
  | some [a, b, c, _] =>
    a ≠ 0 && a ≠ 10 && a ≠ 127 && a < 224 && !(a = 100 && 64 ≤ b && b ≤ 127) && !(a = 169 && b = 254) &&
      !(a = 172 && 16 ≤ b && b ≤ 31) && !(a = 192 && (b = 168 || (b = 0 && c = 0))) &&
      !(a = 198 && (b = 18 || b = 19))
  | _ => false

/-- The sample cannot be used. -/
def PunchMappingSample.rejected (socket generation : BitVec 64) (nowMs : Int) (maxAgeMs : Nat)
    (sample : PunchMappingSample) : Bool :=
  sample.socket ≠ socket || sample.generation ≠ generation || nowMs < sample.receivedMs ||
    maxAgeMs < nowMs - sample.receivedMs || !isPublicIpv4ForPrediction sample.serverIp || sample.serverPort = 0 ||
    !isPublicIpv4ForPrediction sample.mappedIp || sample.mappedPort = 0

/-- The loop over the samples: the servers and the ports, if all samples can be used. -/
def observeSamples (socket generation : BitVec 64) (nowMs : Int) (maxAgeMs : Nat) :
    List PunchMappingSample → String → Finset String → Finset (BitVec 16) →
    Option (Finset String × Finset (BitVec 16))
  | [], _, servers, ports => some (servers, ports)
  | sample :: samples, ip, servers, ports =>
    if sample.rejected socket generation nowMs maxAgeMs then none
    else if ip ≠ "" ∧ ip ≠ sample.mappedIp then none
    else
      observeSamples socket generation nowMs maxAgeMs samples sample.mappedIp (insert sample.serverIp servers)
        (insert sample.mappedPort ports)

def ClassifyPunchMapping (s : PunchMappingSnapshot) (generation : BitVec 64) (nowMs : Int) (maxAgeMs : Nat) :
    PunchMapping :=
  if s.socket = 0 ∨ generation = 0 ∨ s.generation ≠ generation ∨ s.localPort = 0 ∨ validIpv4 s.localIp = false ∨
      s.component ≠ 1 ∨ s.foundation = "" ∨ s.samples.length < 2 ∨ 32 < s.samples.length then .unknown
  else
    match observeSamples s.socket generation nowMs maxAgeMs s.samples "" ∅ ∅ with
    | none => .unknown
    | some (servers, ports) =>
      if servers.card < 2 then .unknown else if ports.card = 1 then .stableObserved else .dependentObserved

/-! ### HELLO -/

section Payloads

variable (float : BitVec 64 → List Char)

def ControlPayload (kind : Kind) (j : Json) : Bytes :=
  if schema kind j = false then []
  else
    let s := Json.utf8 (j.dump float)
    if s.length ≤ kControlMax - kHeaderSize - kTagSize then s else []

def PunchBudgetJson (c : PunchConfig) : Json := .object [
  ("burst_packets", .unsigned (BitVec.ofNat 64 c.burstPackets)),
  ("control_packet_budget", .unsigned (BitVec.ofNat 64 c.controlPacketBudget)),
  ("ice_finish_reserve_ms", .unsigned (BitVec.ofNat 64 c.iceFinishReserveMs)),
  ("pool_probe_rounds", .unsigned (BitVec.ofNat 64 c.poolProbeRounds)),
  ("pool_size", .unsigned (BitVec.ofNat 64 c.sockets)),
  ("probe_packet_budget", .unsigned (BitVec.ofNat 64 c.probePacketBudget)),
  ("probe_pps", .unsigned (BitVec.ofNat 64 c.probePps)),
  ("promoted_endpoint_limit", .unsigned (BitVec.ofNat 64 c.promotedEndpointLimit)),
  ("round_duration_ms", .unsigned (BitVec.ofNat 64 c.roundDurationMs)),
  ("target_port_count", .unsigned (BitVec.ofNat 64 c.targetPortCount))]

/-- The first sample, and the first with another port. -/
def contradiction (ordered : List PunchMappingSample) : List PunchMappingSample :=
  match ordered with
  | [] => []
  | first :: _ =>
    match ordered.find? fun v => v.mappedPort ≠ first.mappedPort with
    | some v => [first, v]
    | none => [first]

/-- Samples of other servers, until there are three. -/
def addServers : List PunchMappingSample → List PunchMappingSample → List PunchMappingSample
  | selected, [] => selected
  | selected, v :: ordered =>
    if 3 ≤ selected.length then selected
    else if selected.all fun x => x.serverIp ≠ v.serverIp then addServers (selected ++ [v]) ordered
    else addServers selected ordered

def selectSamples (samples : List PunchMappingSample) : List PunchMappingSample :=
  let ordered := samples.mergeSort fun a b => a.sequence.toNat ≤ b.sequence.toNat
  addServers (contradiction ordered) ordered

def sampleJson (nowMs : Int) (v : PunchMappingSample) : Json := .object [
  ("age_ms", .integer (BitVec.ofInt 64 (nowMs - v.receivedMs))),
  ("ip", .string v.mappedIp),
  ("port", .unsigned (v.mappedPort.setWidth 64)),
  ("sequence", .unsigned (v.sequence.setWidth 64)),
  ("server", .string v.serverIp),
  ("server_port", .unsigned (v.serverPort.setWidth 64))]

def helloJson (s : PunchMappingSnapshot) (c : PunchConfig) (nowMs remainingMs : Int) (retry : Bool) : Json := .object [
  ("base", .object [
    ("component", .unsigned (s.component.setWidth 64)),
    ("foundation", .string s.foundation),
    ("ip", .string s.localIp),
    ("port", .unsigned (s.localPort.setWidth 64)),
    ("socket", .unsigned s.socket)]),
  ("budget", PunchBudgetJson c),
  ("mode", .string (if retry then "pool-wide-retry" else "pool-wide")),
  ("remaining_ms", .integer (BitVec.ofInt 64 remainingMs)),
  ("samples", .array ((selectSamples s.samples).map (sampleJson nowMs)))]

def PunchHello (s : PunchMappingSnapshot) (c : PunchConfig) (generation : BitVec 64) (nowMs remainingMs : Int)
    (retry : Bool) : Option Json :=
  if c.enabled = false ∨ c.validate = false ∨ remainingMs ≤ 0 ∨ 30000 < remainingMs ∨
      ClassifyPunchMapping s generation nowMs c.mappingSampleMaxAgeMs = .unknown then none
  else if ControlPayload float .hello (helloJson s c nowMs remainingMs retry) = [] then none
  else some (helloJson s c nowMs remainingMs retry)

/-! ### The plan -/

def helloSample (socket : BitVec 64) (v : Json) : PunchMappingSample where
  socket
  generation := 1
  serverIp := (v.item "server").text
  mappedIp := (v.item "ip").text
  serverPort := (v.item "server_port").bits 16
  mappedPort := (v.item "port").bits 16
  receivedMs := 15000 - ((v.item "age_ms").bits 64).toInt
  sequence := (v.item "sequence").bits 32

def helloSnapshot (h : Json) : PunchMappingSnapshot where
  socket := ((h.item "base").item "socket").bits 64
  generation := 1
  localIp := ((h.item "base").item "ip").text
  localPort := ((h.item "base").item "port").bits 16
  foundation := ((h.item "base").item "foundation").text
  samples := (h.item "samples").items.map (helloSample (((h.item "base").item "socket").bits 64))

def ClassifyHello (h : Json) : PunchMapping := ClassifyPunchMapping (helloSnapshot h) 1 15000 15000

/-- Each number of the budget is the smaller one, but for the reserve. -/
def mergeBudget (offer answer : Json) : Json :=
  match offer with
  | .object fields => .object (fields.map fun f =>
      let x := f.2.uint
      let y := (answer.item f.1).uint
      (f.1, .unsigned (BitVec.ofNat 64 (if f.1 = "ice_finish_reserve_ms" then max x y else min x y))))
  | j => j

/-- The difference of two unsigned numbers of 32 bits. -/
def sub32 (x y : Nat) : Nat := (x + (2 ^ 32 - y % 2 ^ 32)) % 2 ^ 32

def digest (sha : Bytes → Block 32) (bytes : Bytes) : String :=
  String.ofList ((sha bytes).octets.flatMap fun c : Byte =>
    [Json.hexDigit (c >>> 4).toNat, Json.hexDigit (c &&& 15).toNat])

def planJson (sha : Bytes → Block 32) (offer answer budget : Json) (duration : Nat) (anchorOffer : Bool) : Json :=
  let anchor := if anchorOffer then offer else answer
  let pool := if anchorOffer then answer else offer
  .object [
    ("anchor", .string (if anchorOffer then "offer" else "answer")),
    ("anchor_endpoint", .object [
      ("ip", ((anchor.item "samples").items.headD .null).item "ip"),
      ("port", ((anchor.item "samples").items.headD .null).item "port")]),
    ("answer_hello", .string (digest sha (ControlPayload float .hello answer))),
    ("budget", budget),
    ("duration_ms", .unsigned (BitVec.ofNat 64 duration)),
    ("offer_hello", .string (digest sha (ControlPayload float .hello offer))),
    ("peer_ip", ((pool.item "samples").items.headD .null).item "ip")]

/-- The plan, once it is known which side is the anchor. -/
def planFor (sha : Bytes → Block 32) (offer answer : Json) (anchorOffer : Bool) : Option Json :=
  let budget := mergeBudget (offer.item "budget") (answer.item "budget")
  let remaining := min (offer.item "remaining_ms").uint (answer.item "remaining_ms").uint
  let reserve := (budget.item "ice_finish_reserve_ms").uint
  if remaining ≤ (reserve + 3000) % 2 ^ 32 then none
  else
    let duration := min (budget.item "round_duration_ms").uint (sub32 (sub32 remaining reserve) 3000)
    let plan := planJson float sha offer answer budget duration anchorOffer
    if ControlPayload float .prepare plan = [] then none else some plan

def MakePunchPlan (sha : Bytes → Block 32) (offer answer : Json) : Option Json :=
  if ControlPayload float .hello offer = [] ∨ ControlPayload float .hello answer = [] ∨
      (offer.item "mode").text ≠ (answer.item "mode").text then none
  else if ClassifyHello offer = .stableObserved ∧ ClassifyHello answer = .dependentObserved then
    planFor float sha offer answer true
  else if ClassifyHello answer = .stableObserved ∧ ClassifyHello offer = .dependentObserved then
    planFor float sha offer answer false
  else none

end Payloads

end MiniRtc.Ice.Punch
