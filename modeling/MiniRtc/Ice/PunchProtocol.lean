import MiniRtc.Lib.Json
import MiniRtc.Lib.Octets

/-! The packets of the UDP punching (punch_protocol.cpp): a header, a payload and a tag.
The payload of a control packet is JSON with a schema for each kind, that of a probe has a fixed
form. HMAC and the JSON parser are parameters. -/
namespace MiniRtc.Ice.Punch
open Wire

abbrev Id := Block 16
abbrev Key := Block 32

def kHeaderSize : Nat := 44
def kTagSize : Nat := 16
def kControlMax : Nat := 1200
def kProbeSize : Nat := 80

/-- A kind is any octet, as a cast of the enumeration can be. -/
abbrev Kind := Byte

namespace Kind

def hello : Kind := 1
def prepare : Kind := 2
def ready : Kind := 3
def start : Kind := 4
def started : Kind := 5
def cancel : Kind := 7
def probe : Kind := 0x20
def ack : Kind := 0x21

end Kind

inductive Domain where
  | control
  | probe
deriving DecidableEq, Repr

structure Packet where
  kind : Kind
  generation : Id
  round : Id
  sequence : BitVec 32
  payload : Bytes
deriving DecidableEq

structure Probe where
  socket : BitVec 64
  nonce : Block 12
deriving DecidableEq

def magic : Bytes := [0xf3, 0x4d, 0x50, 0x31]

/-! ### Schemas -/

def fields (j : Json) (names : List String) : Bool :=
  j.isObject && j.size = names.length && names.all j.contains

def number (j : Json) (low high : Nat) : Bool :=
  match j with
  | .integer v => 0 ≤ v.toInt && low ≤ v.toNat && v.toNat ≤ high
  | .unsigned v => low ≤ v.toNat && v.toNat ≤ high
  | _ => false

def string (j : Json) (low high : Nat) : Bool :=
  match j with
  | .string s => low ≤ s.utf8ByteSize && s.utf8ByteSize ≤ high && !s.toList.contains (Char.ofNat 0)
  | _ => false

def hexDigest (j : Json) : Bool :=
  string j 64 64 &&
    match j with
    | .string s => s.toList.all fun c => ('0' ≤ c && c ≤ '9') || ('a' ≤ c && c ≤ 'f')
    | _ => false

/-- The digits of one number of an address: how many there are, and what follows. -/
def digits : List Char → Nat → Nat → Option (Nat × List Char)
  | [], _, count => some (count, [])
  | c :: rest, n, count =>
    if '0' ≤ c ∧ c ≤ '9' then
      let n := n * 10 + (c.toNat - '0'.toNat)
      if 255 < n ∨ 3 < count + 1 then none else digits rest n (count + 1)
    else some (count, c :: rest)

/-- The loop of `ValidIpv4`, with the number of dots that are still to come. -/
def validNumbers : Nat → List Char → Bool
  | dots, ip =>
    match digits ip 0 0 with
    | none => false
    | some (count, rest) =>
      if count = 0 ∨ (1 < count ∧ ip.head? = some '0') then false
      else
        match dots, rest with
        | 0, rest => rest.isEmpty
        | dots + 1, '.' :: rest => validNumbers dots rest
        | _, _ => false

def validIpv4 (ip : String) : Bool := validNumbers 3 ip.toList

def ip (j : Json) : Bool :=
  string j 7 15 &&
    match j with
    | .string s => validIpv4 s
    | _ => false

def endpoint (j : Json) : Bool :=
  fields j ["ip", "port"] && ip (j.item "ip") && number (j.item "port") 1 65535

def budgetNumbers : List (String × Nat × Nat) :=
  [("pool_size", 1, 128), ("target_port_count", 1, 1024), ("probe_pps", 1, 200),
    ("burst_packets", 1, 8), ("pool_probe_rounds", 1, 3), ("round_duration_ms", 1, 15000),
    ("ice_finish_reserve_ms", 3000, 15000), ("probe_packet_budget", 1, 1024),
    ("control_packet_budget", 1, 48), ("promoted_endpoint_limit", 1, 8)]

def budget (j : Json) : Bool :=
  fields j (budgetNumbers.map Prod.fst) &&
    budgetNumbers.all fun (name, low, high) => number (j.item name) low high

def base (j : Json) : Bool :=
  fields j ["ip", "port", "socket", "foundation", "component"] && ip (j.item "ip") &&
    number (j.item "port") 1 65535 && number (j.item "socket") 1 (2 ^ 64 - 1) &&
    string (j.item "foundation") 1 32 && number (j.item "component") 1 1

def sample (j : Json) : Bool :=
  fields j ["server", "server_port", "ip", "port", "age_ms", "sequence"] &&
    ip (j.item "server") && number (j.item "server_port") 1 65535 && ip (j.item "ip") &&
    number (j.item "port") 1 65535 && number (j.item "age_ms") 0 15000 &&
    number (j.item "sequence") 0 (2 ^ 32 - 1)

def cancelReasons : List String :=
  ["timeout", "state-change", "ineligible", "resources", "conflict", "disconnect",
    "interface-change", "generation-change", "budget"]

def schema (kind : Kind) (j : Json) : Bool :=
  if kind = .hello then
    fields j ["base", "samples", "budget", "remaining_ms", "mode"] && budget (j.item "budget") &&
      number (j.item "remaining_ms") 1 30000 &&
      ((j.item "mode").isString "pool-wide" || (j.item "mode").isString "pool-wide-retry") &&
      base (j.item "base") &&
      match j.item "samples" with
      | .array samples => samples.length ≤ 3 && samples.all sample
      | _ => false
  else if kind = .prepare then
    fields j ["anchor", "anchor_endpoint", "peer_ip", "budget", "duration_ms", "offer_hello",
        "answer_hello"] &&
      ((j.item "anchor").isString "offer" || (j.item "anchor").isString "answer") &&
      endpoint (j.item "anchor_endpoint") && ip (j.item "peer_ip") && budget (j.item "budget") &&
      number (j.item "duration_ms") 1 15000 && hexDigest (j.item "offer_hello") &&
      hexDigest (j.item "answer_hello")
  else if kind = .ready then
    fields j ["digest", "budget"] && hexDigest (j.item "digest") && budget (j.item "budget")
  else if kind = .start ∨ kind = .started then
    fields j ["digest"] && hexDigest (j.item "digest")
  else if kind = .cancel then
    fields j ["reason"] && string (j.item "reason") 1 32 &&
      cancelReasons.any (j.item "reason").isString
  else false

def known (kind : Kind) (domain : Domain) : Bool :=
  match domain with
  | .probe => kind = .probe || kind = .ack
  | .control => (1 ≤ kind.toNat && kind.toNat ≤ 5) || kind = .cancel

/-! ### Payloads -/

inductive ParseEvent where
  | objectStart
  | objectEnd
  | arrayStart
  | arrayEnd
  | key (name : String)
  | value
deriving DecidableEq, Repr

/-- What the callback of the parser keeps: the keys of the open objects, the innermost first. -/
structure KeyCheck where
  valid : Bool := true
  keys : List (Finset String) := []

def KeyCheck.callback (c : KeyCheck) (depth : Nat) (event : ParseEvent) : KeyCheck :=
  let c := if 8 < depth then { c with valid := false } else c
  match event, c.keys with
  | .objectStart, keys => { c with keys := ∅ :: keys }
  | .key _, [] => { c with valid := false }
  | .key name, last :: keys =>
    if name ∈ last then { c with valid := false } else { c with keys := insert name last :: keys }
  | .objectEnd, _ :: keys => { c with keys }
  | _, _ => c

/-- The JSON parser: the events that it tells the callback, each with its depth, and the value,
or `none` where it throws. -/
abbrev JsonParser := Bytes → Option (List (Nat × ParseEvent) × Json)

def parseControl (parse : JsonParser) (kind : Kind) (payload : Bytes) : Option Json :=
  if known kind .control = false ∨ kControlMax - kHeaderSize - kTagSize < payload.length then none
  else
    match parse payload with
    | none => none
    | some (events, j) =>
      let c := events.foldl (fun c e => c.callback e.1 e.2) ({} : KeyCheck)
      if c.valid && schema kind j then some j else none

def probePayload (p : Probe) : Bytes :=
  if p.socket = 0 then [] else put p.socket.toNat 8 ++ p.nonce.octets

def parseProbe (p : Bytes) : Option Probe :=
  if p.length ≠ 20 then none
  else
    let result : Probe := { socket := BitVec.ofNat 64 (get (slice p 0 8)), nonce := .read p 8 12 }
    if result.socket ≠ 0 then some result else none

/-! ### Packets -/

def isZero (id : Id) : Bool := id.octets.all fun n => n = 0

def isMagic (data : Bytes) : Bool := magic.length ≤ data.length && data.take magic.length = magic

section Codec

variable (parse : JsonParser) (hmac : Key → Bytes → Block 32)

def encode (p : Packet) (key : Key) : Bytes :=
  let domain : Domain := if p.kind = .probe ∨ p.kind = .ack then .probe else .control
  if p.sequence = 0 ∨ isZero p.generation ∨
      (if p.kind = .hello then !isZero p.round else isZero p.round) ∨
      (if domain = .control then (parseControl parse p.kind p.payload).isNone
        else (parseProbe p.payload).isNone) then []
  else
    let out := magic ++ [1] ++ [p.kind] ++ put p.payload.length 2 ++ p.generation.octets ++
      p.round.octets ++ put p.sequence.toNat 4 ++ p.payload
    out ++ (hmac key out).octets.take kTagSize

def decode (data : Bytes) (key : Key) (domain : Domain) (generation : Id) : Option Packet :=
  if isMagic data = false ∨ data.length < kHeaderSize + kTagSize ∨ kControlMax < data.length ∨
      byteAt data 4 ≠ 1 ∨ known (byteAt data 5) domain = false ∨
      data.length ≠ kHeaderSize + get (slice data 6 2) + kTagSize ∨
      (domain = .probe ∧ data.length ≠ kProbeSize) ∨ isZero generation ∨
      generation.octets ≠ slice data 8 16 then none
  else
    let size := data.length
    if (hmac key (data.take (size - kTagSize))).octets.take kTagSize ≠ data.drop (size - kTagSize) then
      none
    else
      let p : Packet := {
        kind := byteAt data 5
        generation
        round := .read data 24 16
        sequence := BitVec.ofNat 32 (get (slice data 40 4))
        payload := slice data kHeaderSize (size - kTagSize - kHeaderSize) }
      if p.sequence = 0 ∨ (if p.kind = .hello then !isZero p.round else isZero p.round) then none
      else if (if domain = .control then (parseControl parse p.kind p.payload).isNone
          else (parseProbe p.payload).isNone) then none
      else some p

end Codec

end MiniRtc.Ice.Punch
