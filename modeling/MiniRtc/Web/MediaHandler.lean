import MiniRtc.Lib.Bytes
import MiniRtc.Lib.SortedMap

/-! The media handler of a browser connection (web_media_handler.cpp): the queue of the paced
packets, the cache of the sent ones, and the repairs that the browser asks for.
The budget of the QoS controller and the answers of the token buckets, which count in floating
point, are arguments. What only the encoder or the QoS controller reads is left out. -/
namespace MiniRtc.Web
open Wire

def kMaxQueuedBytes : Int := 1024 * 1024
def kMaxCacheBytes : Int := 2 * 1024 * 1024
def kPacketOverhead : Int := 64
def kAbsSendTimeId : Nat := 3

structure Message where
  control : Bool := false
  data : Bytes
deriving DecidableEq

def Message.size (m : Message) : Int := m.data.length

/-- The length of the fixed header and the contributing sources. -/
def headerSize (packet : Bytes) : Nat := 12 + ((byteAt packet 0).toNat &&& 15) * 4

def hasExtension (packet : Bytes) : Bool := (byteAt packet 0).toNat &&& 16 ≠ 0

def addSendTimeExtension (packet : Bytes) : Bytes :=
  if packet.length < 12 then packet
  else
    let offset := headerSize packet
    if hasExtension packet ∨ packet.length < offset then packet
    else
      let packet := packet.take offset ++ List.replicate 8 0 ++ packet.drop offset
      let packet := overwrite packet 0 [byteAt packet 0 ||| 16]
      overwrite packet offset [0xbe, 0xde, 0, 1, BitVec.ofNat 8 (kAbsSendTimeId <<< 4 ||| 2)]

/-- The absolute send time of a clock reading in microseconds. -/
def sendTime (us : Nat) : Nat :=
  (us / 1000000 % 64) <<< 18 ||| ((us % 1000000) <<< 18) / 1000000

def stampSendTime (packet : Bytes) (us : Nat) : Bytes :=
  let offset := headerSize packet
  if hasExtension packet = false ∨ packet.length < offset + 8 ∨ byteAt packet offset ≠ 0xbe ∨
      byteAt packet (offset + 1) ≠ 0xde ∨
      byteAt packet (offset + 4) ≠ BitVec.ofNat 8 (kAbsSendTimeId <<< 4 ||| 2) then packet
  else
    let stamp := sendTime us
    overwrite packet (offset + 5)
      [BitVec.ofNat 8 (stamp >>> 16), BitVec.ofNat 8 (stamp >>> 8), BitVec.ofNat 8 stamp]

/-- The units of an aggregation packet, as long as `fuel` lasts. -/
def aggregatesIdr : Nat → Bytes → Bool
  | 0, _ => false
  | fuel + 1, b =>
    if b.length ≤ 2 then false
    else
      let size := (get16 b 0).toNat
      let b := b.drop 2
      if size = 0 ∨ b.length < size then false
      else if (byteAt b 0).toNat &&& 31 = 5 then true
      else aggregatesIdr fuel (b.drop size)

def isKeyFrame (packet : Bytes) : Bool :=
  let offset := headerSize packet
  if packet.length < 12 ∨ (hasExtension packet ∧ packet.length < offset + 4) then false
  else
    let offset := if hasExtension packet then offset + 4 + (get16 packet (offset + 2)).toNat * 4 else offset
    if packet.length ≤ offset then false
    else
      let type := (byteAt packet offset).toNat &&& 31
      if type = 5 then true
      else if type = 28 ∧ offset + 1 < packet.length then
        (byteAt packet (offset + 1)).toNat &&& 0x9f = 0x85
      else if type = 24 then aggregatesIdr packet.length (packet.drop (offset + 1))
      else false

/-- A packet of the queue. Which access unit it is of, and whether that is a key frame, is not in
the source. -/
structure Packet where
  message : Message
  ssrc : BitVec 32
  enqueuedMs : Int
  deadlineMs : Int
  isRepair : Bool := false
  unit : Nat
  keyframe : Bool
deriving DecidableEq

def Packet.cost (p : Packet) : Int := p.message.size + kPacketOverhead

def Packet.sequence (p : Packet) : BitVec 16 := get16 p.message.data 2

structure CachedPacket where
  packet : Packet
  sentMs : Int
  lastRepairMs : Int := -1
  repairs : Nat := 0
deriving DecidableEq

structure StreamState where
  waitingForKeyframe : Bool := true
  requestKeyframe : Bool := true
  sequenceStarted : Bool := false
  nextSequence : BitVec 16 := 0
deriving DecidableEq

structure Budget where
  networkBps : Int := 0
  rttMs : Int := 0
deriving DecidableEq

structure WebMediaHandler where
  frameDeadlineMs : Int := 250
  budget : Budget := {}
  streams : BitVec 32 → Option StreamState := fun _ => none
  packets : List Packet := []
  queuedBytes : Int := 0
  cache : SortedMap Nat CachedPacket := SortedMap.empty
  cacheBytes : Int := 0

def packetKey (ssrc : BitVec 32) (seq : BitVec 16) : Nat := ssrc.toNat <<< 16 ||| seq.toNat

namespace WebMediaHandler

def setStream (h : WebMediaHandler) (ssrc : BitVec 32) (s : StreamState) : WebMediaHandler :=
  { h with streams := Function.update h.streams ssrc (some s) }

def registerStream (h : WebMediaHandler) (ssrc : BitVec 32) : WebMediaHandler :=
  if h.streams ssrc = none then h.setStream ssrc {} else h

def setFrameDeadline (h : WebMediaHandler) (deadlineMs : Int) : WebMediaHandler :=
  { h with frameDeadlineMs := max 250 (min 1000 deadlineMs) }

/-! ### Discarding -/

/-- The loop over the queue. -/
def dropPackets (ssrc : BitVec 32) : List Packet → Int → List Packet × Int
  | [], queuedBytes => ([], queuedBytes)
  | p :: rest, queuedBytes =>
    if p.ssrc = ssrc then dropPackets ssrc rest (queuedBytes - p.cost)
    else
      let (kept, queuedBytes) := dropPackets ssrc rest queuedBytes
      (p :: kept, queuedBytes)

/-- A loop over the cache: what is to go is looked at with the bytes that are still there. -/
def dropCached (goes : CachedPacket → Int → Bool) :
    List Nat → SortedMap Nat CachedPacket × Int → SortedMap Nat CachedPacket × Int
  | [], state => state
  | key :: keys, (cache, cacheBytes) =>
    match cache.find key with
    | some c =>
      if goes c cacheBytes then dropCached goes keys (cache.erase key, cacheBytes - c.packet.message.size)
      else dropCached goes keys (cache, cacheBytes)
    | none => dropCached goes keys (cache, cacheBytes)

def cacheKeys (h : WebMediaHandler) : List Nat := h.cache.entries.map Prod.fst

def discardStreamPackets (h : WebMediaHandler) (ssrc : BitVec 32) : WebMediaHandler :=
  let (packets, queuedBytes) := dropPackets ssrc h.packets h.queuedBytes
  let (cache, cacheBytes) := dropCached (fun c _ => c.packet.ssrc = ssrc) h.cacheKeys (h.cache, h.cacheBytes)
  { h with packets, queuedBytes, cache, cacheBytes }

def recover (h : WebMediaHandler) (ssrc : BitVec 32) : WebMediaHandler :=
  match h.streams ssrc with
  | some s =>
    (h.setStream ssrc { s with
      waitingForKeyframe := true
      requestKeyframe := true }).discardStreamPackets ssrc
  | none => h

/-! ### Access units -/

/-- The packets of an access unit: the control messages pass by, and what has no RTP header is
dropped. -/
def mediaOf (messages : List Message) : List Message :=
  (messages.filter fun m => !m.control && 12 ≤ m.data.length).map fun m =>
    { m with data := addSendTimeExtension m.data }

inductive Outgoing where
  | nothing
  | refused (ssrc : BitVec 32)
  | recovered (ssrc : BitVec 32)
  | accepted (ssrc : BitVec 32) (keyframe : Bool)
deriving DecidableEq

/-- The packets that an accepted access unit adds to the queue. -/
def packetsOf (media : List Message) (ssrc : BitVec 32) (nowMs deadlineMs : Int) (unit : Nat)
    (keyframe : Bool) : List Packet :=
  media.map fun message =>
    { message, ssrc, enqueuedMs := nowMs, deadlineMs := nowMs + deadlineMs, unit, keyframe }

def enqueue (h : WebMediaHandler) (packets : List Packet) : WebMediaHandler :=
  { h with
    packets := h.packets ++ packets
    queuedBytes := packets.foldl (fun bytes p => bytes + p.cost) h.queuedBytes }

/-- `outgoing`, with the messages of one access unit. -/
def outgoing (h : WebMediaHandler) (messages : List Message) (nowMs : Int) (unit : Nat) :
    Outgoing × WebMediaHandler :=
  let media := mediaOf messages
  let bytes := (media.map fun m => m.size + kPacketOverhead).sum
  let keyframe := media.any fun m => isKeyFrame m.data
  match media.getLast? with
  | none => (.nothing, h)
  | some last =>
    let ssrc := get32 last.data 8
    let deadlineMs := if keyframe then 2000 else h.frameDeadlineMs
    match h.streams ssrc with
    | none => (.refused ssrc, h)
    | some s =>
      if s.waitingForKeyframe ∧ keyframe = false then (.refused ssrc, h)
      else if kMaxQueuedBytes < bytes + h.queuedBytes ∨
          deadlineMs < (bytes + h.queuedBytes) * 8000 / max 1 h.budget.networkBps then
        (.recovered ssrc, h.recover ssrc)
      else
        let h := if keyframe then
            (h.discardStreamPackets ssrc).setStream ssrc { s with
              waitingForKeyframe := false
              requestKeyframe := false }
          else h
        (.accepted ssrc keyframe, h.enqueue (packetsOf media ssrc nowMs deadlineMs unit keyframe))

/-! ### RTCP -/

def requestRepair (h : WebMediaHandler) (ssrc : BitVec 32) (seq : BitVec 16) (nowMs : Int)
    (affords : Bool) : WebMediaHandler :=
  match h.cache.find (packetKey ssrc seq) with
  | none => h
  | some cached =>
    let cost := cached.packet.cost
    if 2 ≤ cached.repairs ∨ 600 < nowMs - cached.sentMs ∨ cached.packet.deadlineMs ≤ nowMs ∨
        (0 ≤ cached.lastRepairMs ∧ nowMs - cached.lastRepairMs < max 30 h.budget.rttMs) ∨
        affords = false ∨ kMaxQueuedBytes < h.queuedBytes + cost then h
    else
      let cache := h.cache.update (packetKey ssrc seq) { cached with
        lastRepairMs := nowMs
        repairs := cached.repairs + 1 }
      let packet := { cached.packet with isRepair := true, enqueuedMs := nowMs }
      { h with cache, packets := packet :: h.packets, queuedBytes := h.queuedBytes + cost }

inductive RtcpAction where
  | requestKeyframe (ssrc : BitVec 32)
  | requestRepair (ssrc : BitVec 32) (seq : BitVec 16)
deriving DecidableEq, Repr

def repairsOf (ssrc : BitVec 32) (seq mask : BitVec 16) : List RtcpAction :=
  .requestRepair ssrc seq :: ((List.range 16).filter fun bit => mask.toNat.testBit bit).map fun bit =>
    .requestRepair ssrc (seq + BitVec.ofNat 16 bit + 1)

/-- What one block of feedback asks for. Reports and bandwidth estimates only change what the QoS
controller knows. -/
def blockActions (p : Bytes) (payloadSize : Nat) : List RtcpAction :=
  let count := (byteAt p 0).toNat &&& 31
  if byteAt p 1 = 206 ∧ 12 ≤ payloadSize ∧ count = 1 then [.requestKeyframe (get32 p 8)]
  else if byteAt p 1 = 206 ∧ 12 ≤ payloadSize ∧ count = 4 then
    (List.range ((payloadSize - 12) / 8)).map fun i => .requestKeyframe (get32 p (12 + 8 * i))
  else if byteAt p 1 = 205 ∧ count = 1 ∧ 16 ≤ payloadSize then
    (List.range ((payloadSize - 12) / 4)).flatMap fun i =>
      repairsOf (get32 p 8) (get16 p (12 + 4 * i)) (get16 p (14 + 4 * i))
  else []

/-- The loop of `HandleRtcpLocked` over a compound packet, as long as `fuel` lasts. -/
def rtcpActions : Nat → Bytes → List RtcpAction
  | 0, _ => []
  | fuel + 1, p =>
    if p.length < 4 then []
    else
      let length := ((get16 p 2).toNat + 1) * 4
      if (byteAt p 0).toNat >>> 6 ≠ 2 ∨ p.length < length then []
      else
        let padded : Bool := (byteAt p 0).toNat &&& 32 ≠ 0
        let padding := if padded then (byteAt p (length - 1)).toNat else 0
        if padded ∧ (padding = 0 ∨ length - 4 < padding) then []
        else blockActions p (length - padding) ++ rtcpActions fuel (p.drop length)

def perform (nowMs : Int) (affords : BitVec 32 → BitVec 16 → Bool) (h : WebMediaHandler) :
    RtcpAction → WebMediaHandler
  | .requestKeyframe ssrc =>
    match h.streams ssrc with
    | some s => h.setStream ssrc { s with requestKeyframe := true }
    | none => h
  | .requestRepair ssrc seq =>
    if h.streams ssrc = none then h else h.requestRepair ssrc seq nowMs (affords ssrc seq)

/-- `incoming`; `affords` are the answers of the token bucket of the repairs. -/
def incoming (h : WebMediaHandler) (messages : List Message) (nowMs : Int)
    (affords : BitVec 32 → BitVec 16 → Bool) : WebMediaHandler :=
  ((messages.filter Message.control).flatMap fun m => rtcpActions m.data.length m.data).foldl
    (perform nowMs affords) h

/-! ### Pacing -/

/-- The worker wakes up: a new budget, and what is too old leaves the cache. -/
def refresh (h : WebMediaHandler) (budget : Budget) (nowMs : Int) : WebMediaHandler :=
  let (cache, cacheBytes) := dropCached
    (fun c cacheBytes => 600 < nowMs - c.sentMs || c.packet.deadlineMs ≤ nowMs || kMaxCacheBytes < cacheBytes)
    h.cacheKeys (h.cache, h.cacheBytes)
  { h with budget, cache, cacheBytes }

/-- The cache without what an older packet left under a key. -/
def freeSlot (h : WebMediaHandler) (key : Nat) : SortedMap Nat CachedPacket × Int :=
  match h.cache.find key with
  | some old => (h.cache.erase key, h.cacheBytes - old.packet.message.size)
  | none => (h.cache, h.cacheBytes)

/-- The first send of a packet: it gets the next sequence number, and goes into the cache. -/
def departs (h : WebMediaHandler) (packet : Packet) (nowMs : Int) (us : Nat) :
    Packet × WebMediaHandler :=
  let data := stampSendTime packet.message.data us
  match h.streams packet.ssrc with
  | none => (packet, h)
  | some s =>
    let sequence := if s.sequenceStarted then s.nextSequence else get16 data 2
    let packet := { packet with message := { packet.message with data := overwrite data 2 (put16 sequence) } }
    let key := packetKey packet.ssrc packet.sequence
    let (cache, cacheBytes) := h.freeSlot key
    (packet, { h.setStream packet.ssrc { s with
        sequenceStarted := true
        nextSequence := sequence + 1 } with
      cache := cache.emplace key { packet, sentMs := nowMs }
      cacheBytes := cacheBytes + packet.message.size })

end WebMediaHandler

end MiniRtc.Web
