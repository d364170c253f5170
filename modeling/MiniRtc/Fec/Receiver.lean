import MiniRtc.Fec.Sender
import MiniRtc.Lib.AgedCache

/-! The receiver of repairs (rtp_fec.cpp). Sources and blocks are held for a window. A block is
decoded as soon as its sources and repairs are enough, and what it restores is returned and becomes a
source. -/
namespace MiniRtc.Fec

open Wire AgedCache

def kFecWindowMs : Int := 150

structure Source where
  bytes : Bytes
  arrival : Int
deriving DecidableEq, Repr

/-- A block with the number under which it was opened, which is not in the source. -/
structure Block where
  serial : Nat
  timestamp : BitVec 32
  base : BitVec 16
  k : Nat
  r : Nat
  size : Nat
  arrival : Int
  done : Bool := false
  repairs : FecSymbols
  present : List Bool
deriving DecidableEq, Repr

/-- What the blocks have done. It is not in the source. -/
inductive BlockEvent where
  | ran (serial : Nat)
  | returned (serial : Nat) (packet : Bytes)
deriving DecidableEq, Repr

/-- RTP timestamp and base sequence number. -/
abbrev BlockKey := Nat ×ₗ Nat

abbrev Sources := SortedMap Nat Source

/-- Behind the fields of the source come the number of blocks that were opened, and what they did. -/
structure RtpFecReceiver (σ : Type) where
  mediaSsrc : BitVec 32
  repairSsrc : BitVec 32
  mediaPt : Byte
  sources : Sources := .empty
  blocks : SortedMap BlockKey Block := .empty
  stats : FecTransportStats := {}
  decoder : FecDecoder σ := none
  opened : Nat := 0
  log : List BlockEvent := []

/-- A packet that arrives becomes a source, unless there is one of its sequence number. -/
def cache (sources : Sources) (packet : Bytes) (nowMs : Int) : Sources :=
  let seq := (get16 packet 2).toNat
  if (sources.find seq).isSome then sources
  else (evict Source.arrival 512 sources).emplace seq ⟨packet, nowMs⟩

namespace Block

variable {σ : Type} (o : OpenFec σ) (b : Block)

def seqAt (i : Nat) : BitVec 16 := b.base + BitVec.ofNat 16 i

/-- The sources of the block that are held. -/
def gather (sources : Sources) : List (Option Bytes) :=
  (List.range b.k).map fun i =>
    ((sources.find (b.seqAt i).toNat).map (·.bytes)).filter fun bytes => get32 bytes 4 = b.timestamp

/-- The symbols of a block go to the decoder, repairs only until it is complete. -/
def feed (gathered : List (Option Bytes)) (d : FecDecoder σ) : FecDecoder σ :=
  let d := gathered.zipIdx.foldl (fun d e =>
    match e.1 with
    | none => d
    | some bytes => (d.addSymbol o e.2 (some (padded b.size bytes))).2) d
  (List.range b.r).foldl (fun d i =>
    if d.complete then d
    else if b.present.getD i false then (d.addSymbol o (b.k + i) (some (symbolAt b.repairs i))).2
    else d) d

/-- The packet in a decoded symbol. -/
def restored (mediaSsrc : BitVec 32) (mediaPt : Byte) (symbols : FecSymbols) (i : Nat) : Option Bytes :=
  let symbol := symbolAt symbols i
  let length := (get16 symbol 0).toNat
  let p := slice symbol 2 length
  if b.size - 2 < length ∨ headerSize p = 0 ∨ get32 p 8 ≠ mediaSsrc ∨ get32 p 4 ≠ b.timestamp ∨
      get16 p 2 ≠ b.seqAt i ∨ byteAt p 1 &&& 127#8 ≠ mediaPt then none
  else some p

/-- The indexes whose sources are not held. -/
def missing (gathered : List (Option Bytes)) : List Nat :=
  (List.range b.k).filter fun i => (gathered.getD i none).isNone

def restoreAll (mediaSsrc : BitVec 32) (mediaPt : Byte) (symbols : FecSymbols) (gathered : List (Option Bytes)) :
    Option FecSymbols :=
  (b.missing gathered).mapM (b.restored mediaSsrc mediaPt symbols)

end Block

namespace RtpFecReceiver

variable {σ : Type} (o : OpenFec σ)

def new (mediaSsrc repairSsrc : BitVec 32) (mediaPt : Byte) : RtpFecReceiver σ := { mediaSsrc, repairSsrc, mediaPt }

def reject (r : RtpFecReceiver σ) : RtpFecReceiver σ :=
  { r with stats := { r.stats with rejectedPackets := r.stats.rejectedPackets + 1 } }

def codecError (r : RtpFecReceiver σ) : RtpFecReceiver σ :=
  { r with stats := { r.stats with codecErrors := r.stats.codecErrors + 1 } }

/-- Blocks that are given up while they are not done. -/
def countExpired (r : RtpFecReceiver σ) (count : Nat) : RtpFecReceiver σ :=
  { r with stats := { r.stats with expiredBlocks := r.stats.expiredBlocks + count } }

def expire (r : RtpFecReceiver σ) (nowMs : Int) : RtpFecReceiver σ :=
  let gone := r.blocks.entries.countP fun e => !isRecent Block.arrival kFecWindowMs nowMs e.2 && !e.2.done
  { r.countExpired gone with
    sources := AgedCache.expire Source.arrival kFecWindowMs nowMs r.sources
    blocks := AgedCache.expire Block.arrival kFecWindowMs nowMs r.blocks }

def setBlock (r : RtpFecReceiver σ) (key : BlockKey) (b : Block) : RtpFecReceiver σ :=
  { r with blocks := r.blocks.update key b }

/-- The block is done; the decoder runs. -/
def decode (r : RtpFecReceiver σ) (key : BlockKey) (b : Block) (gathered : List (Option Bytes)) :
    FecSymbols × RtpFecReceiver σ :=
  let r := { r with log := r.log ++ [BlockEvent.ran b.serial] }
  let (ready, decoder) := r.decoder.reset o b.k b.r b.size
  if ready = false then ([], ({ r with decoder }.setBlock key { b with done := true }).codecError)
  else
    let decoder := b.feed o gathered decoder
    let r := { r with decoder }.setBlock key { b with done := true, repairs := [] }
    if decoder.complete = false then ([], r.codecError)
    else
      match b.restoreAll r.mediaSsrc r.mediaPt decoder.symbols gathered with
      | none => ([], r.reject)
      | some result =>
        (result,
          { r with
            stats := { r.stats with recoveredPackets := r.stats.recoveredPackets + result.length }
            log := r.log ++ result.map (BlockEvent.returned b.serial) })

def tryDecode (r : RtpFecReceiver σ) (key : BlockKey) : FecSymbols × RtpFecReceiver σ :=
  match r.blocks.find key with
  | none => ([], r)
  | some b =>
    if b.done then ([], r)
    else
      let gathered := b.gather r.sources
      if gathered.any fun p => p.any fun bytes => b.size < bytes.length + 2 then
        ([], (r.setBlock key { b with done := true }).reject)
      else if gathered.countP (·.isSome) = b.k then ([], r.setBlock key { b with done := true, repairs := [] })
      else if gathered.countP (·.isSome) + b.present.count true < b.k then ([], r)
      else r.decode o key b gathered

/-- The blocks in the order of their keys. -/
def tryDecodeAll (r : RtpFecReceiver σ) : List BlockKey → FecSymbols × RtpFecReceiver σ
  | [] => ([], r)
  | key :: keys =>
    let (recovered, r) := r.tryDecode o key
    let (others, r) := r.tryDecodeAll keys
    (recovered ++ others, r)

def cacheAll (r : RtpFecReceiver σ) (packets : FecSymbols) (nowMs : Int) : RtpFecReceiver σ :=
  { r with sources := packets.foldl (fun sources p => cache sources p nowMs) r.sources }

def isMedia (r : RtpFecReceiver σ) (p : Bytes) : Bool :=
  byteAt p 1 &&& 127#8 = r.mediaPt && get32 p 8 = r.mediaSsrc && p.length ≤ kFecMaxMediaPacket

def isRepair (r : RtpFecReceiver σ) (p : Bytes) : Bool :=
  byteAt p 1 &&& 127#8 = kRsFecPayloadType && get32 p 8 = r.repairSsrc && kFecHeaderSize ≤ p.length - headerSize p

/-- What the header of a repair says. -/
structure RepairHeader where
  k : Nat
  r : Nat
  id : Nat
  symbolSize : Nat
  base : BitVec 16
deriving DecidableEq, Repr

def repairHeader (r : RtpFecReceiver σ) (p : Bytes) : Option RepairHeader :=
  let header := headerSize p
  let h := p.drop header
  let k := (byteAt h 3).toNat
  let repairs := (byteAt h 4).toNat
  let id := (byteAt h 5).toNat
  let symbolSize := (get16 h 6).toNat
  if byteAt h 0 ≠ 0x4d#8 ∨ byteAt h 1 ≠ 0x46#8 ∨ byteAt h 2 ≠ 1#8 ∨ byteAt h 14 ≠ 0#8 ∨ byteAt h 15 ≠ 0#8 ∨ k = 0 ∨
      kFecMaxSources < k ∨ repairs = 0 ∨ kFecMaxRepairs < repairs ∨ id < k ∨ k + repairs ≤ id ∨ symbolSize < 14 ∨
      kFecMaxMediaPacket + 2 < symbolSize ∨ p.length - header - kFecHeaderSize ≠ symbolSize ∨
      get32 h 8 ≠ r.mediaSsrc then none
  else some ⟨k, repairs, id, symbolSize, get16 h 12⟩

/-- A block for a repair, where the oldest one makes room. -/
def openBlock (r : RtpFecReceiver σ) (key : BlockKey) (timestamp : BitVec 32) (h : RepairHeader) (nowMs : Int) :
    RtpFecReceiver σ :=
  let gone := if 64 ≤ r.blocks.entries.length then
      (oldest Block.arrival r.blocks).elim 0 fun e => if e.2.done then 0 else 1
    else 0
  { r.countExpired gone with
    blocks := (evict Block.arrival 64 r.blocks).emplace key
      { serial := r.opened
        timestamp
        base := h.base
        k := h.k
        r := h.r
        size := h.symbolSize
        arrival := nowMs
        repairs := List.replicate h.r []
        present := List.replicate h.r false }
    opened := r.opened + 1 }

def addRepair (r : RtpFecReceiver σ) (p : Bytes) (nowMs : Int) : FecSymbols × RtpFecReceiver σ :=
  match r.repairHeader p with
  | none => ([], r.reject)
  | some h =>
    let key : BlockKey := toLex ((get32 p 4).toNat, h.base.toNat)
    let r := if (r.blocks.find key).isNone then r.openBlock key (get32 p 4) h nowMs else r
    match r.blocks.find key with
    | none => ([], r)
    | some b =>
      if b.k ≠ h.k ∨ b.r ≠ h.r ∨ b.size ≠ h.symbolSize then ([], r.reject)
      else if b.done || b.present.getD (h.id - h.k) false then ([], r)
      else
        let r := r.setBlock key { b with
          repairs := b.repairs.set (h.id - h.k) (p.drop (headerSize p + kFecHeaderSize))
          present := b.present.set (h.id - h.k) true }
        let r := { r with stats := { r.stats with repairPackets := r.stats.repairPackets + 1 } }
        let (recovered, r) := r.tryDecode o key
        (recovered, r.cacheAll recovered nowMs)

def addSource (r : RtpFecReceiver σ) (p : Bytes) (nowMs : Int) : FecSymbols × RtpFecReceiver σ :=
  let r := { r with
    stats := { r.stats with sourcePackets := r.stats.sourcePackets + 1 }
    sources := cache r.sources p nowMs }
  let (recovered, r) := r.tryDecodeAll o (r.blocks.entries.map Prod.fst)
  (recovered, r.cacheAll recovered nowMs)

def addPacket (r : RtpFecReceiver σ) (p : Bytes) (nowMs : Int) : FecSymbols × RtpFecReceiver σ :=
  let r := r.expire nowMs
  if headerSize p = 0 ∨ kFecMaxWirePacket < p.length then ([], r.reject)
  else if r.isMedia p then r.addSource o p nowMs
  else if r.isRepair p then r.addRepair o p nowMs
  else ([], r.reject)

/-- The calls of a receiver. -/
inductive Call where
  | addPacket (p : Bytes) (nowMs : Int)
  | expire (nowMs : Int)

def Call.nowMs : Call → Int
  | .addPacket _ nowMs => nowMs
  | .expire nowMs => nowMs

def step (r : RtpFecReceiver σ) : Call → FecSymbols × RtpFecReceiver σ
  | .addPacket p nowMs => r.addPacket o p nowMs
  | .expire nowMs => ([], r.expire nowMs)

def after (r : RtpFecReceiver σ) (calls : List Call) : RtpFecReceiver σ := calls.foldl (fun r c => (r.step o c).2) r

end RtpFecReceiver

end MiniRtc.Fec
