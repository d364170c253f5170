import MiniRtc.Fec.Adaptation
import MiniRtc.Fec.Codec

/-! The sender of repairs (rtp_fec.cpp, and the rate budget of fec_adaptation_controller.cpp).
Packets of a frame are collected into a block; when it is flushed, repairs are made as far as two
credits allow, one that is earned with each source packet and one that is earned with time. -/
namespace MiniRtc.Fec

open Wire

def kRsFecPayloadType : Byte := 122#8

def kFecMaxMediaPacket : Nat := 1148

def kFecMaxWirePacket : Nat := 1184

def kFecMaxSources : Nat := 16

def kFecMaxRepairs : Nat := 4

def kFecHeaderSize : Nat := 16

/-- The length of the header of an RTP packet, or zero. -/
def headerSize (p : Bytes) : Nat :=
  if p.length < 12 ∨ byteAt p 0 >>> 6 ≠ 2#8 ∨ byteAt p 0 &&& 0x20#8 ≠ 0#8 then 0
  else
    let header := 12 + 4 * (byteAt p 0 &&& 15#8).toNat
    if p.length < header then 0
    else if byteAt p 0 &&& 0x10#8 ≠ 0#8 then
      if p.length - header < 4 then 0
      else
        let header := header + 4 + 4 * (get16 p (header + 2)).toNat
        if header < p.length then header else 0
    else if header < p.length then header else 0

/-! ### The rate budget -/

structure FecRateBudget where
  rateBps : Int := -1
  lastMs : Int := -1
  credit : ℚ := 0
deriving DecidableEq, Repr

namespace FecRateBudget

def refill (b : FecRateBudget) (nowMs : Int) : FecRateBudget :=
  let b := if 0 ≤ b.lastMs ∧ b.lastMs ≤ nowMs ∧ 0 < b.rateBps then
      { b with credit := min 4800 (b.credit + min (nowMs - b.lastMs) 1000 * b.rateBps / 8000) }
    else b
  let b := if nowMs < b.lastMs then { b with credit := 0 } else b
  { b with lastMs := nowMs }

def setRate (b : FecRateBudget) (bps nowMs : Int) : FecRateBudget :=
  let b := b.refill nowMs
  let bps := clamp bps 0 1000000000
  let b := if 0 < b.rateBps ∧ bps < b.rateBps then { b with credit := b.credit * (bps / b.rateBps) } else b
  let b := if bps = 0 then { b with credit := 0 } else b
  { b with rateBps := bps }

def consume (b : FecRateBudget) (bytes : Nat) (nowMs : Int) : Bool × FecRateBudget :=
  if b.rateBps < 0 then (true, b)
  else
    let b := b.refill nowMs
    if b.credit < bytes then (false, b) else (true, { b with credit := b.credit - bytes })

/-- How many of so many repairs the budget affords. -/
def afford (bytes : Nat) (nowMs : Int) : Nat → FecRateBudget → Nat × FecRateBudget
  | 0, b => (0, b)
  | count + 1, b =>
    let (taken, b) := b.consume bytes nowMs
    if taken then
      let (affordable, b) := afford bytes nowMs count b
      (affordable + 1, b)
    else (0, b)

end FecRateBudget

/-! ### The sender -/

structure FecTransportStats where
  sourcePackets : Nat := 0
  repairPackets : Nat := 0
  recoveredPackets : Nat := 0
  expiredBlocks : Nat := 0
  rejectedPackets : Nat := 0
  budgetSkips : Nat := 0
  codecErrors : Nat := 0
deriving DecidableEq, Repr

def FecProtectionConfig.ratio (c : FecProtectionConfig) : ℚ := c.sourceRatio.getD 0

structure RtpFecSender where
  pending : FecSymbols := []
  firstMs : Int := 0
  creditBytes : ℚ := 0
  config : FecProtectionConfig := {}
  blockConfig : FecProtectionConfig := {}
  rateBudget : FecRateBudget := {}
  keyframe : Bool := false
  lastPacketMs : Int := -1
  repairDeadlineMs : Int := -1
  stats : FecTransportStats := {}
deriving DecidableEq, Repr

/-- A source of a block: its length, its octets, and zeros up to the size. -/
def padded (size : Nat) (p : Bytes) : Bytes :=
  put16 (BitVec.ofNat 16 p.length) ++ p ++ List.replicate (size - 2 - p.length) 0#8

/-- The packet of a repair. Its header is that of the last source, with another type and stream. -/
def repairPacket (repairSsrc : BitVec 32) (pending : FecSymbols) (size repairCount index : Nat) (repair : Bytes) :
    Bytes :=
  let last := pending.getLastD []
  let first := pending.headD []
  [byteAt last 0, kRsFecPayloadType] ++ put16 0#16 ++ slice last 4 4 ++ put32 repairSsrc ++
    slice last 12 (headerSize last - 12) ++
    ([0x4d#8, 0x46#8, 1#8, BitVec.ofNat 8 pending.length, BitVec.ofNat 8 repairCount,
      BitVec.ofNat 8 (pending.length + index)] ++ put16 (BitVec.ofNat 16 size) ++ put32 (get32 first 8) ++
      put16 (get16 first 2) ++ [0#8, 0#8]) ++ repair

namespace RtpFecSender

variable {σ : Type} (o : OpenFec σ)

def reset (s : RtpFecSender) : RtpFecSender :=
  { s with pending := [], creditBytes := 0, lastPacketMs := -1, rateBudget := {} }

/-- The config that is kept. -/
def limited (config : FecProtectionConfig) : FecProtectionConfig :=
  { config with
    sourceRatio := some ((config.sourceRatio.map (clamp · 0 (1 / 4))).getD 0)
    recoveryWindowMs := clamp config.recoveryWindowMs 20 150 }

def setProtection (s : RtpFecSender) (config : FecProtectionConfig) (nowMs : Int) : RtpFecSender :=
  if config.version < s.config.version then s
  else
    let next := limited config
    let s := if 0 < s.config.ratio ∧ next.ratio < s.config.ratio then
        { s with creditBytes := s.creditBytes * (next.ratio / s.config.ratio) }
      else s
    let s := if next.ratio = 0 ∨ next.fecBitrateBps = 0 then { s with pending := [], creditBytes := 0 } else s
    let s := if 0 ≤ next.fecBitrateBps then
        { s with rateBudget := s.rateBudget.setRate next.fecBitrateBps nowMs }
      else s
    { s with config := next }

def symbolSize (pending : FecSymbols) : Nat := (pending.map fun p => p.length + 2).foldl max 0

def wireSize (pending : FecSymbols) : Nat := headerSize (pending.getLastD []) + kFecHeaderSize + symbolSize pending

def deadline (s : RtpFecSender) : Int := s.firstMs + min s.config.recoveryWindowMs s.blockConfig.recoveryWindowMs

def blockRatio (s : RtpFecSender) : ℚ :=
  let ratio := min s.config.ratio s.blockConfig.ratio
  if s.keyframe = true ∧ s.blockConfig.keyframePriority = true ∧ 0 < ratio then min (1 / 4) (ratio + 1 / 20) else ratio

def repairCount (s : RtpFecSender) : Nat :=
  min (min kFecMaxRepairs ⌈s.pending.length * s.blockRatio⌉.toNat)
    ⌊s.creditBytes / (wireSize s.pending + 64 : Nat)⌋.toNat

def skip (s : RtpFecSender) : RtpFecSender :=
  { s with pending := [], stats := { s.stats with budgetSkips := s.stats.budgetSkips + 1 } }

def flush (s : RtpFecSender) (repairSsrc : BitVec 32) (nowMs : Int) : FecSymbols × RtpFecSender :=
  if s.pending = [] then ([], s)
  else if s.deadline ≤ nowMs then
    ([], { s with pending := [], stats := { s.stats with expiredBlocks := s.stats.expiredBlocks + 1 } })
  else if kFecMaxWirePacket < wireSize s.pending then ([], s.skip)
  else
    let (affordable, rateBudget) := FecRateBudget.afford (wireSize s.pending + 64) nowMs s.repairCount s.rateBudget
    let s := { s with rateBudget }
    if affordable = 0 then ([], s.skip)
    else
      match encodeSymbols o (s.pending.map (padded (symbolSize s.pending))) affordable with
      | none => ([], { s with pending := [], stats := { s.stats with codecErrors := s.stats.codecErrors + 1 } })
      | some repairs =>
        (repairs.mapIdx (repairPacket repairSsrc s.pending (symbolSize s.pending) affordable),
          { s with
            pending := []
            creditBytes := s.creditBytes - repairs.length * (wireSize s.pending + 64 : Nat)
            repairDeadlineMs :=
              if s.repairDeadlineMs < 0 then s.deadline else min s.repairDeadlineMs s.deadline
            stats := { s.stats with repairPackets := s.stats.repairPackets + repairs.length } })

def flushExpired (s : RtpFecSender) (repairSsrc : BitVec 32) (nowMs : Int) : FecSymbols × RtpFecSender :=
  let s := { s with repairDeadlineMs := -1 }
  if s.pending = [] ∨ nowMs - s.firstMs < 20 then ([], s) else s.flush o repairSsrc nowMs

/-- A packet that can be a source. -/
def accepts (p : Bytes) (repairSsrc : BitVec 32) : Bool :=
  headerSize p ≠ 0 && p.length ≤ kFecMaxMediaPacket && repairSsrc ≠ 0#32 && repairSsrc ≠ get32 p 8

/-- The packet does not continue the block. -/
def breaks (s : RtpFecSender) (p : Bytes) (nowMs : Int) : Bool :=
  let last := s.pending.getLastD []
  get32 last 8 ≠ get32 p 8 || get32 last 4 ≠ get32 p 4 || get16 last 2 + 1#16 ≠ get16 p 2 ||
    nowMs < s.firstMs || 20 ≤ nowMs - s.firstMs

/-- The credits before a source is queued. -/
def earn (s : RtpFecSender) (size : Nat) (nowMs : Int) : RtpFecSender :=
  let s := if s.lastPacketMs < 0 ∧ 0 ≤ s.config.fecBitrateBps then
      { s with rateBudget := s.rateBudget.setRate s.config.fecBitrateBps nowMs }
    else s
  let s := if 0 ≤ s.lastPacketMs ∧ (nowMs < s.lastPacketMs ∨ 1000 < nowMs - s.lastPacketMs) then
      { s with creditBytes := 0, pending := [] }
    else s
  { s with lastPacketMs := nowMs, creditBytes := min (s.creditBytes + size * s.config.ratio) 4800 }

def queue (s : RtpFecSender) (p : Bytes) (nowMs : Int) (keyframe : Bool) : RtpFecSender :=
  let s := if s.pending = [] then { s with firstMs := nowMs, blockConfig := s.config, keyframe } else s
  { s with pending := s.pending ++ [p] }

def addPacket (s : RtpFecSender) (p : Bytes) (repairSsrc : BitVec 32) (nowMs : Int) (keyframe : Bool) :
    FecSymbols × RtpFecSender :=
  let s := { s with repairDeadlineMs := -1 }
  if accepts p repairSsrc = false then
    ([], { s with pending := [], stats := { s.stats with rejectedPackets := s.stats.rejectedPackets + 1 } })
  else
    let s := { s with stats := { s.stats with sourcePackets := s.stats.sourcePackets + 1 } }
    if s.config.ratio = 0 ∨ s.config.fecBitrateBps = 0 then ([], s)
    else
      let s := s.earn p.length nowMs
      let (result, s) := if s.pending ≠ [] ∧ s.breaks p nowMs = true then s.flush o repairSsrc nowMs else ([], s)
      let s := s.queue p nowMs keyframe
      if s.pending.length = kFecMaxSources ∨ byteAt p 1 &&& 0x80#8 ≠ 0#8 then
        let (tail, s) := s.flush o repairSsrc nowMs
        (result ++ tail, s)
      else (result, s)

/-- The calls of a sender. -/
inductive Call where
  | addPacket (p : Bytes) (repairSsrc : BitVec 32) (nowMs : Int) (keyframe : Bool)
  | flushExpired (repairSsrc : BitVec 32) (nowMs : Int)
  | setProtection (config : FecProtectionConfig) (nowMs : Int)
  | reset

def step (s : RtpFecSender) : Call → FecSymbols × RtpFecSender
  | .addPacket p repairSsrc nowMs keyframe => s.addPacket o p repairSsrc nowMs keyframe
  | .flushExpired repairSsrc nowMs => s.flushExpired o repairSsrc nowMs
  | .setProtection config nowMs => ([], s.setProtection config nowMs)
  | .reset => ([], s.reset)

def after (s : RtpFecSender) (calls : List Call) : RtpFecSender := calls.foldl (fun s c => (s.step o c).2) s

end RtpFecSender

end MiniRtc.Fec
