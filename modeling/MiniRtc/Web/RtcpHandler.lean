import MiniRtc.Lib.Reads
import MiniRtc.Web.MediaHandler

/-! What a browser's RTCP does to the media handler (HandleRtcpLocked in web_media_handler.cpp).
A block is read up to its padding. The outer `none` is a read beyond that, or a loop that its turns do not suffice
for. The calls of the QoS controller and of the repairs are listed; of a stream only what its reports are compared
with is kept. -/
namespace MiniRtc.Web
open Wire WebMediaHandler

structure StreamReports where
  hasReport : Bool := false
  reportedSequence : BitVec 32 := 0
  reportedLoss : Int := 0
  senderReports : SortedMap Nat Int := SortedMap.empty

abbrev StreamTable := BitVec 32 → Option StreamReports

/-- The calls; `reported` is the report of a stream that the next one is compared with. -/
inductive RtcpEffect where
  | onReceiverReport (ssrc : BitVec 32) (lost expected rttMs : Int)
  | reported (ssrc sequence : BitVec 32) (lost : Int)
  | onReceiverEstimate (bitrateBps : Int)
  | act (action : RtcpAction)
deriving DecidableEq

namespace StreamReports

variable (stream : StreamReports)

def expected (sequence : BitVec 32) : Int := (sequence - stream.reportedSequence).toNat

def inOrder (sequence : BitVec 32) : Bool := 0 < stream.expected sequence && stream.expected sequence ≤ 1000000

/-- The call of the QoS controller for a report. -/
def calls (ssrc sequence : BitVec 32) (lost rttMs : Int) : List RtcpEffect :=
  if stream.hasReport ∧ stream.inOrder sequence then
    [.onReceiverReport ssrc (lost - stream.reportedLoss) (stream.expected sequence) rttMs]
  else if stream.hasReport = false ∨ 0 < rttMs then [.onReceiverReport ssrc 0 0 rttMs]
  else []

end StreamReports

structure Handled where
  streams : StreamTable
  effects : List RtcpEffect := []

namespace Handled

variable (s : Handled)

def add (effects : List RtcpEffect) : Handled := { s with effects := s.effects ++ effects }

/-- The rest of the loop over report blocks, with what was read of one. -/
def report (ssrc : BitVec 32) (stream : StreamReports) (sequence : BitVec 32) (lost rttMs : Int) : Handled :=
  let s := s.add (stream.calls ssrc sequence lost rttMs)
  if stream.hasReport = false ∨ stream.inOrder sequence then
    { s with streams := Function.update s.streams ssrc (some { stream with
        hasReport := true
        reportedSequence := sequence
        reportedLoss := lost }) }.add [.reported ssrc sequence lost]
  else s

/-- A stream that is there is asked for a key frame. -/
def keyframe (ssrc : BitVec 32) : Handled :=
  if (s.streams ssrc).isSome then s.add [.act (.requestKeyframe ssrc)] else s

def repairs (ssrc : BitVec 32) (seq mask : BitVec 16) : Handled := s.add ((repairsOf ssrc seq mask).map .act)

end Handled

/-- Three octets with a sign. -/
def signed24 (word : BitVec 32) : Int :=
  let lost : Int := (word &&& 0xffffff).toNat
  if (word &&& 0x800000) ≠ 0 then lost - 0x1000000 else lost

def rttOf (sentMs : Int) (delay : BitVec 32) (nowMs : Int) : Int :=
  let rtt := nowMs - sentMs - delay.toNat * 1000 / 65536
  if 0 < rtt ∧ rtt ≤ 10000 then rtt else 0

/-- The rate of an estimate, with the mantissa and the exponent that it has. -/
def estimateBps (exponent mantissa : Nat) : Int :=
  let rate : BitVec 64 := if 32 ≤ exponent then BitVec.ofNat 64 (2 ^ 31 - 1) else BitVec.ofNat 64 mantissa <<< exponent
  min rate.toNat (2 ^ 31 - 1)

section Block

variable (nowMs : Int) (p : Bytes)

def readRtt (block : Nat) (stream : StreamReports) : Option Int := do
  let lastSr ← read32 p (block + 16)
  match stream.senderReports.find lastSr.toNat with
  | none => return 0
  | some sentMs =>
    let delay ← read32 p (block + 20)
    return rttOf sentMs delay nowMs

def handleReport (block : Nat) (s : Handled) : Option Handled := do
  let ssrc ← read32 p block
  match s.streams ssrc with
  | none => return s
  | some stream =>
    let sequence ← read32 p (block + 8)
    let lost ← read32 p (block + 4)
    let rttMs ← readRtt nowMs p block stream
    return s.report ssrc stream sequence (signed24 lost) rttMs

/-- The loop over the report blocks; `turns` are the ones that the header counts and that are not read yet. -/
def handleReports (first : Nat) : Nat → Nat → Handled → Option Handled
  | 0, _, s => some s
  | turns + 1, i, s =>
    if first + (i + 1) * 24 ≤ p.length then do
      let s ← handleReport nowMs p (first + i * 24) s
      handleReports first turns (i + 1) s
    else some s

/-- A loop over entries of one size, up to the padding. -/
def handleEntries (size : Nat) (body : Nat → Handled → Option Handled) : Nat → Nat → Handled → Option Handled
  | 0, _, _ => none
  | turns + 1, i, s =>
    if i + size ≤ p.length then do
      let s ← body i s
      handleEntries size body turns (i + size) s
    else some s

def readRemb (type : Byte) (count : Nat) : Option Bool :=
  if type = 206 ∧ count = 15 ∧ 20 ≤ p.length then do
    let name ← readSlice p 12 4
    return name = [0x52, 0x45, 0x4d, 0x42]
  else return false

def handleEstimate (s : Handled) : Option Handled := do
  let sources := (← read8 p 16).toNat
  if 20 + sources * 4 ≤ p.length then
    let ssrcs ← (List.range sources).mapM fun i => read32 p (20 + i * 4)
    if ssrcs.any fun ssrc => (s.streams ssrc).isSome then
      let high ← read8 p 17
      let low ← read16 p 18
      return s.add [.onReceiverEstimate (estimateBps (high >>> 2).toNat ((high &&& 3).toNat <<< 16 ||| low.toNat))]
    else return s
  else return s

def handleRepairs (ssrc : BitVec 32) (i : Nat) (s : Handled) : Option Handled := do
  let seq ← read16 p i
  let mask ← read16 p (i + 2)
  return s.repairs ssrc seq mask

def handleBlock (s : Handled) : Option Handled := do
  let head ← read8 p 0
  let type ← read8 p 1
  let count := (head &&& 31).toNat
  let remb ← readRemb p type count
  if type = 201 ∨ type = 200 then handleReports nowMs p (if type = 201 then 8 else 28) count 0 s
  else if remb then handleEstimate p s
  else if type = 206 ∧ 12 ≤ p.length then
    if count = 1 then return s.keyframe (← read32 p 8)
    else if count = 4 then
      handleEntries p 8 (fun i s => do return s.keyframe (← read32 p i)) (p.length + 1) 12 s
    else return s
  else if type = 205 ∧ count = 1 ∧ 16 ≤ p.length then
    let ssrc ← read32 p 8
    if (s.streams ssrc).isSome then handleEntries p 4 (handleRepairs p ssrc) (p.length + 1) 12 s else return s
  else return s

end Block

/-- The length of a block, and how much of it is not padding. -/
def readBlock (p : Bytes) : Option (Option (Nat × Nat)) := do
  let length := ((← read16 p 2).toNat + 1) * 4
  let head ← read8 p 0
  if head >>> 6 ≠ 2 ∨ length < 4 ∨ p.length < length then return none
  else if head &&& 32 ≠ 0 then
    let padding := (← read8 p (length - 1)).toNat
    if padding = 0 ∨ length - 4 < padding then return none else return some (length, length - padding)
  else return some (length, length)

/-- The loop over the blocks of what is left. -/
def handleRtcpLocked (nowMs : Int) : Nat → Bytes → Handled → Option Handled
  | 0, _, _ => none
  | turns + 1, p, s =>
    if p.length < 4 then some s
    else do
      match ← readBlock p with
      | none => return s
      | some (length, payloadSize) =>
        let s ← handleBlock nowMs (p.take payloadSize) s
        handleRtcpLocked nowMs turns (p.drop length) s

end MiniRtc.Web
