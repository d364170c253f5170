import MiniRtc.Fec.Adaptation

/-! The tracker of feedback (fec_adaptation_controller.cpp), and what its snapshots mean: every field of
a snapshot as a value of the plain log of the calls before it. -/
namespace MiniRtc.Fec

/-! ### The tracker -/

structure FecFeedbackTracker.Packet where
  ssrc : BitVec 32
  kind : FecPacketKind
  bytes : Nat
  payload : Nat
  sentMs : Int
  firstFeedbackMs : Int := -1
  generation : Nat := 0
  committed : Bool := false
  received : Bool := false
deriving DecidableEq, Repr

structure FecFeedbackTracker where
  packets : List (Int × FecFeedbackTracker.Packet) := []
  generation : Nat := 0
deriving DecidableEq, Repr

namespace FecFeedbackTracker

def kMaxPackets : Nat := 16384

def prune (nowMs : Int) : List (Int × Packet) → List (Int × Packet)
  | [] => []
  | entry :: packets =>
    if kMaxPackets < packets.length + 1 ∨ 5000 < nowMs - entry.2.sentMs ∨ nowMs < entry.2.sentMs then
      prune nowMs packets
    else entry :: packets

/-- The map keeps its keys in order. -/
def insertOrAssign (id : Int) (p : Packet) : List (Int × Packet) → List (Int × Packet)
  | [] => [(id, p)]
  | entry :: packets =>
    if id < entry.1 then (id, p) :: entry :: packets
    else if id = entry.1 then (id, p) :: packets
    else entry :: insertOrAssign id p packets

/-- The call that registers a packet. -/
structure Registration where
  id : Int
  ssrc : BitVec 32
  kind : FecPacketKind
  bytes : Nat
  payloadBytes : Nat
  nowMs : Int
deriving DecidableEq, Repr

def Registration.packet (r : Registration) : Packet :=
  { ssrc := r.ssrc, kind := r.kind, bytes := r.bytes, payload := min r.bytes r.payloadBytes, sentMs := r.nowMs }

def register (s : FecFeedbackTracker) (r : Registration) : FecFeedbackTracker :=
  { s with packets := prune r.nowMs (insertOrAssign r.id r.packet s.packets) }

def modify (id : Int) (f : Packet → Packet) (packets : List (Int × Packet)) : List (Int × Packet) :=
  packets.map fun entry => if entry.1 = id then (entry.1, f entry.2) else entry

def commit (s : FecFeedbackTracker) (id : Int) : FecFeedbackTracker :=
  { s with packets := modify id (fun p => { p with committed := true }) s.packets }

def remove (s : FecFeedbackTracker) (id : Int) : FecFeedbackTracker :=
  { s with packets := s.packets.filter fun entry => entry.1 ≠ id }

def feedback (s : FecFeedbackTracker) (id : Int) (received : Bool) (nowMs : Int) : FecFeedbackTracker :=
  match s.packets.lookup id with
  | none => s
  | some p =>
    if 0 ≤ p.firstFeedbackMs ∧ (received = false ∨ p.received = true) then s
    else
      { packets := modify id (fun p =>
          { p with
            firstFeedbackMs := if p.firstFeedbackMs < 0 then nowMs else p.firstFeedbackMs
            received := p.received || received
            generation := s.generation + 1 }) s.packets
        generation := s.generation + 1 }

/-- The maps that a snapshot fills. -/
structure Tally where
  result : BitVec 32 → Option FecFeedbackSnapshot := fun _ => none
  runs : BitVec 32 → Nat := fun _ => 0
  payloads : BitVec 32 → Nat := fun _ => 0
  mediaBytes : BitVec 32 → Nat := fun _ => 0

def grace (rttMs : Int) : Int := clamp (rttMs.tdiv 4) 20 100

/-- One packet of the loop of a snapshot. -/
def visit (nowMs rttMs : Int) (t : Tally) (p : Packet) : Tally :=
  if p.committed = false then t
  else
    let stop := nowMs - grace rttMs
    let s := (t.result p.ssrc).getD {}
    let recent := nowMs - p.sentMs < 1000 ∧ p.sentMs ≤ nowMs
    let s := if recent then
        { s with sentBps := Function.update s.sentBps p.kind (s.sentBps p.kind + p.bytes * 8) }
      else s
    let t := if recent ∧ p.kind = .media then
        { t with
          payloads := Function.update t.payloads p.ssrc (t.payloads p.ssrc + p.payload)
          mediaBytes := Function.update t.mediaBytes p.ssrc (t.mediaBytes p.ssrc + p.bytes) }
      else t
    if p.kind ≠ .media then { t with result := Function.update t.result p.ssrc (some s) }
    else
      let s := { s with
        lastFeedbackMs := max s.lastFeedbackMs p.firstFeedbackMs
        feedbackGeneration := max s.feedbackGeneration p.generation }
      if p.firstFeedbackMs < stop - 1000 ∨ stop < p.firstFeedbackMs ∨ p.firstFeedbackMs < 0 then
        { t with
          result := Function.update t.result p.ssrc (some s)
          runs := Function.update t.runs p.ssrc 0 }
      else if p.received = false then
        { t with
          result := Function.update t.result p.ssrc (some
            { s with
              samples := s.samples + 1
              lost := s.lost + 1
              maxLossRun := max s.maxLossRun (t.runs p.ssrc + 1) })
          runs := Function.update t.runs p.ssrc (t.runs p.ssrc + 1) }
      else
        { t with
          result := Function.update t.result p.ssrc (some { s with samples := s.samples + 1 })
          runs := Function.update t.runs p.ssrc 0 }

def snapshot (s : FecFeedbackTracker) (nowMs rttMs : Int) :
    (BitVec 32 → Option FecFeedbackSnapshot) × FecFeedbackTracker :=
  let s := { s with packets := prune nowMs s.packets }
  let t := (s.packets.map Prod.snd).foldl (visit nowMs rttMs) {}
  (fun ssrc => (t.result ssrc).map fun f =>
    if t.mediaBytes ssrc ≠ 0 then { f with payloadFraction := t.payloads ssrc / t.mediaBytes ssrc } else f, s)

def reset (s : FecFeedbackTracker) : FecFeedbackTracker := { packets := [], generation := s.generation + 1 }

/-- The calls of a tracker. -/
inductive Call where
  | register (r : Registration)
  | commit (id : Int)
  | remove (id : Int)
  | feedback (id : Int) (received : Bool) (nowMs : Int)
  | snapshot (nowMs rttMs : Int)
  | reset
deriving DecidableEq, Repr

def step (s : FecFeedbackTracker) : Call → FecFeedbackTracker
  | .register r => s.register r
  | .commit id => s.commit id
  | .remove id => s.remove id
  | .feedback id received nowMs => s.feedback id received nowMs
  | .snapshot nowMs rttMs => (s.snapshot nowMs rttMs).2
  | .reset => s.reset

/-- The tracker after the calls of a log. A log has its latest call first. -/
def after (log : List Call) : FecFeedbackTracker := log.foldr (fun c s => s.step c) {}

/-! ### The log -/

def Call.registers : Call → Option Registration
  | .register r => some r
  | _ => none

/-- The identifiers are fresh and increase, and the times of the registrations do not decrease. -/
def Lawful (log : List Call) : Prop :=
  (log.filterMap Call.registers).Pairwise fun newer older => older.id < newer.id ∧ older.nowMs ≤ newer.nowMs

/-- The newest packets, without those at the front that were sent long ago, or after the time. -/
def expire (nowMs : Int) (held : List Registration) : List Registration :=
  (held.drop (held.length - kMaxPackets)).dropWhile fun r => 5000 < nowMs - r.nowMs ∨ nowMs < r.nowMs

/-- The packets that are neither removed nor pruned, the oldest first. -/
def live : List Call → List Registration
  | [] => []
  | .register r :: log => expire r.nowMs (live log ++ [r])
  | .remove id :: log => (live log).filter fun r => r.id ≠ id
  | .snapshot nowMs _ :: log => expire nowMs (live log)
  | .reset :: _ => []
  | .commit _ :: log => live log
  | .feedback _ _ _ :: log => live log

/-- The packet was committed. -/
def committed (id : Int) : List Call → Bool
  | [] => false
  | .register r :: log => if r.id = id then false else committed id log
  | .commit id' :: log => id' = id || committed id log
  | _ :: log => committed id log

/-- What was reported of the packet, and when, the first report first. -/
def reports (id : Int) : List Call → List (Bool × Int)
  | [] => []
  | .register r :: log => if r.id = id then [] else reports id log
  | .feedback id' received nowMs :: log => if id' = id then reports id log ++ [(received, nowMs)] else reports id log
  | _ :: log => reports id log

/-- The time of the first report; a time before zero is none. -/
def firstReport (id : Int) (log : List Call) : Option Int :=
  ((reports id log).map Prod.snd).find? fun nowMs => decide (0 ≤ nowMs)

def reportedReceived (id : Int) (log : List Call) : Bool := (reports id log).any Prod.fst

/-- A report that says something new of a packet that is held. -/
def Tells (id : Int) (received : Bool) (log : List Call) : Prop :=
  (∃ r ∈ live log, r.id = id) ∧ (firstReport id log = none ∨ received = true ∧ reportedReceived id log = false)

instance (id : Int) (received : Bool) (log : List Call) : Decidable (Tells id received log) := by
  unfold Tells
  infer_instance

/-- How many reports said something new, and resets. -/
def tellings : List Call → Nat
  | [] => 0
  | .feedback id received _ :: log => if Tells id received log then tellings log + 1 else tellings log
  | .reset :: log => tellings log + 1
  | _ :: log => tellings log

/-- The number of the latest report that said something new of the packet. -/
def lastTelling (id : Int) : List Call → Nat
  | [] => 0
  | .register r :: log => if r.id = id then 0 else lastTelling id log
  | .feedback id' received _ :: log =>
    if id' = id ∧ Tells id' received log then tellings log + 1 else lastTelling id log
  | _ :: log => lastTelling id log

/-- The committed packets of a stream. -/
def sentOn (ssrc : BitVec 32) (log : List Call) : List Registration :=
  (live log).filter fun r => r.ssrc = ssrc && committed r.id log

/-- The committed media packets of a stream. -/
def mediaOn (ssrc : BitVec 32) (log : List Call) : List Registration := (sentOn ssrc log).filter fun r => r.kind = .media

/-- The first report of the packet is in the window. -/
def sampled (log : List Call) (nowMs rttMs : Int) (r : Registration) : Bool :=
  (firstReport r.id log).any fun first => nowMs - grace rttMs - 1000 ≤ first ∧ first ≤ nowMs - grace rttMs

/-- A sample that was never reported as received. -/
def lostSample (log : List Call) (nowMs rttMs : Int) (r : Registration) : Bool :=
  sampled log nowMs rttMs r && !reportedReceived r.id log

def recently (nowMs : Int) (r : Registration) : Bool := nowMs - r.nowMs < 1000 ∧ r.nowMs ≤ nowMs

end FecFeedbackTracker

end MiniRtc.Fec
