import MiniRtc.Common.SystemClock
import MiniRtc.Rtcp.Requests

/-! How `IceTransport` takes a compound RTCP packet apart (ice_transport.cpp).
The outer `none` of a result is a read outside of what may be read, or a loop that did not end.
Two things are not in the source: the calls that leave the transport are listed, and so are the
blocks that were walked over. -/
namespace MiniRtc.Transport
open Wire Rtcp

/-- A probe of the round trip that is not answered yet. -/
structure ProbeTime where
  compactNtp : BitVec 32
  sentUs : Int
deriving DecidableEq, Repr

/-- `ReceiverRtt::Receive`. A probe that was found is gone whatever comes of it. -/
def receiveReply (pending : List ProbeTime) (reply : Dlrr) (localSsrc : BitVec 32) (nowUs : Int) :
    Option Int × List ProbeTime :=
  if reply.ssrc ≠ localSsrc ∨ reply.lastRr = 0 then (none, pending)
  else
    match pending.find? fun probe => decide (probe.compactNtp = reply.lastRr) with
    | none => (none, pending)
    | some probe =>
      let pending := pending.eraseP fun probe => decide (probe.compactNtp = reply.lastRr)
      let elapsed := nowUs - probe.sentUs
      let delay : Int := reply.delay.toNat * 1000000 / 65536
      if elapsed < 0 ∨ 5000000 < elapsed ∨ elapsed < delay ∨ 2000000 < elapsed - delay then
        (none, pending)
      else (some (elapsed - delay), pending)

/-- `ReceiverRtt::Reply`. -/
def replyOctets (localSsrc receiverSsrc : BitVec 32) (ntp : BitVec 64) (delayUs : Nat)
    (replyNtp : BitVec 64) : Bytes :=
  let size : Nat := if replyNtp ≠ 0 then 36 else 24
  ([0x80, 207, 0, BitVec.ofNat 8 (size / 4 - 1)] : Bytes) ++ put32 localSsrc ++
    ([5, 0, 0, 3] : Bytes) ++ put32 receiverSsrc ++ put32 ((ntp >>> 16).setWidth 32) ++
    put32 (BitVec.ofNat 32 (delayUs * 65536 / 1000000)) ++
    if replyNtp ≠ 0 then
      ([4, 0, 0, 2] : Bytes) ++ put32 ((replyNtp >>> 32).setWidth 32) ++ put32 (replyNtp.setWidth 32)
    else []

/-- What leaves the transport: calls of the controller, and a packet for the agent. -/
inductive RtcpCall where
  | onSenderReport (report : SenderReport)
  | onReceiverReport (reportBlockDatas : List RtcpReportBlock)
  | onCongestionControlFeedback (feedback : CongestionControlFeedback)
  | onReceiveNack (mediaSsrc : BitVec 32) (packetIds : List (BitVec 16))
  | fullIntraRequest (ssrc : BitVec 32)
  -- the source passes it in milliseconds
  | onTransportRtt (rttUs : Int)
  | onTransportClockOffset (offsetUs rttUs : Int)
  | send (packet : Bytes)
deriving DecidableEq, Repr

/-- What the transport has for a packet. The clock may be asked several times; `timeUs` and
`utcTimeUs` are its answers, in order. -/
structure RtcpInput where
  controller : Bool := true
  iceAgent : Bool := true
  receiverRttSsrc : BitVec 32 := 0
  monotonicToUtcOffsetUs : Int := 0
  timeUs : Nat → Int
  utcTimeUs : Nat → Int

/-- What the handlers write: the fields of `RtcpPacketInfo`, the probes, and the two lists. -/
structure Handling where
  remoteSsrc : BitVec 32 := 0
  reportBlockDatas : List RtcpReportBlock := []
  rtt : Option Int := none
  pending : List ProbeTime := []
  calls : List RtcpCall := []
  readings : Nat := 0

namespace Handling

def call (s : Handling) (c : RtcpCall) : Handling := { s with calls := s.calls ++ [c] }

end Handling

namespace RtcpInput

variable (t : RtcpInput)

def handleReportBlock (s : Handling) (rtcpReportBlock : RtcpReportBlock) (remoteSsrc : BitVec 32) :
    Handling :=
  let nowUs := t.timeUs s.readings
  let nowNtp := SystemClock.monotonicTimeUsToNtp t.monotonicToUtcOffsetUs nowUs
  let utcUs := SystemClock.ntpToUtcTimeUs (t.utcTimeUs s.readings) nowNtp
  let data := ({} : RtcpReportBlock).setReportBlock remoteSsrc rtcpReportBlock utcUs nowUs
  let s := { s with readings := s.readings + 1 }
  let sendTimeNtp := rtcpReportBlock.lastSr
  if sendTimeNtp ≠ 0 then
    let delayNtp := rtcpReportBlock.delaySinceLastSr
    let receiveTimeNtp := SystemClock.compactNtp nowNtp
    let rttNtp := receiveTimeNtp - delayNtp - sendTimeNtp
    let rtt := SystemClock.compactNtpIntervalToMilliseconds rttNtp
    { s with
      rtt := some rtt
      reportBlockDatas := s.reportBlockDatas ++ [data.addRoundTripTimeSample rtt] }
  else { s with reportBlockDatas := s.reportBlockDatas ++ [data] }

def handleSenderReport (s : Handling) (rtcpBlock : RtcpCommonHeader) : Option (Bool × Handling) := do
  match ← ({} : SenderReport).parse rtcpBlock with
  | none => return (false, s)
  | some senderReport =>
    return (true, if t.controller then s.call (.onSenderReport senderReport) else s)

def handleReceiverReport (s : Handling) (rtcpBlock : RtcpCommonHeader) : Option (Bool × Handling) := do
  match ← ({} : ReceiverReport).parse rtcpBlock with
  | none => return (false, s)
  | some receiverReport =>
    let remoteSsrc := receiverReport.senderSsrc
    return (true, receiverReport.reports.foldl
      (fun s block => t.handleReportBlock s block remoteSsrc) { s with remoteSsrc })

def handleCongestionControlFeedback (s : Handling) (rtcpBlock : RtcpCommonHeader) :
    Option (Bool × Handling) := do
  match ← CongestionControlFeedback.parseChecked rtcpBlock with
  | none => return (false, s)
  | some feedback =>
    if feedback.packets = [] then return (false, s)
    else return (true, if t.controller then s.call (.onCongestionControlFeedback feedback) else s)

def handleNack (s : Handling) (rtcpBlock : RtcpCommonHeader) : Option (Bool × Handling) := do
  match ← Nack.parse rtcpBlock with
  | none => return (false, s)
  | some nack =>
    if t.controller then return (true, s.call (.onReceiveNack nack.mediaSsrc nack.packetIds))
    else return (false, s)

def handleFir (s : Handling) (rtcpBlock : RtcpCommonHeader) : Option (Bool × Handling) := do
  match ← Fir.parse rtcpBlock with
  | none => return (false, s)
  | some fir =>
    if t.controller then
      return (true, fir.requests.foldl (fun s request => s.call (.fullIntraRequest request.1)) s)
    else return (false, s)

/-- One reply of an extended report. -/
def handleReply (arrivalUs : Int) (referenceTime : Option (BitVec 64)) (s : Handling) (reply : Dlrr) :
    Handling :=
  match receiveReply s.pending reply t.receiverRttSsrc arrivalUs with
  | (none, pending) => { s with pending }
  | (some rtt, pending) =>
    let s := { s with pending }
    if t.controller then
      let s := s.call (.onTransportRtt rtt)
      match referenceTime with
      | some time =>
        if time ≠ 0 then
          let sentUs := SystemClock.ntpToUtcTimeUs (t.utcTimeUs s.readings) time
          { s with readings := s.readings + 1 }.call
            (.onTransportClockOffset (arrivalUs - sentUs - rtt.tdiv 2) rtt)
        else s
      | none => s
    else s

def handleExtendedReport (s : Handling) (block : RtcpCommonHeader) : Option (Bool × Handling) := do
  let arrivalUs := t.timeUs s.readings
  let s := { s with readings := s.readings + 1 }
  match ← RttReport.parse block.region with
  | none => return (false, s)
  | some report =>
    let s :=
      match report.referenceTime with
      | some time =>
        if report.needsReply && t.iceAgent then
          let replyUs := t.timeUs s.readings
          { s with readings := s.readings + 1 }.call
            (.send (replyOctets t.receiverRttSsrc report.senderSsrc time (replyUs - arrivalUs).toNat
              (SystemClock.monotonicTimeUsToNtp t.monotonicToUtcOffsetUs replyUs)))
        else s
      | none => s
    return (true, report.replies.foldl (t.handleReply arrivalUs report.referenceTime) s)

/-- The switch over the type of a block. Types that are not known count as valid. -/
def handleBlock (s : Handling) (rtcpBlock : RtcpCommonHeader) : Option (Bool × Handling) :=
  if rtcpBlock.packetType = 207 then t.handleExtendedReport s rtcpBlock
  else if rtcpBlock.packetType = SR then t.handleSenderReport s rtcpBlock
  else if rtcpBlock.packetType = RR then t.handleReceiverReport s rtcpBlock
  else if rtcpBlock.packetType = kPacketType then
    if rtcpBlock.countOrFormat = Rtcp.kFeedbackMessageType then
      t.handleCongestionControlFeedback s rtcpBlock
    else if rtcpBlock.countOrFormat = Nack.kFeedbackMessageType then t.handleNack s rtcpBlock
    else some (true, s)
  else if rtcpBlock.packetType = Fir.kPacketType then
    if rtcpBlock.countOrFormat = Fir.kFeedbackMessageType then t.handleFir s rtcpBlock
    else some (true, s)
  else some (true, s)

end RtcpInput

/-- A block that was walked over: its octets, its header, and what its handler said. -/
structure WalkedBlock where
  octets : Bytes
  header : RtcpCommonHeader
  valid : Bool

/-- The state of the loop. `covered` says that it ended with nothing left. -/
structure Walk where
  handling : Handling
  valid : Bool := true
  covered : Bool := false
  blocks : List WalkedBlock := []

namespace RtcpInput

variable (t : RtcpInput)

/-- The loop over the blocks, in turns of at least four octets. -/
def walkBlocks : Nat → Bytes → Walk → Option Walk
  | 0, _, _ => none
  | turns + 1, remaining, w =>
    if remaining = [] then some { w with covered := true }
    else do
      match ← RtcpCommonHeader.parseChecked remaining with
      | none => return w
      | some rtcpBlock =>
        let blockSize := rtcpBlock.packetSize
        if blockSize = 0 ∨ remaining.length < blockSize then return w
        else
          let (blockValid, handling) ← t.handleBlock w.handling rtcpBlock
          walkBlocks turns (remaining.drop blockSize)
            { handling
              valid := w.valid && blockValid
              blocks := w.blocks ++ [⟨remaining.take blockSize, rtcpBlock, blockValid⟩] }

/-- `ParseRtcpPacket`: its result, and what was done. -/
def parseRtcpPacket (pending : List ProbeTime) (buffer : Bytes) : Option (Bool × Walk) :=
  if buffer = [] then some (false, { handling := { pending } })
  else do
    let w ← t.walkBlocks (buffer.length + 1) buffer { handling := { pending } }
    if w.covered && w.valid then
      if t.controller && !w.handling.reportBlockDatas.isEmpty then
        return (true, { w with
          handling := w.handling.call (.onReceiverReport w.handling.reportBlockDatas) })
      else return (true, w)
    else return (false, w)

end RtcpInput

/-! ### What a handler leaves alone -/

/-- The report blocks did not leave the transport yet. -/
def Handling.Quiet (s : Handling) : Prop := ∀ datas, .onReceiverReport datas ∉ s.calls

theorem Handling.Quiet.call {s : Handling} (quiet : s.Quiet) {c : RtcpCall}
    (other : ∀ datas, c ≠ .onReceiverReport datas) : (s.call c).Quiet := by
  intro datas member
  rcases List.mem_append.mp member with earlier | new
  · exact quiet datas earlier
  · exact other datas (List.mem_singleton.mp new).symm

theorem Handling.Quiet.reading {s : Handling} (quiet : s.Quiet) (readings : Nat) :
    Handling.Quiet { s with readings } := quiet

theorem Handling.Quiet.foldl {α : Type} {step : Handling → α → Handling}
    (keeps : ∀ s a, s.Quiet → (step s a).Quiet) (l : List α) {s : Handling} (quiet : s.Quiet) :
    (l.foldl step s).Quiet := by
  induction l generalizing s with
  | nil => exact quiet
  | cons a l ih => exact ih (keeps s a quiet)

namespace RtcpInput

variable (t : RtcpInput)

theorem handleReportBlock_quiet {s : Handling} (quiet : s.Quiet) (block : RtcpReportBlock)
    (remoteSsrc : BitVec 32) : (t.handleReportBlock s block remoteSsrc).Quiet := by
  unfold handleReportBlock
  simp only
  split
  · exact quiet
  · exact quiet

/-- What is recorded of a block that answers a sender report. -/
theorem handleReportBlock_rtt (s : Handling) {block : RtcpReportBlock} (remoteSsrc : BitVec 32)
    (answers : block.lastSr ≠ 0) :
    (t.handleReportBlock s block remoteSsrc).rtt =
      some (SystemClock.compactNtpIntervalToMilliseconds
        (SystemClock.compactNtp (SystemClock.monotonicTimeUsToNtp t.monotonicToUtcOffsetUs
          (t.timeUs s.readings)) - block.delaySinceLastSr - block.lastSr)) := by
  simp only [handleReportBlock, if_pos answers]

theorem handleSenderReport_within {s : Handling} (quiet : s.Quiet) {rtcpBlock : RtcpCommonHeader}
    (inside : rtcpBlock.Inside) :
    ∃ valid s', t.handleSenderReport s rtcpBlock = some (valid, s') ∧ s'.Quiet := by
  obtain ⟨result, parsed⟩ := SenderReport.parse_within {} inside
  rw [handleSenderReport, parsed]
  cases result with
  | none => exact ⟨_, _, rfl, quiet⟩
  | some report =>
    refine ⟨_, _, rfl, ?_⟩
    split
    · exact quiet.call nofun
    · exact quiet

theorem handleReceiverReport_within {s : Handling} (quiet : s.Quiet) {rtcpBlock : RtcpCommonHeader}
    (inside : rtcpBlock.Inside) :
    ∃ valid s', t.handleReceiverReport s rtcpBlock = some (valid, s') ∧ s'.Quiet := by
  obtain ⟨result, parsed⟩ := ReceiverReport.parse_within {} inside
  rw [handleReceiverReport, parsed]
  cases result with
  | none => exact ⟨_, _, rfl, quiet⟩
  | some report =>
    have named : Handling.Quiet { s with remoteSsrc := report.senderSsrc } := quiet
    exact ⟨_, _, rfl, named.foldl (fun s block quiet =>
      t.handleReportBlock_quiet quiet block report.senderSsrc) report.reports⟩

theorem handleCongestionControlFeedback_within {s : Handling} (quiet : s.Quiet)
    {rtcpBlock : RtcpCommonHeader} (inside : rtcpBlock.Inside) :
    ∃ valid s', t.handleCongestionControlFeedback s rtcpBlock = some (valid, s') ∧ s'.Quiet := by
  rw [handleCongestionControlFeedback, CongestionControlFeedback.parseChecked_eq inside]
  cases CongestionControlFeedback.parse rtcpBlock with
  | none => exact ⟨_, _, rfl, quiet⟩
  | some feedback =>
    simp only [Option.bind_eq_bind, Option.bind_some]
    split
    · exact ⟨_, _, rfl, quiet⟩
    · refine ⟨_, _, rfl, ?_⟩
      split
      · exact quiet.call nofun
      · exact quiet

theorem handleNack_within {s : Handling} (quiet : s.Quiet) {rtcpBlock : RtcpCommonHeader}
    (inside : rtcpBlock.Inside) :
    ∃ valid s', t.handleNack s rtcpBlock = some (valid, s') ∧ s'.Quiet := by
  obtain ⟨result, parsed⟩ := Nack.parse_within inside
  rw [handleNack, parsed]
  cases result with
  | none => exact ⟨_, _, rfl, quiet⟩
  | some nack =>
    simp only [Option.bind_eq_bind, Option.bind_some]
    split
    · exact ⟨_, _, rfl, quiet.call nofun⟩
    · exact ⟨_, _, rfl, quiet⟩

theorem handleFir_within {s : Handling} (quiet : s.Quiet) {rtcpBlock : RtcpCommonHeader}
    (inside : rtcpBlock.Inside) :
    ∃ valid s', t.handleFir s rtcpBlock = some (valid, s') ∧ s'.Quiet := by
  obtain ⟨result, parsed⟩ := Fir.parse_within inside
  rw [handleFir, parsed]
  cases result with
  | none => exact ⟨_, _, rfl, quiet⟩
  | some fir =>
    simp only [Option.bind_eq_bind, Option.bind_some]
    split
    · refine ⟨_, _, rfl, quiet.foldl ?_ fir.requests⟩
      intro s request quiet
      exact quiet.call fun _ => nofun
    · exact ⟨_, _, rfl, quiet⟩

theorem handleReply_quiet (arrivalUs : Int) (referenceTime : Option (BitVec 64)) {s : Handling}
    (quiet : s.Quiet) (reply : Dlrr) : (t.handleReply arrivalUs referenceTime s reply).Quiet := by
  unfold handleReply
  rcases receiveReply s.pending reply t.receiverRttSsrc arrivalUs with ⟨_ | rtt, pending⟩
  · exact quiet
  have kept : Handling.Quiet { s with pending } := quiet
  simp only
  split
  · have reported := kept.call (c := .onTransportRtt rtt) fun _ => nofun
    cases referenceTime with
    | none => exact reported
    | some time =>
      simp only
      split
      · exact (reported.reading _).call fun _ => nofun
      · exact reported
  · exact kept

theorem handleExtendedReport_within {s : Handling} (quiet : s.Quiet) (block : RtcpCommonHeader) :
    ∃ valid s', t.handleExtendedReport s block = some (valid, s') ∧ s'.Quiet := by
  have asked : Handling.Quiet { s with readings := s.readings + 1 } := quiet
  obtain ⟨result, parsed⟩ := RttReport.parse_within block.region
  rw [handleExtendedReport, parsed]
  cases result with
  | none => exact ⟨_, _, rfl, asked⟩
  | some report =>
    refine ⟨_, _, rfl, Handling.Quiet.foldl
      (fun s reply quiet => t.handleReply_quiet _ _ quiet reply) report.replies ?_⟩
    cases report.referenceTime with
    | none => exact asked
    | some time =>
      simp only
      split
      · exact (asked.reading _).call fun _ => nofun
      · exact asked

/-- Every handler of a switch ends within the payload of its block. -/
theorem handleBlock_within {s : Handling} (quiet : s.Quiet) {rtcpBlock : RtcpCommonHeader}
    (inside : rtcpBlock.Inside) :
    ∃ valid s', t.handleBlock s rtcpBlock = some (valid, s') ∧ s'.Quiet := by
  unfold handleBlock
  split
  · exact t.handleExtendedReport_within quiet rtcpBlock
  split
  · exact t.handleSenderReport_within quiet inside
  split
  · exact t.handleReceiverReport_within quiet inside
  split
  · split
    · exact t.handleCongestionControlFeedback_within quiet inside
    split
    · exact t.handleNack_within quiet inside
    · exact ⟨_, _, rfl, quiet⟩
  split
  · split
    · exact t.handleFir_within quiet inside
    · exact ⟨_, _, rfl, quiet⟩
  · exact ⟨_, _, rfl, quiet⟩

end RtcpInput

/-! ### What the loop has walked over -/

/-- The octets of a block: the header, what its parser may read, and the padding. -/
def WalkedBlock.Whole (b : WalkedBlock) : Prop :=
  ∃ head padding : Bytes, b.octets = head ++ (b.header.region ++ padding) ∧ head.length = 4 ∧
    b.header.region.length = b.header.payloadSize ∧ padding.length = b.header.paddingSize

/-- An accepted header makes a block of as many octets as it announces. -/
theorem parsed_whole {remaining : Bytes} {rtcpBlock : RtcpCommonHeader}
    (parsed : RtcpCommonHeader.parse remaining = some rtcpBlock) (valid : Bool) :
    WalkedBlock.Whole ⟨remaining.take rtcpBlock.packetSize, rtcpBlock, valid⟩ := by
  obtain ⟨payload, size, inside⟩ := RtcpCommonHeader.parse_inside parsed
  refine ⟨remaining.take 4, ((remaining.drop 4).drop rtcpBlock.payloadSize).take rtcpBlock.paddingSize,
    ?_, ?_, inside.region_length, ?_⟩
  · rw [RtcpCommonHeader.region, payload, RtcpCommonHeader.packetSize, Nat.add_assoc, List.take_add,
      List.take_add]
  · rw [RtcpCommonHeader.packetSize] at size
    rw [List.length_take]
    omega
  · rw [RtcpCommonHeader.packetSize] at size
    rw [List.length_take, List.length_drop, List.length_drop, Nat.min_eq_left (by omega)]

/-- What holds at the top of the loop with so much of the buffer left. -/
structure Walk.Sound (buffer remaining : Bytes) (w : Walk) : Prop where
  walked : w.blocks.flatMap WalkedBlock.octets ++ remaining = buffer
  whole : ∀ b ∈ w.blocks, b.Whole
  judged : w.valid = true → ∀ b ∈ w.blocks, b.valid = true
  quiet : w.handling.Quiet

/-- One turn of the loop. -/
theorem Walk.Sound.step {buffer remaining : Bytes} {w : Walk} (sound : w.Sound buffer remaining)
    {rtcpBlock : RtcpCommonHeader} (parsed : RtcpCommonHeader.parse remaining = some rtcpBlock)
    (valid : Bool) {handling : Handling} (quiet : handling.Quiet) :
    Walk.Sound buffer (remaining.drop rtcpBlock.packetSize)
      { handling
        valid := w.valid && valid
        blocks := w.blocks ++ [⟨remaining.take rtcpBlock.packetSize, rtcpBlock, valid⟩] } := by
  constructor
  · rw [List.flatMap_append, List.flatMap_cons, List.flatMap_nil, List.append_nil, List.append_assoc,
      List.take_append_drop]
    exact sound.walked
  · intro b member
    rcases List.mem_append.mp member with earlier | new
    · exact sound.whole b earlier
    · rw [List.mem_singleton.mp new]
      exact parsed_whole parsed valid
  · intro both b member
    have ⟨before, now⟩ := (Bool.and_eq_true _ _).mp both
    rcases List.mem_append.mp member with earlier | new
    · exact sound.judged before b earlier
    · rw [List.mem_singleton.mp new]
      exact now
  · exact quiet

namespace RtcpInput

variable (t : RtcpInput)

theorem walkBlocks_sound {buffer : Bytes} {turns : Nat} {remaining : Bytes} {w : Walk}
    (enough : remaining.length < turns) (sound : w.Sound buffer remaining)
    (running : w.covered = false) :
    ∃ w' rest, t.walkBlocks turns remaining w = some w' ∧ w'.Sound buffer rest ∧
      (w'.covered = true → rest = []) := by
  induction turns generalizing remaining w with
  | zero => exact absurd enough (Nat.not_lt_zero _)
  | succ turns ih =>
    rw [walkBlocks]
    split
    · rename_i empty
      exact ⟨_, remaining, rfl, ⟨sound.walked, sound.whole, sound.judged, sound.quiet⟩, fun _ => empty⟩
    have stopped : w.covered = true → remaining = [] := by
      rw [running]
      exact nofun
    rw [RtcpCommonHeader.parseChecked_eq]
    cases parsed : RtcpCommonHeader.parse remaining with
    | none => exact ⟨w, remaining, rfl, sound, stopped⟩
    | some rtcpBlock =>
      simp only [Option.bind_eq_bind, Option.bind_some]
      split
      · exact ⟨w, remaining, rfl, sound, stopped⟩
      obtain ⟨payload, size, inside⟩ := RtcpCommonHeader.parse_inside parsed
      obtain ⟨valid, handling, handled, quiet⟩ := t.handleBlock_within sound.quiet inside
      rw [handled, Option.bind_some]
      refine ih ?_ (sound.step parsed valid quiet) rfl
      rw [List.length_drop]
      rw [RtcpCommonHeader.packetSize] at *
      omega

/-- A compound packet is read within its blocks, and all of it must be valid. -/
theorem parse_rtcp_packet_safe (pending : List ProbeTime) (buffer : Bytes) :
    ∃ result w, t.parseRtcpPacket pending buffer = some (result, w) ∧
      (∃ rest, w.blocks.flatMap WalkedBlock.octets ++ rest = buffer) ∧
      (∀ b ∈ w.blocks, b.Whole) ∧
      ∀ datas, .onReceiverReport datas ∈ w.handling.calls →
        (∀ b ∈ w.blocks, b.valid = true) ∧ w.blocks.flatMap WalkedBlock.octets = buffer := by
  unfold parseRtcpPacket
  split
  · rename_i empty
    exact ⟨_, _, rfl, ⟨[], empty.symm⟩, nofun, nofun⟩
  have start : Walk.Sound buffer buffer { handling := { pending } } := ⟨rfl, nofun, nofun, nofun⟩
  obtain ⟨w, rest, walked, sound, covers⟩ :=
    t.walkBlocks_sound (Nat.lt_succ_self buffer.length) start rfl
  rw [walked]
  simp only [Option.bind_eq_bind, Option.bind_some]
  have unreported : ∀ datas, .onReceiverReport datas ∈ w.handling.calls →
      (∀ b ∈ w.blocks, b.valid = true) ∧ w.blocks.flatMap WalkedBlock.octets = buffer :=
    fun datas member => absurd member (sound.quiet datas)
  split
  · rename_i complete
    have ⟨covered, valid⟩ := (Bool.and_eq_true _ _).mp complete
    have whole := sound.walked
    rw [covers covered, List.append_nil] at whole
    split
    · exact ⟨_, _, rfl, ⟨rest, sound.walked⟩, sound.whole, fun _ _ => ⟨sound.judged valid, whole⟩⟩
    · exact ⟨_, _, rfl, ⟨rest, sound.walked⟩, sound.whole, unreported⟩
  · exact ⟨_, _, rfl, ⟨rest, sound.walked⟩, sound.whole, unreported⟩

end RtcpInput

end MiniRtc.Transport
