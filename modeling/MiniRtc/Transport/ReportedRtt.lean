import MiniRtc.Transport.RtcpInput
import MiniRtc.Video.ReceiverStats

/-! The round trip that a receiver report tells its sender, from the clock reading of the sender
report to the one of the handled block. -/
namespace MiniRtc.Transport
open Rtcp Video

/-- A sender report and the receiver report that answers it. Clocks are in nanoseconds; the two
sides have nothing in common but the length of a nanosecond. -/
structure Exchange where
  sentNs : Int
  takenNs : Int
  reportedNs : Int
  handledNs : Int
  senderOffsetUs : Int
  receiverOffsetUs : Int
  -- the rest of the sender report
  senderSsrc : BitVec 32
  rtpTs : BitVec 32 := 0
  senderPacketCount : BitVec 32 := 0
  senderOctetCount : BitVec 32 := 0
  -- the receiver before it, and what happens there before its report
  receiverSsrc : BitVec 32
  stats : ReceiverStats := {}
  between : List ReceiverEvent := []
  answers : ∀ e ∈ between, ∀ report now, e ≠ .senderReport report now

namespace Exchange

variable (x : Exchange)

def senderReport : SenderReport :=
  let report := (({} : SenderReport).setSenderSsrc x.senderSsrc).setNtpTimestamp
    (SystemClock.monotonicTimeUsToNtp x.senderOffsetUs (SystemClock.currentTimeUs x.sentNs))
  { report with senderInfo := { report.senderInfo with
      rtpTs := x.rtpTs
      senderPacketCount := x.senderPacketCount
      senderOctetCount := x.senderOctetCount } }

/-- `CurrentNtpTime` of the receiver. -/
def receiverNtp (monotonicTimeNs : Int) : BitVec 64 :=
  SystemClock.monotonicTimeUsToNtp x.receiverOffsetUs (SystemClock.currentTimeUs monotonicTimeNs)

/-- What arrives of the sender report. -/
def takenReport : Option SenderReport := do
  let built ← x.senderReport.build
  let packet ← RtcpCommonHeader.parse built.buffer
  (← ({} : SenderReport).parse packet)

/-- What arrives of the receiver report. -/
def answer : Option RtcpCommonHeader := do
  let report ← x.takenReport
  let stats := x.stats.onSenderReport x.senderSsrc report (x.receiverNtp x.takenNs)
  let stats := x.between.foldl (fun stats e => stats.handle x.receiverSsrc x.senderSsrc e) stats
  let built ← (stats.sendRR x.receiverSsrc x.senderSsrc (x.receiverNtp x.reportedNs)).1.build
  RtcpCommonHeader.parse built.buffer

/-- The transport of the sender when it handles the block. -/
def input : RtcpInput where
  monotonicToUtcOffsetUs := x.senderOffsetUs
  timeUs := fun _ => SystemClock.currentTimeUs x.handledNs
  utcTimeUs := fun _ => SystemClock.currentTimeUs x.handledNs + x.senderOffsetUs

/-- The round trip in milliseconds that `HandleReportBlock` records. -/
def rtt : Option Int := do
  let packet ← x.answer
  let (_, handling) ← x.input.handleReceiverReport {} packet
  handling.rtt

/-- The true round trip. -/
def trueNs : Int := (x.handledNs - x.sentNs) - (x.reportedNs - x.takenNs)

/-- The units of 1/65536 seconds that pass on a clock between two readings. -/
def ticks (offsetUs fromNs untilNs : Int) : Int :=
  SystemClock.compactTicks (SystemClock.currentTimeUs untilNs + offsetUs) -
    SystemClock.compactTicks (SystemClock.currentTimeUs fromNs + offsetUs)

/-! ### The four readings in the interval -/

theorem takenReport_eq :
    x.takenReport = some { ({} : SenderReport) with
      senderSsrc := x.senderSsrc
      senderInfo := x.senderReport.senderInfo } := by
  have none : ∀ r ∈ x.senderReport.reports, r.LossFits := by
    intro r member
    exact absurd member List.not_mem_nil
  have few : x.senderReport.reports.length ≤ 31 := Nat.zero_le 31
  have header := announces_packetOctets SR x.senderReport.senderInfo.octets few (by simp) (by simp)
  rw [takenReport, SenderReport.build_eq few]
  simp only [Option.bind_eq_bind, Option.bind_some, header.parsed]
  rw [SenderReport.parse_eq {} x.senderReport.senderInfo few none]
  rfl

/-- A compact time that is not zero is that of an NTP time that is not zero. -/
theorem ntpTimestamp_ne_zero {report : SenderReport} (named : report.compactNtpTimestamp ≠ 0) :
    report.ntpTimestamp ≠ 0 := by
  intro zero
  apply named
  have compact := SystemClock.compactNtp_join report.senderInfo.ntpTsMsw report.senderInfo.ntpTsLsw
  rw [← SenderReport.ntpTimestamp, zero] at compact
  rw [SenderReport.compactNtpTimestamp, ← compact]
  rfl

theorem foldl_sr (ssrc remoteSsrc : BitVec 32) (stats : ReceiverStats) {events : List ReceiverEvent}
    (answers : ∀ e ∈ events, ∀ report now, e ≠ .senderReport report now) :
    (events.foldl (fun stats e => stats.handle ssrc remoteSsrc e) stats).lastRemoteNtpTimestamp =
        stats.lastRemoteNtpTimestamp ∧
      (events.foldl (fun stats e => stats.handle ssrc remoteSsrc e) stats).lastArrivalNtpTimestamp =
        stats.lastArrivalNtpTimestamp := by
  induction events generalizing stats with
  | nil => exact ⟨rfl, rfl⟩
  | cons e rest ih =>
    obtain ⟨sent, arrived⟩ := ih (stats.handle ssrc remoteSsrc e) fun e member =>
      answers e (List.mem_cons_of_mem _ member)
    rw [List.foldl_cons, sent, arrived]
    cases e with
    | mediaPacket p => exact stats.onMediaPacket_sr p
    | senderReport report now => exact absurd rfl (answers _ List.mem_cons_self report now)
    | sendRR now => exact stats.sendRR_sr ssrc remoteSsrc now

theorem ofInt_sub (a b : Int) : BitVec.ofInt 32 (a - b) = BitVec.ofInt 32 a - BitVec.ofInt 32 b := by
  rw [eq_sub_iff_add_eq, ← BitVec.ofInt_add, sub_add_cancel]

/-- The interval is the difference of the units that pass on the two clocks, as a residue. -/
theorem rtt_eq (named : x.senderReport.compactNtpTimestamp ≠ 0) :
    x.rtt = some (SystemClock.compactNtpIntervalToMilliseconds (BitVec.ofInt 32
      (ticks x.senderOffsetUs x.sentNs x.handledNs - ticks x.receiverOffsetUs x.takenNs x.reportedNs))) := by
  have sent : x.senderReport.compactNtpTimestamp = SystemClock.compactNtp
      (SystemClock.monotonicTimeUsToNtp x.senderOffsetUs (SystemClock.currentTimeUs x.sentNs)) := rfl
  generalize taken : x.stats.onSenderReport x.senderSsrc { ({} : SenderReport) with
      senderSsrc := x.senderSsrc
      senderInfo := x.senderReport.senderInfo } (x.receiverNtp x.takenNs) = stats
  have kept : stats.lastRemoteNtpTimestamp = x.senderReport.compactNtpTimestamp ∧
      stats.lastArrivalNtpTimestamp = SystemClock.compactNtp (x.receiverNtp x.takenNs) := by
    rw [← taken, ReceiverStats.onSenderReport, if_neg]
    · exact ⟨rfl, rfl⟩
    · rintro (other | zero)
      · exact other rfl
      · exact ntpTimestamp_ne_zero named zero
  obtain ⟨remote, arrival⟩ := foldl_sr x.receiverSsrc x.senderSsrc stats x.answers
  rw [kept.1] at remote
  rw [kept.2] at arrival
  generalize final : x.between.foldl (fun stats e => stats.handle x.receiverSsrc x.senderSsrc e) stats =
    last at remote arrival
  have fits : ∀ r ∈ [last.reportBlock x.senderSsrc (x.receiverNtp x.reportedNs)], r.LossFits := by
    intro r member
    rw [List.mem_singleton.mp member]
    exact last.reportBlock_fits x.senderSsrc _
  have one : [last.reportBlock x.senderSsrc (x.receiverNtp x.reportedNs)].length ≤ 31 := Nat.le_add_left 1 30
  have header := announces_packetOctets RR (Wire.put32 x.receiverSsrc) one (by simp) (by simp)
  have answered : x.answer = some (packetOf RR (Wire.put32 x.receiverSsrc)
      [last.reportBlock x.senderSsrc (x.receiverNtp x.reportedNs)]) := by
    rw [answer, takenReport_eq]
    simp only [Option.bind_eq_bind, Option.bind_some]
    rw [taken, final, ReceiverStats.sendRR_reports, ReceiverReport.build_eq one]
    exact header.parsed
  rw [rtt, answered]
  simp only [Option.bind_eq_bind, Option.bind_some]
  rw [RtcpInput.handleReceiverReport, ReceiverReport.parse_eq {} x.receiverSsrc one fits]
  show (x.input.handleReportBlock { remoteSsrc := x.receiverSsrc }
    (last.reportBlock x.senderSsrc (x.receiverNtp x.reportedNs)).wire x.receiverSsrc).rtt = _
  have lastSr : (last.reportBlock x.senderSsrc (x.receiverNtp x.reportedNs)).wire.lastSr ≠ 0 := by
    show last.lastRemoteNtpTimestamp ≠ 0
    rw [remote]
    exact named
  have delay : (last.reportBlock x.senderSsrc (x.receiverNtp x.reportedNs)).wire.delaySinceLastSr =
      SystemClock.compactNtp (x.receiverNtp x.reportedNs) - SystemClock.compactNtp (x.receiverNtp x.takenNs) := by
    rw [← arrival]
    exact if_pos lastSr
  rw [RtcpInput.handleReportBlock_rtt _ _ _ lastSr, delay]
  simp only [RtcpReportBlock.wire, ReceiverStats.reportBlock, remote, sent, input, receiverNtp,
    SystemClock.monotonicTimeUsToNtp, SystemClock.compactNtp_utcTimeUsToNtp, ticks]
  refine congrArg (fun interval => some (SystemClock.compactNtpIntervalToMilliseconds interval)) ?_
  simp only [ofInt_sub]
  exact sub_right_comm _ _ _

/-! ### How far the interval is from the time that passed -/

/-- Two readings lose less than a microsecond each, and their compact forms less than a unit. -/
theorem ticks_near (offsetUs fromNs untilNs : Int) :
    (untilNs - fromNs) * 65536 - 1131000000 < ticks offsetUs fromNs untilNs * 1000000000 ∧
      ticks offsetUs fromNs untilNs * 1000000000 < (untilNs - fromNs) * 65536 + 1131000000 := by
  unfold ticks SystemClock.compactTicks SystemClock.currentTimeUs kMicrosecondsPerSecond
  have start := Int.mul_tdiv_add_tmod fromNs 1000
  have above := Int.tmod_lt_of_pos fromNs (show (0 : Int) < 1000 by decide)
  have below := Int.lt_tmod_of_pos fromNs (show (0 : Int) < 1000 by decide)
  have stop := Int.mul_tdiv_add_tmod untilNs 1000
  have above' := Int.tmod_lt_of_pos untilNs (show (0 : Int) < 1000 by decide)
  have below' := Int.lt_tmod_of_pos untilNs (show (0 : Int) < 1000 by decide)
  generalize fromNs.tdiv 1000 = fromUs at *
  generalize untilNs.tdiv 1000 = untilUs at *
  generalize fromNs.tmod 1000 = fromRest at *
  generalize untilNs.tmod 1000 = untilRest at *
  omega

/-- What an interval of so many units is in milliseconds: a negative one is one of many hours. -/
theorem milliseconds_near {ticks : Int} (least : -3 ≤ ticks) (most : ticks < 2 ^ 31) :
    (0 ≤ ticks →
      SystemClock.compactNtpIntervalToMilliseconds (BitVec.ofInt 32 ticks) =
        (ticks * 1000 + 32768) / 65536) ∧
    (ticks < 0 →
      65535999 ≤ SystemClock.compactNtpIntervalToMilliseconds (BitVec.ofInt 32 ticks)) := by
  unfold SystemClock.compactNtpIntervalToMilliseconds
  rw [BitVec.toNat_ofInt]
  constructor
  · intro forward
    have whole : (ticks % (2 ^ 32 : Nat)).toNat = ticks.toNat := by omega
    rw [whole]
    omega
  · intro backward
    have wrapped : ((ticks % (2 ^ 32 : Nat)).toNat : Int) = ticks + 4294967296 := by omega
    rw [wrapped]
    omega

/-- The recorded round trip is within a millisecond of the true one, if and only if the receiver's
clock does not count more units between its two readings than the sender's does between its own. -/
theorem reported_rtt_accurate (named : x.senderReport.compactNtpTimestamp ≠ 0)
    (least : 0 ≤ x.trueNs) (most : x.trueNs ≤ 2000000000) :
    ∃ rtt, x.rtt = some rtt ∧
      (|rtt * 1000000 - x.trueNs| ≤ 1000000 ↔
        ticks x.receiverOffsetUs x.takenNs x.reportedNs ≤ ticks x.senderOffsetUs x.sentNs x.handledNs) := by
  refine ⟨_, x.rtt_eq named, ?_⟩
  have sender := ticks_near x.senderOffsetUs x.sentNs x.handledNs
  have receiver := ticks_near x.receiverOffsetUs x.takenNs x.reportedNs
  unfold trueNs at *
  generalize ticks x.senderOffsetUs x.sentNs x.handledNs = sent at *
  generalize ticks x.receiverOffsetUs x.takenNs x.reportedNs = taken at *
  obtain ⟨forward, backward⟩ := @milliseconds_near (sent - taken) (by omega) (by omega)
  rw [abs_le]
  constructor
  · intro near
    by_contra behind
    have hours := backward (by omega)
    omega
  · intro ahead
    rw [forward (by omega)]
    omega

/-- Thirty microseconds, of which the receiver has the report for sixteen. -/
def quickAnswer : Exchange where
  sentNs := 0
  takenNs := 15000
  reportedNs := 31000
  handledNs := 30000
  senderOffsetUs := 0
  receiverOffsetUs := 0
  senderSsrc := 1
  receiverSsrc := 2
  answers := fun _ member => absurd member List.not_mem_nil

/-- A tenth of a second on the way, and as much at the receiver. -/
def slowAnswer : Exchange := { quickAnswer with reportedNs := 100015000, handledNs := 200000000 }

theorem reported_rtt_accurate_slow :
    ∃ rtt, slowAnswer.rtt = some rtt ∧
      (|rtt * 1000000 - slowAnswer.trueNs| ≤ 1000000 ↔
        ticks slowAnswer.receiverOffsetUs slowAnswer.takenNs slowAnswer.reportedNs ≤
          ticks slowAnswer.senderOffsetUs slowAnswer.sentNs slowAnswer.handledNs) :=
  slowAnswer.reported_rtt_accurate (by decide) (by decide) (by decide)

/-- Fourteen microseconds are recorded as eighteen hours. -/
theorem quick_answer_recorded : ¬ ∀ x : Exchange, x.senderReport.compactNtpTimestamp ≠ 0 →
    0 ≤ x.trueNs → x.trueNs ≤ 2000000000 → x.reportedNs - x.takenNs < 2 ^ 15 * 1000000000 →
    ∃ rtt, x.rtt = some rtt ∧ |rtt * 1000000 - x.trueNs| ≤ 1000000 := by
  intro accurate
  obtain ⟨rtt, recorded, near⟩ := accurate quickAnswer (by decide) (by decide) (by decide) (by decide)
  have hours : quickAnswer.rtt = some 65536000 := by
    rw [quickAnswer.rtt_eq (by decide)]
    decide
  rw [hours] at recorded
  cases recorded
  revert near
  decide

end Exchange

end MiniRtc.Transport
