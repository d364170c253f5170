import MiniRtc.Common.SystemClock
import MiniRtc.Lib.Runs
import MiniRtc.Qos.TransportFeedbackAdapter
import MiniRtc.Rtcp.Reports

/-! The reception statistics of `RtpVideoReceiver` and the report that is made of them
(rtp_video_receiver.cpp). Losses are integers; the source has 32 bits for them. -/
namespace MiniRtc.Video
open Wire Rtcp

def kVideoPayloadTypeFrequency : Nat := 90000

structure ReceiverStats where
  jitter : BitVec 32 := 0
  extendedHighSeqNum : BitVec 16 := 0
  cumulativeLoss : Int := 0
  lastReportCumulativeLoss : Int := 0
  cumulativeLossRtcpOffset : Int := 0
  lastReceiveTime : Option Int := none
  lastPayloadTypeFrequency : Nat := 0
  lastExtendedHighSeqNum : BitVec 16 := 0
  jitterQ4 : BitVec 32 := 0
  lastReceivedTimestamp : BitVec 32 := 0
  lastRemoteNtpTimestamp : BitVec 32 := 0
  lastArrivalNtpTimestamp : BitVec 32 := 0
deriving DecidableEq, Repr

/-- A media packet that was not recovered. `obsolete` is what `IsFrameTimestampObsolete` says. -/
structure MediaArrival where
  sequenceNumber : BitVec 16
  timestamp : BitVec 32
  now : Int
  obsolete : Bool := false
deriving DecidableEq, Repr

namespace ReceiverStats

def reviseFrequencyAndJitter (s : ReceiverStats) (payloadTypeFrequency : Nat) : ReceiverStats :=
  if payloadTypeFrequency = s.lastPayloadTypeFrequency then s
  else if payloadTypeFrequency ≠ 0 then
    { s with
      jitterQ4 :=
        if s.lastPayloadTypeFrequency ≠ 0 then
          BitVec.ofNat 32 (s.jitterQ4.toNat * payloadTypeFrequency / s.lastPayloadTypeFrequency)
        else s.jitterQ4
      lastPayloadTypeFrequency := payloadTypeFrequency }
  else s

/-- The branch of a packet with another timestamp than the one before. -/
def updateJitter (s : ReceiverStats) (p : MediaArrival) (lastReceiveTime : Int) : ReceiverStats :=
  let receiveDiff := p.now - lastReceiveTime
  let receiveDiffRtp := BitVec.ofInt 32
    (Qos.TransportFeedbackAdapter.divideRoundToNearest (receiveDiff * kVideoPayloadTypeFrequency) 1000000)
  let timeDiffSamples := receiveDiffRtp - (p.timestamp - s.lastReceivedTimestamp)
  let s := s.reviseFrequencyAndJitter kVideoPayloadTypeFrequency
  let jitterQ4 :=
    if timeDiffSamples.toInt < 5 * kVideoPayloadTypeFrequency ∧
        -(5 * kVideoPayloadTypeFrequency) < timeDiffSamples.toInt then
      let jitterDiffQ4 := BitVec.ofNat 32 timeDiffSamples.toInt.natAbs <<< 4 - s.jitterQ4
      s.jitterQ4 + (jitterDiffQ4 + 8).sshiftRight 4
    else s.jitterQ4
  { s with jitterQ4, jitter := jitterQ4 >>> 4 }

/-- The statistics in `InsertMediaPacket`. A packet of an obsolete frame does not get there. -/
def onMediaPacket (s : ReceiverStats) (p : MediaArrival) : ReceiverStats :=
  if p.obsolete then s
  else
    let sequenceNumber := p.sequenceNumber
    let s := { s with cumulativeLoss := s.cumulativeLoss - 1 }
    let s :=
      if s.lastReceiveTime.isNone then
        { s with
          lastExtendedHighSeqNum := sequenceNumber - 1
          extendedHighSeqNum := sequenceNumber - 1
          lastReceiveTime := some p.now }
      else s
    let s := { s with
      cumulativeLoss := s.cumulativeLoss + (sequenceNumber.toNat - s.extendedHighSeqNum.toNat)
      extendedHighSeqNum := sequenceNumber }
    let s :=
      if p.timestamp ≠ s.lastReceivedTimestamp then s.updateJitter p (s.lastReceiveTime.getD p.now)
      else s
    { s with lastReceivedTimestamp := p.timestamp, lastReceiveTime := some p.now }

/-- `OnSenderReport`, as far as the next report shows it. -/
def onSenderReport (s : ReceiverStats) (remoteSsrc : BitVec 32) (senderReport : SenderReport)
    (currentNtpTime : BitVec 64) : ReceiverStats :=
  if senderReport.senderSsrc ≠ remoteSsrc ∨ senderReport.ntpTimestamp = 0 then s
  else
    { s with
      lastRemoteNtpTimestamp := senderReport.compactNtpTimestamp
      lastArrivalNtpTimestamp := SystemClock.compactNtp currentNtpTime }

def fractionLost (s : ReceiverStats) : Byte :=
  let expSinceLast : Int := s.extendedHighSeqNum.toNat - s.lastExtendedHighSeqNum.toNat
  let lostSinceLast := s.cumulativeLoss - s.lastReportCumulativeLoss
  if 0 < expSinceLast ∧ 0 < lostSinceLast then BitVec.ofInt 8 (255 * lostSinceLast / expSinceLast)
  else 0

/-- The clamped loss, and the offset from then on. -/
def clampedLoss (s : ReceiverStats) : Int × Int :=
  let cumulativeLost := s.cumulativeLoss + s.cumulativeLossRtcpOffset
  let (cumulativeLost, offset) :=
    if cumulativeLost < 0 then (0, -s.cumulativeLoss) else (cumulativeLost, s.cumulativeLossRtcpOffset)
  (if 0x7fffff < cumulativeLost then 0x7fffff else cumulativeLost, offset)

/-- The report that `SendRR` builds and sends. -/
def sendRR (s : ReceiverStats) (ssrc remoteSsrc : BitVec 32) (currentNtpTime : BitVec 64) :
    ReceiverReport × ReceiverStats :=
  let now := SystemClock.compactNtp currentNtpTime
  let (cumulativeLost, cumulativeLossRtcpOffset) := s.clampedLoss
  let delaySinceLastSr :=
    if s.lastRemoteNtpTimestamp ≠ 0 then now - s.lastArrivalNtpTimestamp else 0
  let report : RtcpReportBlock :=
    ({ sourceSsrc := remoteSsrc, fractionLost := s.fractionLost } : RtcpReportBlock).setCumulativeLost
      (BitVec.ofInt 32 cumulativeLost)
  let report := { report with
    extendedHighSeqNum := s.extendedHighSeqNum.setWidth 32
    jitter := s.jitter
    lastSr := s.lastRemoteNtpTimestamp
    delaySinceLastSr }
  ({ senderSsrc := ssrc, reports := [report] },
    { s with
      cumulativeLossRtcpOffset
      lastExtendedHighSeqNum := s.extendedHighSeqNum
      lastReportCumulativeLoss := s.cumulativeLoss })

end ReceiverStats

/-- What happens to the statistics. -/
inductive ReceiverEvent where
  | mediaPacket (p : MediaArrival)
  | senderReport (report : SenderReport) (currentNtpTime : BitVec 64)
  | sendRR (currentNtpTime : BitVec 64)
deriving DecidableEq, Repr

namespace ReceiverStats

def handle (s : ReceiverStats) (ssrc remoteSsrc : BitVec 32) : ReceiverEvent → ReceiverStats
  | .mediaPacket p => s.onMediaPacket p
  | .senderReport report now => s.onSenderReport remoteSsrc report now
  | .sendRR now => (s.sendRR ssrc remoteSsrc now).2

end ReceiverStats

/-! ### What an operation keeps -/

namespace ReceiverStats

theorem reviseFrequencyAndJitter_keeps (s : ReceiverStats) (payloadTypeFrequency : Nat) :
    ∃ jitterQ4 lastPayloadTypeFrequency, s.reviseFrequencyAndJitter payloadTypeFrequency =
      { s with jitterQ4, lastPayloadTypeFrequency } := by
  unfold reviseFrequencyAndJitter
  split
  · exact ⟨_, _, rfl⟩
  split
  · exact ⟨_, _, rfl⟩
  · exact ⟨_, _, rfl⟩

theorem updateJitter_keeps (s : ReceiverStats) (p : MediaArrival) (lastReceiveTime : Int) :
    ∃ jitter jitterQ4 lastPayloadTypeFrequency, s.updateJitter p lastReceiveTime =
      { s with jitter, jitterQ4, lastPayloadTypeFrequency } := by
  obtain ⟨_, _, revised⟩ := s.reviseFrequencyAndJitter_keeps kVideoPayloadTypeFrequency
  simp only [updateJitter, revised]
  exact ⟨_, _, _, rfl⟩

/-- What a packet does to the statistics besides the jitter. The first packet counts from the
number before its own. -/
theorem onMediaPacket_counted (s : ReceiverStats) {p : MediaArrival} (counted : p.obsolete = false) :
    ∃ jitter jitterQ4 lastPayloadTypeFrequency, s.onMediaPacket p =
      { s with
        jitter, jitterQ4, lastPayloadTypeFrequency
        extendedHighSeqNum := p.sequenceNumber
        cumulativeLoss := s.cumulativeLoss - 1 + (p.sequenceNumber.toNat -
          (if s.lastReceiveTime.isNone then p.sequenceNumber - 1 else s.extendedHighSeqNum).toNat)
        lastExtendedHighSeqNum :=
          if s.lastReceiveTime.isNone then p.sequenceNumber - 1 else s.lastExtendedHighSeqNum
        lastReceivedTimestamp := p.timestamp
        lastReceiveTime := some p.now } := by
  rw [onMediaPacket, counted, if_neg nofun]
  simp only
  cases s.lastReceiveTime with
  | none =>
    simp only [Option.isNone_none, if_true]
    split
    · rw [(updateJitter_keeps _ p _).choose_spec.choose_spec.choose_spec]
      exact ⟨_, _, _, rfl⟩
    · exact ⟨_, _, _, rfl⟩
  | some time =>
    simp only [Option.isNone_some, if_false, Bool.false_eq_true]
    split
    · rw [(updateJitter_keeps _ p _).choose_spec.choose_spec.choose_spec]
      exact ⟨_, _, _, rfl⟩
    · exact ⟨_, _, _, rfl⟩

theorem onMediaPacket_sr (s : ReceiverStats) (p : MediaArrival) :
    (s.onMediaPacket p).lastRemoteNtpTimestamp = s.lastRemoteNtpTimestamp ∧
      (s.onMediaPacket p).lastArrivalNtpTimestamp = s.lastArrivalNtpTimestamp := by
  by_cases obsolete : p.obsolete = true
  · rw [onMediaPacket, if_pos obsolete]
    exact ⟨rfl, rfl⟩
  · obtain ⟨_, _, _, after⟩ := s.onMediaPacket_counted (Bool.eq_false_iff.mpr obsolete)
    rw [after]
    exact ⟨rfl, rfl⟩

theorem sendRR_sr (s : ReceiverStats) (ssrc remoteSsrc : BitVec 32) (now : BitVec 64) :
    (s.sendRR ssrc remoteSsrc now).2.lastRemoteNtpTimestamp = s.lastRemoteNtpTimestamp ∧
      (s.sendRR ssrc remoteSsrc now).2.lastArrivalNtpTimestamp = s.lastArrivalNtpTimestamp := ⟨rfl, rfl⟩

theorem clampedLoss_below {s : ReceiverStats} (below : s.cumulativeLoss + s.cumulativeLossRtcpOffset < 0) :
    s.clampedLoss = (0, -s.cumulativeLoss) := by
  simp only [clampedLoss, if_pos below]
  rfl

theorem clampedLoss_above {s : ReceiverStats} (above : 0 ≤ s.cumulativeLoss + s.cumulativeLossRtcpOffset) :
    s.clampedLoss =
      (min (s.cumulativeLoss + s.cumulativeLossRtcpOffset) (2 ^ 23 - 1), s.cumulativeLossRtcpOffset) := by
  simp only [clampedLoss, if_neg (Int.not_lt.mpr above)]
  split
  · rw [Int.min_eq_right (by omega)]
    rfl
  · rw [Int.min_eq_left (by omega)]

/-- The clamp leaves a number of 24 bits. -/
theorem clampedLoss_range (s : ReceiverStats) : 0 ≤ s.clampedLoss.1 ∧ s.clampedLoss.1 < 2 ^ 23 := by
  by_cases below : s.cumulativeLoss + s.cumulativeLossRtcpOffset < 0
  · rw [clampedLoss_below below]
    show (0 : Int) ≤ 0 ∧ (0 : Int) < 2 ^ 23
    decide
  · rw [clampedLoss_above (Int.not_lt.mp below)]
    simp only
    omega

/-- The only block of a report. -/
def reportBlock (s : ReceiverStats) (remoteSsrc : BitVec 32) (currentNtpTime : BitVec 64) :
    RtcpReportBlock where
  sourceSsrc := remoteSsrc
  fractionLost := s.fractionLost
  cumulativeLost := BitVec.ofInt 32 s.clampedLoss.1
  extendedHighSeqNum := s.extendedHighSeqNum.setWidth 32
  jitter := s.jitter
  lastSr := s.lastRemoteNtpTimestamp
  delaySinceLastSr :=
    if s.lastRemoteNtpTimestamp ≠ 0 then
      SystemClock.compactNtp currentNtpTime - s.lastArrivalNtpTimestamp
    else 0

theorem toInt_clampedLoss (s : ReceiverStats) :
    (BitVec.ofInt 32 s.clampedLoss.1).toInt = s.clampedLoss.1 := by
  have range := s.clampedLoss_range
  rw [BitVec.toInt_ofInt, Int.bmod_eq_of_le (by omega) (by omega)]

theorem sendRR_reports (s : ReceiverStats) (ssrc remoteSsrc : BitVec 32) (now : BitVec 64) :
    (s.sendRR ssrc remoteSsrc now).1 =
      { senderSsrc := ssrc, reports := [s.reportBlock remoteSsrc now] } := by
  have range := s.clampedLoss_range
  have fits : ¬ (2 ^ 23 ≤ (BitVec.ofInt 32 s.clampedLoss.1).toInt ∨
      (BitVec.ofInt 32 s.clampedLoss.1).toInt < -2 ^ 23) := by
    rw [toInt_clampedLoss]
    omega
  simp only [sendRR, RtcpReportBlock.setCumulativeLost, if_neg fits]
  rfl

theorem reportBlock_fits (s : ReceiverStats) (remoteSsrc : BitVec 32) (now : BitVec 64) :
    (s.reportBlock remoteSsrc now).LossFits := by
  have range := s.clampedLoss_range
  unfold RtcpReportBlock.LossFits
  rw [reportBlock, toInt_clampedLoss]
  omega

end ReceiverStats

end MiniRtc.Video
