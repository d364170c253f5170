import MiniRtc.Lib.Binary32
import MiniRtc.Lib.LeastSquares

/-! The local time at which a remote frame was captured (remote_capture_time_estimator.h). The reports of the sender
give a line from RTP timestamps to the sender's clock, and the exchange of the least delay its offset. Real
arithmetic is exact. -/
namespace MiniRtc

structure RemoteCaptureTimeEstimator.Sample where
  rtp : BitVec 32
  remoteUs : Int
  arrivalUs : Int
deriving DecidableEq

structure RemoteCaptureTimeEstimator.Offset where
  offsetUs : Int
  rttUs : Int
  timeUs : Int
deriving DecidableEq

/-- Both queues, oldest first. -/
structure RemoteCaptureTimeEstimator where
  samples : List RemoteCaptureTimeEstimator.Sample := []
  offsets : List RemoteCaptureTimeEstimator.Offset := []
deriving DecidableEq

namespace RemoteCaptureTimeEstimator

def kMaxAgeUs : Int := 5000000

def rtpDelta (a b : BitVec 32) : Int :=
  let delta := a - b
  if delta.toNat ≤ 0x7fffffff then delta.toNat else delta.toNat - 2 ^ 32

/-- `llround`, at a tie away from zero. -/
def llround (x : ℚ) : Int := if 0 ≤ x then Binary32.llround x else -Binary32.llround (-x)

def dropOffsets (nowUs : Int) : List Offset → List Offset
  | [] => []
  | front :: rest =>
    if 8 < (front :: rest).length ∨ kMaxAgeUs < nowUs - front.timeUs then dropOffsets nowUs rest else front :: rest

def refusesOffset (rttUs : Int) : Bool := rttUs < 0 || 2000000 < rttUs

/-- The clock went back. -/
def goesBack (offsets : List Offset) (nowUs : Int) : Bool := offsets.getLast?.any fun back => nowUs < back.timeUs

def updateClockOffset (e : RemoteCaptureTimeEstimator) (offsetUs rttUs nowUs : Int) : RemoteCaptureTimeEstimator :=
  if refusesOffset rttUs then e
  else
    let offsets := if goesBack e.offsets nowUs then [] else e.offsets
    { e with offsets := dropOffsets nowUs (offsets ++ [⟨offsetUs, rttUs, nowUs⟩]) }

namespace Sample

variable (last : Sample) (rtp : BitVec 32) (remoteUs : Int)

/-- A report that repeats one of the two clocks. -/
def repeats : Bool := rtp = last.rtp || remoteUs = last.remoteUs

def elapsed : Int := remoteUs - last.remoteUs

/-- Both clocks do not agree any more. -/
def drifts : Bool := 100000 < |(last.elapsed remoteUs : ℚ) - rtpDelta rtp last.rtp * (1000000 / 90000)|

/-- The stream or the clock is not continued. -/
def breaks : Bool :=
  rtpDelta rtp last.rtp ≤ 0 || last.elapsed remoteUs ≤ 0 || kMaxAgeUs < last.elapsed remoteUs ||
    last.drifts rtp remoteUs

/-- The offset is not to be trusted any more either. -/
def disagrees : Bool := last.elapsed remoteUs ≤ 0 || last.drifts rtp remoteUs

end Sample

/-- A new sample; there are not more than 20. -/
def pushSample (samples : List Sample) (sample : Sample) : List Sample :=
  let samples := samples ++ [sample]
  if 20 < samples.length then samples.drop 1 else samples

def updateSenderReport (e : RemoteCaptureTimeEstimator) (rtp : BitVec 32) (remoteUs arrivalUs : Int) :
    RemoteCaptureTimeEstimator :=
  let sample : Sample := ⟨rtp, remoteUs, arrivalUs⟩
  match e.samples.getLast? with
  | none => { e with samples := pushSample e.samples sample }
  | some last =>
    if last.repeats rtp remoteUs then e
    else if last.breaks rtp remoteUs then
      { samples := pushSample [] sample
        offsets := if last.disagrees rtp remoteUs then [] else e.offsets }
    else { e with samples := pushSample e.samples sample }

/-- The loop over the offsets: the newest of the least round trip time. -/
def bestOffset (nowUs : Int) : List Offset → Option Offset → Option Offset
  | [], best => best
  | offset :: rest, best =>
    if nowUs < offset.timeUs ∨ kMaxAgeUs < nowUs - offset.timeUs then bestOffset nowUs rest best
    else
      match best with
      | none => bestOffset nowUs rest (some offset)
      | some b => if offset.rttUs ≤ b.rttUs then bestOffset nowUs rest (some offset) else bestOffset nowUs rest best

/-- The coordinates of a sample, seen from the last one. -/
def ticks (anchor s : Sample) : ℚ := rtpDelta s.rtp anchor.rtp

def remote (anchor s : Sample) : ℚ := s.remoteUs - anchor.remoteUs

/-- The time that the samples give a timestamp on the sender's clock, seen from the last sample. -/
def fitted (samples : List Sample) (anchor : Sample) (rtp : BitVec 32) : ℚ :=
  LeastSquares.predict (ticks anchor) (remote anchor) samples (rtpDelta rtp anchor.rtp)

def estimate (e : RemoteCaptureTimeEstimator) (rtp : BitVec 32) (nowUs : Int) : Option Int :=
  match e.samples.getLast? with
  | none => none
  | some anchor =>
    if e.samples.length < 3 ∨ nowUs < anchor.arrivalUs ∨ kMaxAgeUs < nowUs - anchor.arrivalUs then none
    else
      match bestOffset nowUs e.offsets none with
      | none => none
      | some best =>
        if LeastSquares.variance (ticks anchor) e.samples = 0 then none
        else
          let slope := LeastSquares.slope (ticks anchor) (remote anchor) e.samples
          if slope < 11 ∨ 1123 / 100 < slope then none
          else
            let mapped := anchor.remoteUs + best.offsetUs + llround (fitted e.samples anchor rtp)
            if mapped ≤ 0 ∨ nowUs < mapped ∨ kMaxAgeUs < nowUs - mapped then none else some mapped

def reset (_ : RemoteCaptureTimeEstimator) : RemoteCaptureTimeEstimator := {}

def resetClockOffset (e : RemoteCaptureTimeEstimator) : RemoteCaptureTimeEstimator := { e with offsets := [] }

end RemoteCaptureTimeEstimator

end MiniRtc
