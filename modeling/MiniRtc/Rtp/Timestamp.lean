import MiniRtc.Lib.Wrapping

/-! RTP timestamps and the time they stand for (rtp_timestamp.h). The generator rounds a capture time down
to a tick and keeps 32 bits of it; the mapper unwraps the ticks and makes microseconds of them again. -/
namespace MiniRtc.RtpTimestamp
open Wrapping

def kRtpTimestampMicrosecondsPerSecond : Int := 1000000

def rtpTicksToMicroseconds (ticks : Int) (clockRate : BitVec 32) : Int :=
  if clockRate = 0 then 0
  else
    ticks.tdiv clockRate.toNat * kRtpTimestampMicrosecondsPerSecond +
      (ticks.tmod clockRate.toNat * kRtpTimestampMicrosecondsPerSecond).tdiv clockRate.toNat

/-- The ticks of a time, in unsigned numbers of 64 bits. -/
def elapsedTicks (absoluteElapsedUs : BitVec 64) (clockRate : BitVec 32) : BitVec 64 :=
  absoluteElapsedUs / 1000000 * clockRate.setWidth 64 +
    absoluteElapsedUs % 1000000 * clockRate.setWidth 64 / 1000000

def extrapolateRtpTimestamp (anchorRtpTimestamp : BitVec 32) (anchorTimeUs targetTimeUs : Int)
    (clockRate : BitVec 32) : BitVec 32 :=
  let elapsedUs := targetTimeUs - anchorTimeUs
  let absoluteElapsedUs :=
    if 0 ≤ elapsedUs then BitVec.ofInt 64 elapsedUs else BitVec.ofInt 64 (-(elapsedUs + 1)) + 1
  let ticks := elapsedTicks absoluteElapsedUs clockRate
  if 0 ≤ elapsedUs then anchorRtpTimestamp + ticks.setWidth 32 else anchorRtpTimestamp - ticks.setWidth 32

structure RtpTimestampGenerator where
  clockRate : BitVec 32
  baseTimestamp : BitVec 32
  firstCaptureTimeUs : Option Int := none

namespace RtpTimestampGenerator

def timestampForTimeUsLocked (g : RtpTimestampGenerator) (firstCaptureTimeUs timeUs : Int) : BitVec 32 :=
  if timeUs - firstCaptureTimeUs ≤ 0 then g.baseTimestamp
  else extrapolateRtpTimestamp g.baseTimestamp firstCaptureTimeUs timeUs g.clockRate

def timestampForCaptureTimeUs (g : RtpTimestampGenerator) (captureTimeUs : Int) : BitVec 32 × RtpTimestampGenerator :=
  match g.firstCaptureTimeUs with
  | none => (g.baseTimestamp, { g with firstCaptureTimeUs := some captureTimeUs })
  | some first => (g.timestampForTimeUsLocked first captureTimeUs, g)

end RtpTimestampGenerator

structure TimestampUnwrapper where
  lastTimestamp : Option (BitVec 32) := none
  lastUnwrappedTimestamp : Int := 0

def TimestampUnwrapper.unwrap (u : TimestampUnwrapper) (timestamp : BitVec 32) : TimestampUnwrapper :=
  match u.lastTimestamp with
  | none => { lastTimestamp := some timestamp, lastUnwrappedTimestamp := timestamp.toNat }
  | some last =>
    let wrappedDelta := timestamp - last
    let delta : Int := if wrappedDelta.toNat ≤ 0x7fffffff then wrappedDelta.toNat else wrappedDelta.toNat - 2 ^ 32
    { lastTimestamp := some timestamp, lastUnwrappedTimestamp := u.lastUnwrappedTimestamp + delta }

structure RtpTimestampMapper where
  clockRate : BitVec 32
  unwrapper : TimestampUnwrapper := {}
  firstUnwrappedTimestamp : Option Int := none
  firstLocalTimeUs : Int := 0
  senderReportUnwrappedTimestamp : Option Int := none
  senderReportLocalTimeUs : Int := 0

namespace RtpTimestampMapper

def toLocalTimeUs (m : RtpTimestampMapper) (rtpTimestamp : BitVec 32) (arrivalTimeUs : Int) :
    Int × RtpTimestampMapper :=
  let m := { m with unwrapper := m.unwrapper.unwrap rtpTimestamp }
  let unwrappedTimestamp := m.unwrapper.lastUnwrappedTimestamp
  match m.senderReportUnwrappedTimestamp with
  | some report =>
    (m.senderReportLocalTimeUs + rtpTicksToMicroseconds (unwrappedTimestamp - report) m.clockRate, m)
  | none =>
    match m.firstUnwrappedTimestamp with
    | none =>
      (arrivalTimeUs,
        { m with firstUnwrappedTimestamp := some unwrappedTimestamp, firstLocalTimeUs := arrivalTimeUs })
    | some first =>
      (m.firstLocalTimeUs + rtpTicksToMicroseconds (unwrappedTimestamp - first) m.clockRate, m)

def updateFromSenderReport (m : RtpTimestampMapper) (rtpTimestamp : BitVec 32) (senderReportLocalTimeUs : Int) :
    RtpTimestampMapper :=
  let unwrapper := m.unwrapper.unwrap rtpTimestamp
  { m with
    unwrapper
    senderReportUnwrappedTimestamp := some unwrapper.lastUnwrappedTimestamp
    senderReportLocalTimeUs }

end RtpTimestampMapper

/-! ### The generator -/

/-- The ticks of an elapsed time, rounded down and not wrapped. -/
def ticksOf (clockRate : BitVec 32) (elapsedUs : Int) : Int :=
  elapsedUs * clockRate.toNat / kRtpTimestampMicrosecondsPerSecond

/-- The timestamp on the line through the base. -/
def lineTimestamp (baseTimestamp clockRate : BitVec 32) (elapsedUs : Int) : BitVec 32 :=
  BitVec.ofInt 32 (baseTimestamp.toNat + ticksOf clockRate elapsedUs)

/-- A rate that is not zero, with ticks of a microsecond at least. -/
structure Usual (clockRate : BitVec 32) : Prop where
  positive : 0 < clockRate.toNat
  slow : clockRate.toNat ≤ 1000000

section Generator

variable {clockRate : BitVec 32} (usual : Usual clockRate)

theorem ticksOf_mono {clockRate : BitVec 32} {a b : Int} (later : a ≤ b) : ticksOf clockRate a ≤ ticksOf clockRate b :=
  Int.ediv_le_ediv (by decide) (mul_le_mul_of_nonneg_right later (Int.natCast_nonneg _))

theorem ticksOf_zero (clockRate : BitVec 32) : ticksOf clockRate 0 = 0 := by
  rw [ticksOf, zero_mul]
  rfl

/-- Seconds and the rest of a second are converted apart. -/
theorem split_ticks (n r : Nat) : n / 1000000 * r + n % 1000000 * r / 1000000 = n * r / 1000000 := by
  have whole : n * r = n % 1000000 * r + 1000000 * (n / 1000000 * r) := by
    conv_lhs => rw [← Nat.mod_add_div n 1000000]
    ring
  rw [whole, Nat.add_mul_div_left _ _ (by decide), Nat.add_comm]

include usual

/-- Neither product and not the sum leave the 64 bits. -/
theorem elapsedTicks_toNat (v : BitVec 64) :
    (elapsedTicks v clockRate).toNat = v.toNat * clockRate.toNat / 1000000 ∧
      v.toNat / 1000000 * clockRate.toNat + v.toNat % 1000000 * clockRate.toNat / 1000000 < 2 ^ 64 ∧
      v.toNat % 1000000 * clockRate.toNat < 2 ^ 64 := by
  have wide := v.isLt
  have slow := usual.slow
  have seconds : v.toNat / 1000000 * clockRate.toNat ≤ v.toNat / 1000000 * 1000000 := Nat.mul_le_mul_left _ slow
  have rest : v.toNat % 1000000 * clockRate.toNat ≤ v.toNat % 1000000 * 1000000 := Nat.mul_le_mul_left _ slow
  have million : (1000000 : BitVec 64).toNat = 1000000 := rfl
  have rate : (clockRate.setWidth 64).toNat = clockRate.toNat := by
    rw [BitVec.toNat_setWidth]
    omega
  refine ⟨?_, by omega, by omega⟩
  rw [elapsedTicks, BitVec.toNat_add, BitVec.toNat_mul, BitVec.toNat_udiv, BitVec.toNat_udiv, BitVec.toNat_mul,
    BitVec.toNat_umod, million, rate, ← split_ticks]
  omega

/-- A later time of the same 64 bits. -/
theorem extrapolate_eq (anchor : BitVec 32) {anchorTimeUs targetTimeUs : Int} (later : anchorTimeUs ≤ targetTimeUs)
    (fits : targetTimeUs - anchorTimeUs < 2 ^ 63) :
    extrapolateRtpTimestamp anchor anchorTimeUs targetTimeUs clockRate =
      lineTimestamp anchor clockRate (targetTimeUs - anchorTimeUs) := by
  obtain ⟨n, elapsed⟩ := Int.eq_ofNat_of_zero_le (show 0 ≤ targetTimeUs - anchorTimeUs by omega)
  have value : (BitVec.ofInt 64 (n : Int)).toNat = n := by
    rw [BitVec.toNat_ofInt]
    omega
  have ticks := (elapsedTicks_toNat usual (BitVec.ofInt 64 (n : Int))).1
  rw [value] at ticks
  have line : ticksOf clockRate (n : Int) = ((n * clockRate.toNat / 1000000 : Nat) : Int) := by
    rw [ticksOf, kRtpTimestampMicrosecondsPerSecond]
    push_cast
    rfl
  rw [extrapolateRtpTimestamp, elapsed]
  simp only [if_pos (Int.natCast_nonneg n)]
  apply BitVec.eq_of_toNat_eq
  rw [lineTimestamp, line, BitVec.toNat_add, BitVec.toNat_setWidth, ticks, BitVec.toNat_ofInt]
  omega

theorem timestampForTimeUsLocked_eq (g : RtpTimestampGenerator) (rate : g.clockRate = clockRate) {first timeUs : Int}
    (later : first ≤ timeUs) (fits : timeUs - first < 2 ^ 63) :
    g.timestampForTimeUsLocked first timeUs = lineTimestamp g.baseTimestamp clockRate (timeUs - first) := by
  rw [RtpTimestampGenerator.timestampForTimeUsLocked]
  split
  · have same : timeUs - first = 0 := by omega
    rw [same, lineTimestamp, ticksOf_zero, add_zero, BitVec.ofInt_natCast, BitVec.ofNat_toNat, BitVec.setWidth_eq]
  · rw [rate, extrapolate_eq usual _ later fits]

end Generator

/-! ### The mapper -/

/-- The unwrapper has seen the residue of a number, and knows the number. -/
structure TimestampUnwrapper.At (u : TimestampUnwrapper) (x : Int) : Prop where
  timestamp : u.lastTimestamp = some (BitVec.ofInt 32 x)
  unwrapped : u.lastUnwrappedTimestamp = x

theorem TimestampUnwrapper.unwrap_first (base : BitVec 32) :
    (({} : TimestampUnwrapper).unwrap base).At base.toNat :=
  ⟨by rw [BitVec.ofInt_natCast, BitVec.ofNat_toNat, BitVec.setWidth_eq]; rfl, rfl⟩

theorem TimestampUnwrapper.At.unwrap {u : TimestampUnwrapper} {x y : Int} (known : u.At x) (near : Near 32 x y) :
    (u.unwrap (BitVec.ofInt 32 y)).At y := by
  have nearest := extend_eq (by decide) near
  rw [extend, BitVec.toInt_eq_toNat_cond] at nearest
  rw [TimestampUnwrapper.unwrap, known.timestamp]
  refine ⟨rfl, ?_⟩
  simp only [known.unwrapped]
  generalize (BitVec.ofInt 32 y - BitVec.ofInt 32 x).toNat = difference at *
  split at nearest
  · rw [if_pos (by omega)]
    exact nearest
  · rw [if_neg (by omega)]
    exact nearest

section Mapper

variable {clockRate : BitVec 32} (usual : Usual clockRate)

/-- One tick and one microsecond, in parts of a microsecond. -/
def Within (clockRate : BitVec 32) (result expected : Int) : Prop :=
  |result - expected| * clockRate.toNat ≤ 1000000 + clockRate.toNat

instance (clockRate : BitVec 32) (result expected : Int) : Decidable (Within clockRate result expected) :=
  inferInstanceAs (Decidable (_ ≤ _))

include usual

theorem rtpTicksToMicroseconds_near (ticks : Int) :
    |rtpTicksToMicroseconds ticks clockRate * clockRate.toNat - ticks * 1000000| < clockRate.toNat := by
  have positive : (0 : Int) < clockRate.toNat := by exact_mod_cast usual.positive
  have some' : clockRate ≠ 0 := by
    rintro rfl
    exact absurd usual.positive (by decide)
  have whole := Int.mul_tdiv_add_tmod ticks clockRate.toNat
  have rest := Int.mul_tdiv_add_tmod (ticks.tmod clockRate.toNat * 1000000) clockRate.toNat
  have above := Int.tmod_lt_of_pos (ticks.tmod clockRate.toNat * 1000000) positive
  have below := Int.lt_tmod_of_pos (ticks.tmod clockRate.toNat * 1000000) positive
  rw [rtpTicksToMicroseconds, if_neg some', kRtpTimestampMicrosecondsPerSecond, abs_lt]
  constructor <;> linarith

/-- The way from a point of the line to a frame. -/
theorem within_line (localUs e p : Int) :
    Within clockRate (localUs + rtpTicksToMicroseconds (ticksOf clockRate e - ticksOf clockRate p) clockRate)
      (localUs + (e - p)) := by
  have back := rtpTicksToMicroseconds_near usual (ticksOf clockRate e - ticksOf clockRate p)
  generalize rtpTicksToMicroseconds (ticksOf clockRate e - ticksOf clockRate p) clockRate = us at back
  have down : ∀ x : Int, ticksOf clockRate x * 1000000 ≤ x * clockRate.toNat ∧
      x * clockRate.toNat < ticksOf clockRate x * 1000000 + 1000000 := by
    intro x
    unfold ticksOf kRtpTimestampMicrosecondsPerSecond
    constructor <;> omega
  obtain ⟨lowE, highE⟩ := down e
  obtain ⟨lowP, highP⟩ := down p
  obtain ⟨low, high⟩ := abs_lt.mp back
  have positive : (0 : Int) ≤ clockRate.toNat := Int.natCast_nonneg _
  rw [Within, ← abs_of_nonneg positive, ← abs_mul, abs_of_nonneg positive, abs_le]
  constructor <;> linarith

end Mapper

/-! ### Feeding -/

/-- What a mapper is given: a frame, or a report with the time of a point on the sender's line. -/
inductive Fed where
  | frame (captureTimeUs arrivalTimeUs : Int)
  | report (timeUs localTimeUs : Int)

def Fed.timeUs : Fed → Int
  | .frame captureTimeUs _ => captureTimeUs
  | .report timeUs _ => timeUs

/-- The timestamp of a point on the line of a generator. -/
def RtpTimestampGenerator.pointTimestamp (g : RtpTimestampGenerator) (timeUs : Int) : BitVec 32 :=
  lineTimestamp g.baseTimestamp g.clockRate (timeUs - g.firstCaptureTimeUs.getD timeUs)

/-- The results of the mapper for the frames, whose timestamps are those of the generator. -/
def results (g : RtpTimestampGenerator) (m : RtpTimestampMapper) : List Fed → List Int
  | [] => []
  | .frame captureTimeUs arrivalTimeUs :: rest =>
    let generated := g.timestampForCaptureTimeUs captureTimeUs
    let mapped := m.toLocalTimeUs generated.1 arrivalTimeUs
    mapped.1 :: results generated.2 mapped.2 rest
  | .report timeUs localTimeUs :: rest =>
    results g (m.updateFromSenderReport (g.pointTimestamp timeUs) localTimeUs) rest

/-- Every frame is mapped close to the line through the last point that was reported. -/
def Tracks (clockRate : BitVec 32) (pointUs localUs : Int) : List Fed → List Int → Prop
  | [], rs => rs = []
  | .frame captureTimeUs _ :: rest, r :: rs =>
    Within clockRate r (localUs + (captureTimeUs - pointUs)) ∧ Tracks clockRate pointUs localUs rest rs
  | .frame _ _ :: _, [] => False
  | .report timeUs localTimeUs :: rest, rs => Tracks clockRate timeUs localTimeUs rest rs

/-- Two times of a line, less than half the range of a timestamp apart. -/
def Close (clockRate : BitVec 32) (firstUs a b : Int) : Prop :=
  Near 32 (ticksOf clockRate (a - firstUs)) (ticksOf clockRate (b - firstUs))

/-- Frames that are close to the last one, and reports close to the last frame. -/
def FramesClose (clockRate : BitVec 32) (firstUs : Int) : Int → List Fed → Prop
  | _, [] => True
  | last, .frame captureTimeUs _ :: rest =>
    Close clockRate firstUs last captureTimeUs ∧ FramesClose clockRate firstUs captureTimeUs rest
  | last, .report timeUs _ :: rest => Close clockRate firstUs last timeUs ∧ FramesClose clockRate firstUs last rest

/-- Frames and reports that are close to what was fed before. -/
def AllClose (clockRate : BitVec 32) (firstUs : Int) : Int → List Fed → Prop
  | _, [] => True
  | last, input :: rest => Close clockRate firstUs last input.timeUs ∧ AllClose clockRate firstUs input.timeUs rest

/-- The frames are not before the first, and the time since then fits into 64 bits with a sign. -/
def Captured (firstUs : Int) (inputs : List Fed) : Prop :=
  ∀ captureTimeUs arrivalTimeUs, .frame captureTimeUs arrivalTimeUs ∈ inputs →
    firstUs ≤ captureTimeUs ∧ captureTimeUs - firstUs < 2 ^ 63

/-- The mapper knows the last timestamp, and the point that it measures from. -/
structure Follows (clockRate baseTimestamp : BitVec 32) (firstUs pointUs localUs lastUs : Int)
    (m : RtpTimestampMapper) : Prop where
  rate : m.clockRate = clockRate
  last : m.unwrapper.At (baseTimestamp.toNat + ticksOf clockRate (lastUs - firstUs))
  point :
    (m.senderReportUnwrappedTimestamp = some (baseTimestamp.toNat + ticksOf clockRate (pointUs - firstUs)) ∧
      m.senderReportLocalTimeUs = localUs) ∨
    (m.senderReportUnwrappedTimestamp = none ∧
      m.firstUnwrappedTimestamp = some (baseTimestamp.toNat + ticksOf clockRate (pointUs - firstUs)) ∧
      m.firstLocalTimeUs = localUs)

section Feeding

variable {clockRate baseTimestamp : BitVec 32} (usual : Usual clockRate) {firstUs pointUs localUs lastUs : Int}
  {m : RtpTimestampMapper}

theorem Close.near {a b : Int} (close : Close clockRate firstUs a b) :
    Near 32 (baseTimestamp.toNat + ticksOf clockRate (a - firstUs)) (baseTimestamp.toNat + ticksOf clockRate (b - firstUs)) := by
  obtain ⟨below, above⟩ := close
  constructor <;> omega

theorem Follows.report (follows : Follows clockRate baseTimestamp firstUs pointUs localUs lastUs m) {timeUs : Int}
    (close : Close clockRate firstUs lastUs timeUs) (localTimeUs : Int) :
    Follows clockRate baseTimestamp firstUs timeUs localTimeUs timeUs
      (m.updateFromSenderReport (lineTimestamp baseTimestamp clockRate (timeUs - firstUs)) localTimeUs) := by
  have known := follows.last.unwrap close.near
  exact ⟨follows.rate, known, Or.inl ⟨congrArg some known.unwrapped, rfl⟩⟩

include usual

theorem Follows.frame (follows : Follows clockRate baseTimestamp firstUs pointUs localUs lastUs m) {captureTimeUs : Int}
    (close : Close clockRate firstUs lastUs captureTimeUs) (arrivalTimeUs : Int) :
    Within clockRate
        (m.toLocalTimeUs (lineTimestamp baseTimestamp clockRate (captureTimeUs - firstUs)) arrivalTimeUs).1
        (localUs + (captureTimeUs - pointUs)) ∧
      Follows clockRate baseTimestamp firstUs pointUs localUs captureTimeUs
        (m.toLocalTimeUs (lineTimestamp baseTimestamp clockRate (captureTimeUs - firstUs)) arrivalTimeUs).2 := by
  have known := follows.last.unwrap close.near
  have line := within_line usual localUs (captureTimeUs - firstUs) (pointUs - firstUs)
  have way : captureTimeUs - firstUs - (pointUs - firstUs) = captureTimeUs - pointUs := by omega
  have ticks : (m.unwrapper.unwrap (lineTimestamp baseTimestamp clockRate (captureTimeUs - firstUs))).lastUnwrappedTimestamp -
      (baseTimestamp.toNat + ticksOf clockRate (pointUs - firstUs)) =
      ticksOf clockRate (captureTimeUs - firstUs) - ticksOf clockRate (pointUs - firstUs) := by
    have unwrapped := known.unwrapped
    rw [lineTimestamp]
    omega
  rw [way] at line
  rcases follows.point with ⟨report, localTime⟩ | ⟨none', first, localTime⟩
  · simp only [RtpTimestampMapper.toLocalTimeUs, report, ticks, follows.rate, localTime]
    exact ⟨line, rfl, known, Or.inl ⟨rfl, rfl⟩⟩
  · simp only [RtpTimestampMapper.toLocalTimeUs, none', first, ticks, follows.rate, localTime]
    exact ⟨line, rfl, known, Or.inr ⟨rfl, rfl, rfl⟩⟩

/-- The run after the first frame. -/
theorem Follows.tracks (follows : Follows clockRate baseTimestamp firstUs pointUs localUs lastUs m) {inputs : List Fed}
    (captured : Captured firstUs inputs) (close : AllClose clockRate firstUs lastUs inputs) :
    Tracks clockRate pointUs localUs inputs (results ⟨clockRate, baseTimestamp, some firstUs⟩ m inputs) := by
  induction inputs generalizing m pointUs localUs lastUs with
  | nil => rfl
  | cons input inputs ih =>
    have rest : Captured firstUs inputs := fun t a member => captured t a (List.mem_cons_of_mem _ member)
    obtain ⟨here, later⟩ := close
    cases input with
    | frame captureTimeUs arrivalTimeUs =>
      obtain ⟨after, fits⟩ := captured captureTimeUs arrivalTimeUs List.mem_cons_self
      have generated := timestampForTimeUsLocked_eq usual ⟨clockRate, baseTimestamp, some firstUs⟩ rfl after fits
      obtain ⟨within, next⟩ := follows.frame usual here arrivalTimeUs
      simp only [results, RtpTimestampGenerator.timestampForCaptureTimeUs, generated]
      exact ⟨within, ih next rest later⟩
    | report timeUs localTimeUs => exact ih (follows.report here localTimeUs) rest later

end Feeding

/-! ### The mapping -/

def generated (clockRate baseTimestamp : BitVec 32) (firstUs timeUs : Int) : BitVec 32 :=
  ((⟨clockRate, baseTimestamp, some firstUs⟩ : RtpTimestampGenerator).timestampForCaptureTimeUs timeUs).1

/-- What a generator and a mapper of one rate do. -/
structure Maps (clockRate baseTimestamp : BitVec 32) : Prop where
  line : ∀ firstUs timeUs, firstUs ≤ timeUs → timeUs - firstUs ≤ 2 ^ 43 →
    generated clockRate baseTimestamp firstUs timeUs =
      BitVec.ofInt 32 (baseTimestamp.toNat + (timeUs - firstUs) * clockRate.toNat / 1000000)
  /-- The products and the sum are below 2^64. -/
  exact : ∀ elapsedUs : Nat, elapsedUs ≤ 2 ^ 43 →
    elapsedUs / 1000000 * clockRate.toNat + elapsedUs % 1000000 * clockRate.toNat / 1000000 < 2 ^ 64 ∧
      elapsedUs % 1000000 * clockRate.toNat < 2 ^ 64
  forward : ∀ firstUs a b, firstUs ≤ a → a ≤ b → b - firstUs ≤ 2 ^ 43 → Close clockRate firstUs a b →
    (generated clockRate baseTimestamp firstUs b - generated clockRate baseTimestamp firstUs a).toNat < 2 ^ 31
  mapped : ∀ firstUs arrivalUs inputs, Captured firstUs inputs → AllClose clockRate firstUs firstUs inputs →
    ∃ rs, results ⟨clockRate, baseTimestamp, none⟩ { clockRate } (.frame firstUs arrivalUs :: inputs) = arrivalUs :: rs ∧
      Tracks clockRate firstUs arrivalUs inputs rs

theorem generated_eq {clockRate : BitVec 32} (usual : Usual clockRate) (baseTimestamp : BitVec 32) {firstUs timeUs : Int}
    (later : firstUs ≤ timeUs) (fits : timeUs - firstUs < 2 ^ 63) :
    generated clockRate baseTimestamp firstUs timeUs = lineTimestamp baseTimestamp clockRate (timeUs - firstUs) :=
  timestampForTimeUsLocked_eq usual ⟨clockRate, baseTimestamp, some firstUs⟩ rfl later fits

theorem follows_first (clockRate baseTimestamp : BitVec 32) (firstUs arrivalUs : Int) :
    Follows clockRate baseTimestamp firstUs firstUs arrivalUs firstUs
      (RtpTimestampMapper.toLocalTimeUs { clockRate } baseTimestamp arrivalUs).2 := by
  have known := TimestampUnwrapper.unwrap_first baseTimestamp
  have start : (baseTimestamp.toNat : Int) + ticksOf clockRate (firstUs - firstUs) = baseTimestamp.toNat := by
    rw [sub_self, ticksOf_zero, add_zero]
  refine ⟨rfl, ?_, Or.inr ⟨rfl, ?_, rfl⟩⟩
  · rw [start]
    exact known
  · rw [start]
    exact congrArg some known.unwrapped

/-- Timestamps are on the line of the generator, and the mapper follows the line while all that it is fed is close. -/
theorem timestamp_mapping {clockRate : BitVec 32} (usual : Usual clockRate) (baseTimestamp : BitVec 32) :
    Maps clockRate baseTimestamp := by
  constructor
  · intro firstUs timeUs later near
    exact generated_eq usual baseTimestamp later (by omega)
  · intro elapsedUs near
    have value : (BitVec.ofNat 64 elapsedUs).toNat = elapsedUs := by
      rw [BitVec.toNat_ofNat]
      omega
    have ticks := (elapsedTicks_toNat usual (BitVec.ofNat 64 elapsedUs)).2
    rw [value] at ticks
    exact ticks
  · intro firstUs a b later order near close
    obtain ⟨-, step⟩ := close
    have mono := @ticksOf_mono clockRate _ _ (show a - firstUs ≤ b - firstUs by omega)
    have difference := toNat_ofInt_sub (w := 32) (baseTimestamp.toNat + ticksOf clockRate (b - firstUs))
      (baseTimestamp.toNat + ticksOf clockRate (a - firstUs))
    rw [generated_eq usual baseTimestamp (by omega) (by omega), generated_eq usual baseTimestamp later (by omega),
      lineTimestamp, lineTimestamp]
    omega
  · intro firstUs arrivalUs inputs captured close
    exact ⟨_, rfl, (follows_first clockRate baseTimestamp firstUs arrivalUs).tracks usual captured close⟩

theorem timestamp_mapping_video : Maps 90000 4294967295 := timestamp_mapping ⟨by decide, by decide⟩ 4294967295

/-- A report just less than half the range behind the last frame: the next frame is taken to be before it. -/
theorem next_frame_far_from_report :
    ¬∀ clockRate baseTimestamp firstUs arrivalUs inputs, Usual clockRate → Captured firstUs inputs →
      FramesClose clockRate firstUs firstUs inputs →
      ∃ rs, results ⟨clockRate, baseTimestamp, none⟩ { clockRate } (.frame firstUs arrivalUs :: inputs) = arrivalUs :: rs ∧
        Tracks clockRate firstUs arrivalUs inputs rs := by
  intro all
  have captured : Captured 0 [.frame 2147483647 0, .report 0 0, .frame 2147483653 0] := by
    intro t a member
    simp only [List.mem_cons, Fed.frame.injEq, reduceCtorEq, List.not_mem_nil, or_false, false_or] at member
    omega
  have close : FramesClose 1000000 0 0 [.frame 2147483647 0, .report 0 0, .frame 2147483653 0] := by
    refine ⟨?_, ?_, ?_, trivial⟩
    · exact ⟨by decide, by decide⟩
    · exact ⟨by decide, by decide⟩
    · exact ⟨by decide, by decide⟩
  obtain ⟨rs, run, tracks⟩ := all 1000000 0 0 0 _ ⟨by decide, by decide⟩ captured close
  have value : results ⟨1000000, 0, none⟩ { clockRate := 1000000 }
      [.frame 0 0, .frame 2147483647 0, .report 0 0, .frame 2147483653 0] = [0, 2147483647, -2147483643] := by
    decide +kernel
  rw [value] at run
  cases run
  exact absurd tracks.2.1 (by decide)

end MiniRtc.RtpTimestamp
