import Mathlib

/-! The clock of system_clock.cpp, and its two forms of NTP time.
Times are integers. What the operating system reads is an argument of the functions that ask
for it. -/
namespace MiniRtc

def kMicrosecondsPerSecond : Int := 1000000
def kNtpEpochOffsetSeconds : Int := 2208988800

namespace SystemClock

/-- `CurrentTimeUs` for a reading of the monotonic clock in nanoseconds. -/
def currentTimeUs (monotonicTimeNs : Int) : Int := monotonicTimeNs.tdiv 1000

def utcTimeUsToNtp (utcTimeUs : Int) : BitVec 64 :=
  let unixSeconds := utcTimeUs.tdiv kMicrosecondsPerSecond
  let microseconds := utcTimeUs.tmod kMicrosecondsPerSecond
  let (unixSeconds, microseconds) :=
    if microseconds < 0 then (unixSeconds - 1, microseconds + kMicrosecondsPerSecond)
    else (unixSeconds, microseconds)
  let ntpSeconds := BitVec.ofInt 32 (unixSeconds + kNtpEpochOffsetSeconds)
  let ntpFractions := BitVec.ofNat 32 (microseconds.toNat * 2 ^ 32 / 1000000)
  ntpSeconds.setWidth 64 <<< 32 ||| ntpFractions.setWidth 64

def monotonicTimeUsToNtp (monotonicToUtcOffsetUs monotonicTimeUs : Int) : BitVec 64 :=
  utcTimeUsToNtp (monotonicTimeUs + monotonicToUtcOffsetUs)

/-- The era is the one closest to the wall clock. -/
def ntpToUtcTimeUs (currentUtcTimeUs : Int) (ntpTime : BitVec 64) : Int :=
  let ntpSeconds : Int := (ntpTime >>> 32).toNat
  let ntpFractions := (ntpTime.setWidth 32).toNat
  let currentNtpSeconds := currentUtcTimeUs.tdiv kMicrosecondsPerSecond + kNtpEpochOffsetSeconds
  let currentEra := currentNtpSeconds / 2 ^ 32
  let expanded := currentEra * 2 ^ 32 + ntpSeconds
  let expanded :=
    if 2 ^ 31 < expanded - currentNtpSeconds then expanded - 2 ^ 32
    else if 2 ^ 31 < currentNtpSeconds - expanded then expanded + 2 ^ 32
    else expanded
  let fractionalUs : Int := (ntpFractions * 1000000 + 2 ^ 32 / 2) / 2 ^ 32
  (expanded - kNtpEpochOffsetSeconds) * kMicrosecondsPerSecond + fractionalUs

/-- The middle 32 bits, in units of 1/65536 seconds. -/
def compactNtp (ntpTime : BitVec 64) : BitVec 32 :=
  (ntpTime >>> 32).setWidth 32 <<< 16 ||| ntpTime.setWidth 32 >>> 16

def compactNtpIntervalToMilliseconds (interval : BitVec 32) : Int :=
  (interval.toNat * 1000 + 65536 / 2) / 65536

/-! ### Compact time as a residue -/

/-- The units of 1/65536 seconds since 1900, unbounded. -/
def compactTicks (utcTimeUs : Int) : Int :=
  (utcTimeUs + kNtpEpochOffsetSeconds * kMicrosecondsPerSecond) * 65536 / kMicrosecondsPerSecond

/-- The whole seconds and what is left, for a time before 1970 as well. -/
theorem utcTimeUsToNtp_eq (utcTimeUs : Int) :
    utcTimeUsToNtp utcTimeUs =
      (BitVec.ofInt 32 (utcTimeUs / 1000000 + kNtpEpochOffsetSeconds)).setWidth 64 <<< 32 |||
        (BitVec.ofNat 32 ((utcTimeUs % 1000000).toNat * 2 ^ 32 / 1000000)).setWidth 64 := by
  unfold utcTimeUsToNtp kMicrosecondsPerSecond
  simp only
  have whole := Int.mul_tdiv_add_tmod utcTimeUs 1000000
  have above := Int.tmod_lt_of_pos utcTimeUs (show (0 : Int) < 1000000 by decide)
  have below := Int.lt_tmod_of_pos utcTimeUs (show (0 : Int) < 1000000 by decide)
  by_cases before : utcTimeUs.tmod 1000000 < 0
  · rw [if_pos before]
    have seconds : utcTimeUs.tdiv 1000000 - 1 = utcTimeUs / 1000000 := by omega
    have rest : utcTimeUs.tmod 1000000 + 1000000 = utcTimeUs % 1000000 := by omega
    simp only [seconds, rest]
  · rw [if_neg before]
    have seconds : utcTimeUs.tdiv 1000000 = utcTimeUs / 1000000 := by omega
    have rest : utcTimeUs.tmod 1000000 = utcTimeUs % 1000000 := by omega
    simp only [seconds, rest]

/-- The compact form of an NTP time that is put together from its two halves. -/
theorem compactNtp_join (seconds fractions : BitVec 32) :
    compactNtp (seconds.setWidth 64 <<< 32 ||| fractions.setWidth 64) =
      seconds <<< 16 ||| fractions >>> 16 := by
  have high := seconds.isLt
  have low := fractions.isLt
  have joined : (seconds.setWidth 64 <<< 32 ||| fractions.setWidth 64).toNat =
      2 ^ 32 * seconds.toNat + fractions.toNat := by
    rw [BitVec.toNat_or, BitVec.toNat_shiftLeft, BitVec.toNat_setWidth, BitVec.toNat_setWidth,
      Nat.shiftLeft_eq, Nat.mod_eq_of_lt (by omega), Nat.mod_eq_of_lt (by omega),
      Nat.mod_eq_of_lt (by omega), Nat.mul_comm, ← Nat.two_pow_add_eq_or_of_lt low]
  generalize seconds.setWidth 64 <<< 32 ||| fractions.setWidth 64 = ntp at joined
  have top : (ntp >>> 32).setWidth 32 = seconds := by
    apply BitVec.eq_of_toNat_eq
    rw [BitVec.toNat_setWidth, BitVec.toNat_ushiftRight, joined, Nat.shiftRight_eq_div_pow]
    omega
  have bottom : ntp.setWidth 32 = fractions := by
    apply BitVec.eq_of_toNat_eq
    rw [BitVec.toNat_setWidth, joined]
    omega
  rw [compactNtp, top, bottom]

theorem toNat_compact (seconds fractions : BitVec 32) :
    (seconds <<< 16 ||| fractions >>> 16).toNat =
      seconds.toNat % 2 ^ 16 * 2 ^ 16 + fractions.toNat / 2 ^ 16 := by
  have low := fractions.isLt
  have shifted : (seconds <<< 16).toNat = 2 ^ 16 * (seconds.toNat % 2 ^ 16) := by
    rw [BitVec.toNat_shiftLeft, Nat.shiftLeft_eq]
    omega
  rw [BitVec.toNat_or, shifted, BitVec.toNat_ushiftRight, Nat.shiftRight_eq_div_pow,
    ← Nat.two_pow_add_eq_or_of_lt (by omega), Nat.mul_comm]

theorem compactNtp_utcTimeUsToNtp (utcTimeUs : Int) :
    compactNtp (utcTimeUsToNtp utcTimeUs) = BitVec.ofInt 32 (compactTicks utcTimeUs) := by
  obtain ⟨rest, less, fraction⟩ : ∃ rest : Nat, rest < 1000000 ∧ utcTimeUs % 1000000 = rest :=
    ⟨(utcTimeUs % 1000000).toNat, by omega, by omega⟩
  have ticks : compactTicks utcTimeUs =
      (utcTimeUs / 1000000 + kNtpEpochOffsetSeconds) * 65536 + (rest * 2 ^ 16 / 1000000 : Nat) := by
    unfold compactTicks kMicrosecondsPerSecond
    omega
  have halves : rest * 2 ^ 32 / 1000000 % 2 ^ 32 / 2 ^ 16 = rest * 2 ^ 16 / 1000000 := by
    rw [Nat.mod_eq_of_lt (by omega), Nat.div_div_eq_div_mul, show 2 ^ 32 = 2 ^ 16 * 2 ^ 16 by rfl,
      ← Nat.mul_assoc, Nat.mul_div_mul_right _ _ (by decide)]
  have small : rest * 2 ^ 16 / 1000000 < 2 ^ 16 := by omega
  apply BitVec.eq_of_toNat_eq
  rw [utcTimeUsToNtp_eq, compactNtp_join, toNat_compact, fraction, Int.toNat_natCast, BitVec.toNat_ofInt,
    BitVec.toNat_ofInt, BitVec.toNat_ofNat, ticks, halves]
  generalize utcTimeUs / 1000000 + kNtpEpochOffsetSeconds = seconds
  generalize rest * 2 ^ 16 / 1000000 = part at small
  omega

end SystemClock

end MiniRtc
