import MiniRtc.Common.SystemClock
import MiniRtc.Lib.Wrapping

/-! NTP time as a residue (system_clock.cpp): the 64 bits are the time since 1900 in units of 2^-32
seconds, from which a clock that is less than half an era away tells the microsecond again. -/
namespace MiniRtc.SystemClock

/-- The units of 2^-32 seconds since 1900, unbounded. -/
def ntpTicks (utcTimeUs : Int) : Int :=
  (utcTimeUs + kNtpEpochOffsetSeconds * kMicrosecondsPerSecond) * 2 ^ 32 / kMicrosecondsPerSecond

theorem ntpTicks_eq (utcTimeUs : Int) : ntpTicks utcTimeUs =
    (utcTimeUs / 1000000 + kNtpEpochOffsetSeconds) * 2 ^ 32 + utcTimeUs % 1000000 * 2 ^ 32 / 1000000 := by
  unfold ntpTicks kMicrosecondsPerSecond
  omega

theorem toNat_join (seconds fractions : BitVec 32) :
    (seconds.setWidth 64 <<< 32 ||| fractions.setWidth 64).toNat = seconds.toNat * 2 ^ 32 + fractions.toNat := by
  have high := seconds.isLt
  have low := fractions.isLt
  rw [BitVec.toNat_or, BitVec.toNat_shiftLeft, BitVec.toNat_setWidth, BitVec.toNat_setWidth, Nat.shiftLeft_eq,
    Nat.mod_eq_of_lt (by omega), Nat.mod_eq_of_lt (by omega), Nat.mod_eq_of_lt (by omega), Nat.mul_comm,
    ← Nat.two_pow_add_eq_or_of_lt low]

/-- The two halves of an NTP time. -/
theorem utcTimeUsToNtp_toNat (utcTimeUs : Int) : ((utcTimeUsToNtp utcTimeUs).toNat : Int) =
    (utcTimeUs / 1000000 + kNtpEpochOffsetSeconds) % 2 ^ 32 * 2 ^ 32 + utcTimeUs % 1000000 * 2 ^ 32 / 1000000 := by
  obtain ⟨rest, less, fraction⟩ : ∃ rest : Nat, rest < 1000000 ∧ utcTimeUs % 1000000 = rest :=
    ⟨(utcTimeUs % 1000000).toNat, by omega, by omega⟩
  have small : rest * 2 ^ 32 / 1000000 < 2 ^ 32 := by omega
  rw [utcTimeUsToNtp_eq, toNat_join, fraction, Int.toNat_natCast, BitVec.toNat_ofInt, BitVec.toNat_ofNat,
    Nat.mod_eq_of_lt small]
  generalize utcTimeUs / 1000000 + kNtpEpochOffsetSeconds = seconds
  omega

theorem utcTimeUsToNtp_ticks (utcTimeUs : Int) : utcTimeUsToNtp utcTimeUs = BitVec.ofInt 64 (ntpTicks utcTimeUs) := by
  have whole := utcTimeUsToNtp_toNat utcTimeUs
  have ticks := ntpTicks_eq utcTimeUs
  apply BitVec.eq_of_toNat_eq
  rw [BitVec.toNat_ofInt, ticks]
  generalize utcTimeUs / 1000000 + kNtpEpochOffsetSeconds = seconds at *
  omega

/-- The seconds that are nearest to the clock are those that the residue was taken of. -/
theorem expanded_eq {current seconds : Int} (near : current - seconds < 2 ^ 31 ∧ seconds - current < 2 ^ 31) :
    (let expanded := current / 2 ^ 32 * 2 ^ 32 + seconds % 2 ^ 32
      if 2 ^ 31 < expanded - current then expanded - 2 ^ 32
      else if 2 ^ 31 < current - expanded then expanded + 2 ^ 32 else expanded) = seconds := by
  simp only
  split_ifs
  · omega
  · omega
  · omega

/-- Less than half an era, with the second that the division of a negative time may take off. -/
theorem ntpToUtcTimeUs_utcTimeUsToNtp {currentUtcTimeUs utcTimeUs : Int}
    (near : |utcTimeUs - currentUtcTimeUs| < (2 ^ 31 - 2) * 1000000) :
    ntpToUtcTimeUs currentUtcTimeUs (utcTimeUsToNtp utcTimeUs) = utcTimeUs := by
  obtain ⟨before, after⟩ := abs_lt.mp near
  have whole := utcTimeUsToNtp_toNat utcTimeUs
  generalize utcTimeUsToNtp utcTimeUs = ntp at whole
  have high : (((ntp >>> 32).toNat : Nat) : Int) = (utcTimeUs / 1000000 + kNtpEpochOffsetSeconds) % 2 ^ 32 := by
    rw [BitVec.toNat_ushiftRight, Nat.shiftRight_eq_div_pow]
    omega
  have low : (((ntp.setWidth 32).toNat : Nat) : Int) = utcTimeUs % 1000000 * 2 ^ 32 / 1000000 := by
    rw [BitVec.toNat_setWidth]
    omega
  have fraction : (((ntp.setWidth 32).toNat * 1000000 + 2 ^ 32 / 2) / 2 ^ 32 : Int) = utcTimeUs % 1000000 := by
    rw [low]
    omega
  have division := Int.mul_tdiv_add_tmod currentUtcTimeUs 1000000
  have above := Int.tmod_lt_of_pos currentUtcTimeUs (show (0 : Int) < 1000000 by decide)
  have below := Int.lt_tmod_of_pos currentUtcTimeUs (show (0 : Int) < 1000000 by decide)
  have seconds := @expanded_eq (currentUtcTimeUs.tdiv 1000000 + kNtpEpochOffsetSeconds)
    (utcTimeUs / 1000000 + kNtpEpochOffsetSeconds) (by constructor <;> omega)
  simp only at seconds
  unfold ntpToUtcTimeUs kMicrosecondsPerSecond
  simp only
  rw [high, seconds]
  push_cast at fraction ⊢
  rw [fraction]
  omega

/-- NTP times near the clock give the microsecond back, and they are ordered as the times are. -/
theorem ntp_conversion (currentUtcTimeUs : Int) :
    (∀ t, |t - currentUtcTimeUs| < (2 ^ 31 - 2) * 1000000 → ntpToUtcTimeUs currentUtcTimeUs (utcTimeUsToNtp t) = t) ∧
    ∀ t₁ t₂, |t₁ - currentUtcTimeUs| < (2 ^ 31 - 2) * 1000000 → |t₂ - currentUtcTimeUs| < (2 ^ 31 - 2) * 1000000 →
      t₁ < t₂ → t₂ - t₁ < 2 ^ 31 * 1000000 →
      0 < (utcTimeUsToNtp t₂ - utcTimeUsToNtp t₁).toNat ∧ (utcTimeUsToNtp t₂ - utcTimeUsToNtp t₁).toNat < 2 ^ 63 := by
  refine ⟨fun t near => ntpToUtcTimeUs_utcTimeUsToNtp near, fun t₁ t₂ _ _ later close => ?_⟩
  have difference := Wrapping.toNat_ofInt_sub (w := 64) (ntpTicks t₂) (ntpTicks t₁)
  have positive : 0 < ntpTicks t₂ - ntpTicks t₁ := by
    unfold ntpTicks kMicrosecondsPerSecond
    omega
  have small : ntpTicks t₂ - ntpTicks t₁ < 2 ^ 63 := by
    unfold ntpTicks kMicrosecondsPerSecond
    omega
  rw [utcTimeUsToNtp_ticks, utcTimeUsToNtp_ticks]
  omega

/-- A second before and after the seconds wrap in 2036. -/
example : ntpToUtcTimeUs 2085978495000000 (utcTimeUsToNtp 2085978497000001) = 2085978497000001 := by decide

end MiniRtc.SystemClock
