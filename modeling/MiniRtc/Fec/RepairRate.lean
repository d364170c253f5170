import MiniRtc.Fec.RepairCredit

/-! The rate of the sender of repairs (rtp_fec.cpp, and the rate budget of fec_adaptation_controller.cpp):
what is emitted between two times is at most what the largest rate brings in, and the largest credit. -/
namespace MiniRtc.Fec

open Wire

namespace FecRateBudget

/-! ### The budget -/

/-- The state of a budget between calls. -/
structure Filled (b : FecRateBudget) : Prop where
  credit : 0 ≤ b.credit ∧ b.credit ≤ 4800
  unset : b.lastMs < 0 → b.credit = 0

/-- What may be emitted from one time to another. -/
def allowance (rate start time : Int) : ℚ := 4800 + rate * (time - start) / 8000

/-- What was emitted since the start is paid, and the credit that is left too. -/
structure Paid (rate start : Int) (emitted : ℚ) (nowMs : Int) (b : FecRateBudget) : Prop where
  filled : Filled b
  later : start ≤ nowMs
  total : emitted ≤ allowance rate start nowMs
  credit : 0 ≤ b.lastMs → start ≤ b.lastMs → emitted + b.credit ≤ allowance rate start b.lastMs
  fresh : 0 ≤ b.lastMs → b.lastMs < start → emitted ≤ 0

variable {rate start nowMs time : Int} {emitted : ℚ} {b : FecRateBudget}

theorem allowance_mono (positive : 0 ≤ rate) (later : nowMs ≤ time) :
    allowance rate start nowMs ≤ allowance rate start time := by
  have step : (nowMs - start : ℚ) ≤ time - start := by
    have : (nowMs : ℚ) ≤ time := by exact_mod_cast later
    linarith
  have scaled := mul_le_mul_of_nonneg_left step (Int.cast_nonneg positive : (0 : ℚ) ≤ rate)
  unfold allowance
  linarith

theorem allowance_ge (positive : 0 ≤ rate) (later : start ≤ time) : 4800 ≤ allowance rate start time := by
  have least : allowance rate start start ≤ allowance rate start time := allowance_mono positive later
  have first : allowance rate start start = 4800 := by
    unfold allowance
    ring
  rwa [first] at least

/-- What the time since the last refill brings in is in the allowance. -/
theorem allowance_refill (positive : 0 ≤ rate) (below : b.rateBps ≤ rate) (later : b.lastMs ≤ time) :
    allowance rate start b.lastMs + min (time - b.lastMs) 1000 * b.rateBps / 8000 ≤ allowance rate start time := by
  have less : ((min (time - b.lastMs) 1000 : Int) : ℚ) ≤ time - b.lastMs := by exact_mod_cast min_le_left _ _
  have low : (0 : ℚ) ≤ (min (time - b.lastMs) 1000 : Int) := by
    exact_mod_cast le_min (by omega) (by norm_num)
  have bps : (b.rateBps : ℚ) ≤ rate := by exact_mod_cast below
  have rate' : (0 : ℚ) ≤ rate := by exact_mod_cast positive
  have product := mul_le_mul less bps
  have first := mul_le_mul_of_nonneg_left bps low
  have second := mul_le_mul_of_nonneg_right less rate'
  push_cast at low first second ⊢
  unfold allowance
  linarith

theorem refill_rateBps (b : FecRateBudget) (nowMs : Int) : (b.refill nowMs).rateBps = b.rateBps := by
  unfold refill
  simp only
  split_ifs <;> rfl

theorem refill_lastMs (b : FecRateBudget) (nowMs : Int) : (b.refill nowMs).lastMs = nowMs := rfl

/-- The credit after a refill. -/
theorem refill_credit (b : FecRateBudget) (nowMs : Int) :
    (nowMs < b.lastMs ∧ (b.refill nowMs).credit = 0) ∨
    (b.lastMs ≤ nowMs ∧ 0 ≤ b.lastMs ∧ 0 < b.rateBps ∧
      (b.refill nowMs).credit = min 4800 (b.credit + min (nowMs - b.lastMs) 1000 * b.rateBps / 8000)) ∨
    (b.lastMs ≤ nowMs ∧ (b.refill nowMs).credit = b.credit) := by
  unfold refill
  simp only
  by_cases back : nowMs < b.lastMs
  · have still : ¬(0 ≤ b.lastMs ∧ b.lastMs ≤ nowMs ∧ 0 < b.rateBps) := by omega
    rw [if_neg still, if_pos back]
    exact Or.inl ⟨back, rfl⟩
  · have forth := not_lt.mp back
    by_cases gains : 0 ≤ b.lastMs ∧ b.lastMs ≤ nowMs ∧ 0 < b.rateBps
    · rw [if_pos gains, if_neg back]
      exact Or.inr (Or.inl ⟨forth, gains.1, gains.2.2, rfl⟩)
    · rw [if_neg gains, if_neg back]
      exact Or.inr (Or.inr ⟨forth, rfl⟩)

theorem refill_filled (filled : Filled b) (nowMs : Int) : Filled (b.refill nowMs) := by
  rcases refill_credit b nowMs with ⟨back, nothing⟩ | ⟨forth, set, positive, gained⟩ | ⟨forth, same⟩
  · exact ⟨by rw [nothing]; norm_num, fun _ => nothing⟩
  · have low : (0 : ℚ) ≤ (min (nowMs - b.lastMs) 1000 : Int) := by
      exact_mod_cast le_min (by omega) (by norm_num)
    have gain : (0 : ℚ) ≤ (min (nowMs - b.lastMs) 1000 : Int) * b.rateBps / 8000 :=
      div_nonneg (mul_nonneg low (Int.cast_nonneg positive.le)) (by norm_num)
    refine ⟨⟨?_, ?_⟩, fun unset => absurd unset (by rw [refill_lastMs]; omega)⟩
    · rw [gained]
      exact le_min (by norm_num) (by linarith [filled.credit.1])
    · rw [gained]
      exact min_le_left _ _
  · refine ⟨by rw [same]; exact filled.credit, fun unset => ?_⟩
    rw [same]
    rw [refill_lastMs] at unset
    exact filled.unset (by omega)

/-- A refill keeps what is emitted in the allowance. -/
theorem refill_paid (positive : 0 ≤ rate) (below : b.rateBps ≤ rate) (paid : Paid rate start emitted nowMs b)
    (later : nowMs ≤ time) : Paid rate start emitted time (b.refill time) := by
  have since := paid.later.trans later
  have total := paid.total.trans (allowance_mono positive later)
  refine ⟨refill_filled paid.filled time, since, total, fun set _ => ?_, fun _ early => ?_⟩
  · rw [refill_lastMs] at set ⊢
    rcases refill_credit b time with ⟨-, nothing⟩ | ⟨forth, set', -, gained⟩ | ⟨forth, same⟩
    · rw [nothing, add_zero]
      exact total
    · rw [gained]
      rcases lt_or_ge b.lastMs start with before | inside
      · have nothing := paid.fresh set' before
        have most := min_le_left 4800 (b.credit + (min (time - b.lastMs) 1000 : Int) * b.rateBps / 8000)
        linarith [allowance_ge positive since]
      · have most := min_le_right 4800 (b.credit + (min (time - b.lastMs) 1000 : Int) * b.rateBps / 8000)
        have brought : allowance rate start b.lastMs + (min (time - b.lastMs) 1000 : Int) * b.rateBps / 8000 ≤
          allowance rate start time := allowance_refill positive below forth
        linarith [paid.credit set' inside]
    · rw [same]
      rcases lt_or_ge b.lastMs 0 with unset | set'
      · rw [paid.filled.unset unset, add_zero]
        exact total
      rcases lt_or_ge b.lastMs start with before | inside
      · have nothing := paid.fresh set' before
        linarith [allowance_ge positive since, paid.filled.credit.2]
      · exact (paid.credit set' inside).trans (allowance_mono positive forth)
  · rw [refill_lastMs] at early
    omega

theorem Paid.at_later (positive : 0 ≤ rate) (paid : Paid rate start emitted nowMs b) (later : nowMs ≤ time) :
    Paid rate start emitted time b :=
  ⟨paid.filled, paid.later.trans later, paid.total.trans (allowance_mono positive later), paid.credit, paid.fresh⟩

theorem Paid.of_less {emitted' : ℚ} (paid : Paid rate start emitted nowMs b) (less : emitted' ≤ emitted) :
    Paid rate start emitted' nowMs b :=
  ⟨paid.filled, paid.later, less.trans paid.total, fun set since => by linarith [paid.credit set since],
    fun set before => less.trans (paid.fresh set before)⟩

theorem setRate_rateBps (b : FecRateBudget) (bps nowMs : Int) :
    (b.setRate bps nowMs).rateBps = clamp bps 0 1000000000 := rfl

theorem setRate_lastMs (b : FecRateBudget) (bps nowMs : Int) : (b.setRate bps nowMs).lastMs = nowMs := by
  unfold setRate
  simp only
  split_ifs <;> rfl

/-- A new rate takes a part of the credit. -/
theorem setRate_credit (b : FecRateBudget) (filled : Filled b) (bps nowMs : Int) :
    0 ≤ (b.setRate bps nowMs).credit ∧ (b.setRate bps nowMs).credit ≤ (b.refill nowMs).credit := by
  have positive := (refill_filled filled nowMs).credit.1
  unfold setRate
  simp only
  generalize b.refill nowMs = refilled at *
  have bound : 0 ≤ clamp bps 0 1000000000 := (clamp_mem bps (by norm_num)).1
  generalize clamp bps 0 1000000000 = target at *
  split
  · exact ⟨le_rfl, positive⟩
  split
  · rename_i lower
    have old : (0 : ℚ) < refilled.rateBps := by exact_mod_cast lower.1
    have part : (target : ℚ) / refilled.rateBps ≤ 1 := (div_le_one old).mpr (by exact_mod_cast lower.2.le)
    exact ⟨mul_nonneg positive (div_nonneg (by exact_mod_cast bound) old.le), mul_le_of_le_one_right positive part⟩
  · exact ⟨positive, le_rfl⟩

theorem setRate_filled (filled : Filled b) (bps nowMs : Int) : Filled (b.setRate bps nowMs) := by
  have refilled := refill_filled filled nowMs
  obtain ⟨low, high⟩ := setRate_credit b filled bps nowMs
  refine ⟨⟨low, high.trans refilled.credit.2⟩, fun unset => ?_⟩
  rw [setRate_lastMs] at unset
  exact le_antisymm (high.trans_eq (refilled.unset unset)) low

theorem setRate_paid (positive : 0 ≤ rate) (below : b.rateBps ≤ rate) (paid : Paid rate start emitted nowMs b)
    (later : nowMs ≤ time) (bps : Int) : Paid rate start emitted time (b.setRate bps time) := by
  have refilled := refill_paid positive below paid later
  obtain ⟨low, high⟩ := setRate_credit b paid.filled bps time
  refine ⟨setRate_filled paid.filled bps time, refilled.later, refilled.total, fun set since => ?_, fun set before => ?_⟩
  · rw [setRate_lastMs] at set since ⊢
    have before := refilled.credit set since
    rw [refill_lastMs] at before
    linarith
  · rw [setRate_lastMs] at set before
    exact refilled.fresh set before

theorem consume_rateBps (b : FecRateBudget) (bytes : Nat) (nowMs : Int) : (b.consume bytes nowMs).2.rateBps = b.rateBps := by
  unfold consume
  split
  · rfl
  simp only
  split
  · exact refill_rateBps b nowMs
  · exact refill_rateBps b nowMs

theorem consume_filled (filled : Filled b) (bytes : Nat) (nowMs : Int) : Filled (b.consume bytes nowMs).2 := by
  have refilled := refill_filled filled nowMs
  unfold consume
  split
  · exact filled
  simp only
  split
  · exact refilled
  rename_i enough
  rw [not_lt] at enough
  have some' : (0 : ℚ) ≤ bytes := Nat.cast_nonneg _
  refine ⟨⟨by linarith, by linarith [refilled.credit.2]⟩, fun unset => ?_⟩
  have nothing := refilled.unset unset
  linarith

theorem afford_rateBps (bytes : Nat) (nowMs : Int) (count : Nat) (b : FecRateBudget) :
    (afford bytes nowMs count b).2.rateBps = b.rateBps := by
  induction count generalizing b with
  | zero => rfl
  | succ count ih =>
    simp only [afford]
    split
    · exact (ih _).trans (consume_rateBps b bytes nowMs)
    · exact consume_rateBps b bytes nowMs

theorem afford_filled (filled : Filled b) (bytes : Nat) (nowMs : Int) (count : Nat) :
    Filled (afford bytes nowMs count b).2 := by
  induction count generalizing b with
  | zero => exact filled
  | succ count ih =>
    simp only [afford]
    split
    · exact ih (consume_filled filled bytes nowMs)
    · exact consume_filled filled bytes nowMs

/-- What is taken out of a managed budget is paid. -/
theorem consume_paid (positive : 0 ≤ rate) (managed : 0 ≤ b.rateBps) (below : b.rateBps ≤ rate)
    (paid : Paid rate start emitted nowMs b) (later : nowMs ≤ time) (bytes : Nat) :
    Paid rate start (if (b.consume bytes time).1 then emitted + bytes else emitted) time (b.consume bytes time).2 := by
  have refilled := refill_paid positive below paid later
  have filled := consume_filled paid.filled bytes time
  unfold consume at filled ⊢
  rw [if_neg (not_lt.mpr managed)] at filled ⊢
  simp only at filled ⊢
  split
  · exact refilled
  rename_i enough
  rw [if_neg enough] at filled
  rw [if_pos rfl]
  have some' : (0 : ℚ) ≤ bytes := Nat.cast_nonneg _
  rw [not_lt] at enough
  refine ⟨filled, refilled.later, ?_, fun set since => ?_, fun set before => absurd refilled.later (not_le.mpr before)⟩
  · rcases lt_or_ge time 0 with unset | set
    · have nothing := refilled.filled.unset unset
      linarith [refilled.total]
    · have all := refilled.credit set refilled.later
      rw [refill_lastMs] at all
      linarith
  · have all := refilled.credit set since
    linarith

/-- The packets that a managed budget affords are paid. -/
theorem afford_paid (positive : 0 ≤ rate) (managed : 0 ≤ b.rateBps) (below : b.rateBps ≤ rate)
    (paid : Paid rate start emitted nowMs b) (later : nowMs ≤ time) (bytes count : Nat) :
    Paid rate start (emitted + (afford bytes time count b).1 * bytes) time (afford bytes time count b).2 := by
  induction count generalizing b emitted nowMs with
  | zero =>
    simp only [afford, Nat.cast_zero, zero_mul, add_zero]
    exact paid.at_later positive later
  | succ count ih =>
    have one := consume_paid positive managed below paid later bytes
    have same := consume_rateBps b bytes time
    simp only [afford]
    split
    · rename_i taken
      rw [if_pos taken] at one
      have rest := ih (same ▸ managed) (same ▸ below) one le_rfl
      have total : emitted + bytes + (afford bytes time count (b.consume bytes time).2).1 * bytes =
          emitted + ((afford bytes time count (b.consume bytes time).2).1 + 1 : Nat) * bytes := by
        push_cast
        ring
      rwa [total] at rest
    · rename_i refused
      rw [if_neg refused] at one
      simpa using one

theorem reset_paid (paid : Paid rate start emitted nowMs b) : Paid rate start emitted nowMs {} :=
  ⟨⟨⟨le_rfl, by norm_num⟩, fun _ => rfl⟩, paid.later, paid.total, fun set => absurd set (by decide),
    fun set => absurd set (by decide)⟩

theorem start_paid (positive : 0 ≤ rate) (filled : Filled b) : Paid rate start 0 start b := by
  refine ⟨filled, le_rfl, ?_, fun _ since => ?_, fun _ _ => le_rfl⟩
  · have most : 4800 ≤ allowance rate start start := allowance_ge positive le_rfl
    linarith
  · linarith [allowance_ge positive since, filled.credit.2]

end FecRateBudget

namespace RtpFecSender

open FecRateBudget

variable {σ : Type} {o : OpenFec σ}

/-! ### The sender -/

/-- A bitrate is managed. -/
def managed (s : RtpFecSender) : Prop := 0 ≤ s.rateBudget.rateBps ∨ 0 ≤ s.config.fecBitrateBps

/-- The rate of a managed sender. -/
def rateInForce (s : RtpFecSender) : Int :=
  if 0 ≤ s.rateBudget.rateBps then s.rateBudget.rateBps else clamp s.config.fecBitrateBps 0 1000000000

/-- The budget has the rate of the config, or it is set before the next source is queued. -/
structure Rated (s : RtpFecSender) : Prop where
  filled : Filled s.rateBudget
  rate : 0 ≤ s.config.fecBitrateBps → s.rateBudget.rateBps = clamp s.config.fecBitrateBps 0 1000000000 ∨
    s.rateBudget.rateBps < 0 ∧ s.pending = [] ∧ s.lastPacketMs < 0

def Call.time : Call → Option Int
  | .addPacket _ _ nowMs _ => some nowMs
  | .flushExpired _ nowMs => some nowMs
  | .setProtection _ nowMs => some nowMs
  | .reset => none

theorem rated_start : Rated {} :=
  ⟨⟨⟨le_rfl, by norm_num⟩, fun _ => rfl⟩, fun set => absurd set (by decide)⟩

theorem clampRate_nonneg (bps : Int) : 0 ≤ clamp bps 0 1000000000 := (clamp_mem bps (by norm_num)).1

@[simp] theorem queue_rateBudget (s : RtpFecSender) (p : Bytes) (nowMs : Int) (keyframe : Bool) :
    (s.queue p nowMs keyframe).rateBudget = s.rateBudget := by
  unfold queue
  simp only
  split <;> rfl

theorem earn_rateBudget (s : RtpFecSender) (size : Nat) (nowMs : Int) :
    (s.earn size nowMs).rateBudget =
      if s.lastPacketMs < 0 ∧ 0 ≤ s.config.fecBitrateBps then s.rateBudget.setRate s.config.fecBitrateBps nowMs
      else s.rateBudget := by
  unfold earn
  simp only
  split <;> split <;> rfl

/-- The budget when a source is queued. -/
theorem earn_rated {s : RtpFecSender} (rated : Rated s) (size : Nat) (nowMs : Int) :
    Filled (s.earn size nowMs).rateBudget ∧
      (0 ≤ s.config.fecBitrateBps → (s.earn size nowMs).rateBudget.rateBps = clamp s.config.fecBitrateBps 0 1000000000) := by
  rw [earn_rateBudget]
  split
  · exact ⟨setRate_filled rated.filled _ nowMs, fun _ => rfl⟩
  · rename_i same
    refine ⟨rated.filled, fun set => ?_⟩
    rcases rated.rate set with rate | ⟨-, -, first⟩
    · exact rate
    · exact absurd ⟨first, set⟩ same

theorem earn_managed {s : RtpFecSender} (rated : Rated s) (within : managed s) (size : Nat) (nowMs : Int) :
    0 ≤ (s.earn size nowMs).rateBudget.rateBps ∧ (s.earn size nowMs).rateBudget.rateBps = rateInForce s := by
  have set := (earn_rated rated size nowMs).2
  rcases lt_or_ge s.config.fecBitrateBps 0 with off | on
  · have rate : 0 ≤ s.rateBudget.rateBps := within.resolve_right (not_le.mpr off)
    rw [earn_rateBudget, if_neg (fun both => absurd both.2 (not_le.mpr off)), rateInForce, if_pos rate]
    exact ⟨rate, rfl⟩
  · rw [set on]
    refine ⟨clampRate_nonneg _, ?_⟩
    unfold rateInForce
    split
    · rename_i rate
      rcases rated.rate on with same | ⟨unset, -⟩
      · exact same.symm
      · exact absurd rate (not_le.mpr unset)
    · rfl

theorem rateBudget_le_rateInForce (s : RtpFecSender) : s.rateBudget.rateBps ≤ rateInForce s := by
  unfold rateInForce
  split
  · exact le_rfl
  · rename_i unset
    exact (not_le.mp unset).le.trans (clampRate_nonneg _)

/-- What a flush does to the budget. -/
theorem flush_budget {s : RtpFecSender} (sound : Sound s.pending) (few : s.pending.length ≤ kFecMaxSources)
    (repairSsrc : BitVec 32) (nowMs : Int) :
    (s.flush o repairSsrc nowMs).2.rateBudget.rateBps = s.rateBudget.rateBps ∧
      (Filled s.rateBudget → Filled (s.flush o repairSsrc nowMs).2.rateBudget) := by
  obtain ⟨flushed, -⟩ := flush_spec (o := o) sound few repairSsrc nowMs
  rcases flushed.budget with ⟨same, -⟩ | ⟨-, afforded⟩
  · rw [same]
    exact ⟨rfl, id⟩
  · rw [afforded]
    exact ⟨afford_rateBps _ _ _ _, fun filled => afford_filled filled _ _ _⟩

theorem flush_paid {s : RtpFecSender} {rate start nowMs time : Int} {emitted : ℚ} (positive : 0 ≤ rate)
    (sound : Sound s.pending) (few : s.pending.length ≤ kFecMaxSources)
    (within : s.pending ≠ [] → 0 ≤ s.rateBudget.rateBps) (below : s.rateBudget.rateBps ≤ rate)
    (paid : Paid rate start emitted nowMs s.rateBudget) (later : nowMs ≤ time) (repairSsrc : BitVec 32) :
    Paid rate start (emitted + cost (s.flush o repairSsrc time).1) time (s.flush o repairSsrc time).2.rateBudget := by
  obtain ⟨flushed, sent⟩ := flush_spec (o := o) sound few repairSsrc time
  rcases flushed.budget with ⟨same, nothing⟩ | ⟨some', afforded⟩
  · rw [same, nothing, cost_nil, add_zero]
    exact paid.at_later positive later
  · have all := afford_paid positive (within some') below paid later (wireSize s.pending + 64) s.repairCount
    rw [afforded]
    refine all.of_less ?_
    rcases sent with nothing | repaired
    · rw [nothing, cost_nil]
      have some'' : (0 : ℚ) ≤ (afford (wireSize s.pending + 64) time s.repairCount s.rateBudget).1 *
        (wireSize s.pending + 64 : Nat) := by positivity
      linarith
    · rw [cost_of_length repaired.length, ← repaired.affordable]

theorem tried_budget {s s' : RtpFecSender} {repairSsrc : BitVec 32} {nowMs : Int} {output : FecSymbols}
    (tried : Tried o repairSsrc nowMs s output s') (sound : Sound s.pending) (few : s.pending.length ≤ kFecMaxSources) :
    s'.config = s.config ∧ s'.rateBudget.rateBps = s.rateBudget.rateBps ∧
      (Filled s.rateBudget → Filled s'.rateBudget) := by
  rcases tried with flushed | ⟨-, same⟩
  · have spec := (flush_spec (o := o) sound few repairSsrc nowMs).1.config
    have budget := flush_budget (o := o) sound few repairSsrc nowMs
    rw [← flushed] at spec budget
    exact ⟨spec, budget⟩
  · rw [same]
    exact ⟨rfl, rfl, id⟩

theorem tried_paid {s s' : RtpFecSender} {repairSsrc : BitVec 32} {output : FecSymbols} {rate start nowMs time : Int}
    {emitted : ℚ} (tried : Tried o repairSsrc time s output s') (positive : 0 ≤ rate) (sound : Sound s.pending)
    (few : s.pending.length ≤ kFecMaxSources) (within : 0 ≤ s.rateBudget.rateBps) (below : s.rateBudget.rateBps ≤ rate)
    (paid : Paid rate start emitted nowMs s.rateBudget) (later : nowMs ≤ time) :
    Paid rate start (emitted + cost output) time s'.rateBudget := by
  rcases tried with flushed | ⟨nothing, same⟩
  · have all := flush_paid (o := o) positive sound few (fun _ => within) below paid later repairSsrc
    rwa [← flushed] at all
  · rw [nothing, same, cost_nil, add_zero]
    exact paid.at_later positive later

/-- What a source that is queued does to the budget. -/
theorem passage_budget {s s' s₁ s₂ : RtpFecSender} {p : Bytes} {repairSsrc : BitVec 32} {nowMs : Int} {keyframe : Bool}
    {output result last : FecSymbols} (passage : Passage o s p repairSsrc nowMs keyframe output s' s₁ s₂ result last) :
    s'.config = s.config ∧ s'.rateBudget.rateBps = (s.earn p.length nowMs).rateBudget.rateBps ∧
      (Filled (s.earn p.length nowMs).rateBudget → Filled s'.rateBudget) := by
  have budget₁ : (s₁.earn p.length nowMs).rateBudget = (s.earn p.length nowMs).rateBudget := by
    rw [passage.start, earn_rateBudget, earn_rateBudget]
  have config₁ : (s₁.earn p.length nowMs).config = s.config := by
    rw [passage.start]
    unfold earn
    simp only
    split <;> split <;> rfl
  obtain ⟨config₂, rate₂, filled₂⟩ := tried_budget passage.broken passage.earned.sound passage.earned.few.le
  obtain ⟨config', rate', filled'⟩ := tried_budget passage.completed passage.sound passage.few
  rw [budget₁] at rate₂ filled₂
  rw [queue_rateBudget] at rate' filled'
  rw [queue_config] at config'
  exact ⟨config'.trans (config₂.trans config₁), rate'.trans rate₂, fun filled => filled' (filled₂ filled)⟩

theorem idle_rated {s s' : RtpFecSender} {output : FecSymbols} (rated : Rated s) (idle : Idle s output s') : Rated s' := by
  refine ⟨idle.budget ▸ rated.filled, fun set => ?_⟩
  rw [idle.config] at set ⊢
  rw [idle.budget, idle.last]
  rcases rated.rate set with same | ⟨unset, nothing, first⟩
  · exact Or.inl same
  · refine Or.inr ⟨unset, ?_, first⟩
    rcases idle.pending with none' | same
    · exact none'
    · rw [same.1]
      exact nothing

theorem setProtection_budget (s : RtpFecSender) (config : FecProtectionConfig) (nowMs : Int) :
    s.setProtection config nowMs = s ∨
    ∃ s', s.setProtection config nowMs = s' ∧ s'.config = limited config ∧
      s'.rateBudget = if 0 ≤ (limited config).fecBitrateBps then
        s.rateBudget.setRate (limited config).fecBitrateBps nowMs else s.rateBudget := by
  unfold setProtection
  split
  · exact Or.inl rfl
  · refine Or.inr ⟨_, rfl, rfl, ?_⟩
    generalize limited config = next
    simp only
    split <;> split <;> split <;> rfl

/-- One call keeps the state of the budget. -/
theorem step_rated {s : RtpFecSender} (kept : Kept s) (rated : Rated s) (c : Call) : Rated (s.step o c).2 := by
  cases c with
  | addPacket p repairSsrc nowMs keyframe =>
    rcases addPacket_cases (o := o) s p repairSsrc nowMs keyframe with ⟨-, -, -, queued⟩ | ⟨-, idle⟩
    · obtain ⟨s₁, s₂, result, last, passage⟩ := queued_passage kept queued
      obtain ⟨filled, rate⟩ := earn_rated rated p.length nowMs
      obtain ⟨config, same, filled'⟩ := passage_budget passage
      refine ⟨filled' filled, fun set => Or.inl ?_⟩
      simp only [step] at set ⊢
      rw [config] at set ⊢
      rw [same]
      exact rate set
    · exact idle_rated rated idle
  | flushExpired repairSsrc nowMs =>
    rcases flushExpired_cases (o := o) s repairSsrc nowMs with ⟨s₁, same, flushed⟩ | idle
    · have rated₁ : Rated s₁ := by
        rw [same]
        exact ⟨rated.filled, rated.rate⟩
      have kept₁ : Kept s₁ := by
        rw [same]
        exact ⟨kept.credit, kept.ratio, kept.sound, kept.few⟩
      obtain ⟨spec, -⟩ := flush_spec (o := o) kept₁.sound kept₁.few.le repairSsrc nowMs
      obtain ⟨rate, filled⟩ := flush_budget (o := o) kept₁.sound kept₁.few.le repairSsrc nowMs
      simp only [step]
      rw [flushed]
      refine ⟨filled rated₁.filled, fun set => ?_⟩
      rw [spec.config] at set ⊢
      rw [rate, spec.last]
      rcases rated₁.rate set with known | ⟨unset, -, first⟩
      · exact Or.inl known
      · exact Or.inr ⟨unset, spec.pending, first⟩
    · exact idle_rated rated idle
  | setProtection config nowMs =>
    simp only [step]
    rcases setProtection_budget s config nowMs with same | ⟨s', same, next, budget⟩
    · rw [same]
      exact rated
    · rw [same]
      refine ⟨?_, fun set => Or.inl ?_⟩
      · rw [budget]
        split
        · exact setRate_filled rated.filled _ nowMs
        · exact rated.filled
      · rw [next] at set ⊢
        rw [budget, if_pos set]
        rfl
  | reset =>
    exact ⟨⟨⟨le_rfl, by norm_num [step, reset]⟩, fun _ => rfl⟩,
      fun _ => Or.inr ⟨show (-1 : Int) < 0 by decide, rfl, show (-1 : Int) < 0 by decide⟩⟩

/-- What a call of a managed sender emits is in the allowance. -/
theorem step_paid {s : RtpFecSender} {rate start nowMs : Int} {emitted : ℚ} (positive : 0 ≤ rate) (kept : Kept s)
    (rated : Rated s) (within : managed s) (below : rateInForce s ≤ rate)
    (paid : Paid rate start emitted nowMs s.rateBudget) (c : Call) (later : nowMs ≤ c.time.getD nowMs) :
    Paid rate start (emitted + cost (s.step o c).1) (c.time.getD nowMs) (s.step o c).2.rateBudget := by
  have below' := (rateBudget_le_rateInForce s).trans below
  cases c with
  | addPacket p repairSsrc time keyframe =>
    simp only [Call.time, Option.getD_some] at later ⊢
    rcases addPacket_cases (o := o) s p repairSsrc time keyframe with ⟨-, -, -, queued⟩ | ⟨-, idle⟩
    · obtain ⟨s₁, s₂, result, last, passage⟩ := queued_passage kept queued
      obtain ⟨set, same⟩ := earn_managed rated within p.length time
      have budget₁ : (s₁.earn p.length time).rateBudget = (s.earn p.length time).rateBudget := by
        rw [passage.start, earn_rateBudget, earn_rateBudget]
      have paid₁ : Paid rate start emitted time (s₁.earn p.length time).rateBudget := by
        rw [budget₁, earn_rateBudget]
        split
        · exact setRate_paid positive below' paid later _
        · exact paid.at_later positive later
      have one := tried_paid passage.broken positive passage.earned.sound passage.earned.few.le
        (by rw [budget₁]; exact set) (by rw [budget₁, same]; exact below) paid₁ le_rfl
      have rate₂ := (tried_budget passage.broken passage.earned.sound passage.earned.few.le).2.1
      rw [budget₁] at rate₂
      have two := tried_paid passage.completed positive passage.sound passage.few
        (by rw [queue_rateBudget, rate₂]; exact set) (by rw [queue_rateBudget, rate₂, same]; exact below)
        (by rw [queue_rateBudget]; exact one) le_rfl
      simp only [step]
      rw [passage.whole, cost_append, ← add_assoc]
      exact two
    · simp only [step]
      rw [idle.output, idle.budget, cost_nil, add_zero]
      exact paid.at_later positive later
  | flushExpired repairSsrc time =>
    simp only [Call.time, Option.getD_some] at later ⊢
    rcases flushExpired_cases (o := o) s repairSsrc time with ⟨s₁, same, flushed⟩ | idle
    · have kept₁ : Kept s₁ := by
        rw [same]
        exact ⟨kept.credit, kept.ratio, kept.sound, kept.few⟩
      have budget₁ : s₁.rateBudget = s.rateBudget := by rw [same]
      have set : s₁.pending ≠ [] → 0 ≤ s₁.rateBudget.rateBps := by
        intro some'
        rw [same] at some' ⊢
        rcases within with rate | on
        · exact rate
        rcases rated.rate on with rate | ⟨-, nothing, -⟩
        · rw [rate]
          exact clampRate_nonneg _
        · exact absurd nothing some'
      simp only [step]
      rw [flushed]
      exact flush_paid positive kept₁.sound kept₁.few.le set (budget₁ ▸ below') (budget₁ ▸ paid) later repairSsrc
    · simp only [step]
      rw [idle.output, idle.budget, cost_nil, add_zero]
      exact paid.at_later positive later
  | setProtection config time =>
    simp only [Call.time, Option.getD_some] at later ⊢
    simp only [step]
    rw [cost_nil, add_zero]
    rcases setProtection_budget s config time with same | ⟨s', same, -, budget⟩
    · rw [same]
      exact paid.at_later positive later
    · rw [same, budget]
      split
      · exact setRate_paid positive below' paid later _
      · exact paid.at_later positive later
  | reset =>
    simp only [step, reset, Call.time, Option.getD_none]
    rw [cost_nil, add_zero]
    exact reset_paid paid

theorem run_rated (calls : List Call) {s : RtpFecSender} (kept : Kept s) (rated : Rated s) : Rated (s.after o calls) := by
  induction calls generalizing s with
  | nil => exact rated
  | cons c calls ih => exact ih (step_kept kept c).1 (step_rated kept rated c)

/-- The calls are made at times from one to another, none before one that precedes it, and the sender
manages a bitrate below the given one before each. -/
def Managed (o : OpenFec σ) (rate stop : Int) : Int → RtpFecSender → List Call → Prop
  | _, _, [] => True
  | nowMs, s, c :: calls => managed s ∧ rateInForce s ≤ rate ∧ nowMs ≤ c.time.getD nowMs ∧ c.time.getD nowMs ≤ stop ∧
      Managed o rate stop (c.time.getD nowMs) (s.step o c).2 calls

theorem run_paid {rate start stop : Int} (positive : 0 ≤ rate) (calls : List Call) {s : RtpFecSender} {nowMs : Int}
    {before : ℚ} (kept : Kept s) (rated : Rated s) (paid : Paid rate start before nowMs s.rateBudget) (within : nowMs ≤ stop)
    (managed : Managed o rate stop nowMs s calls) : before + cost (emitted o s calls) ≤ allowance rate start stop := by
  induction calls generalizing s nowMs before with
  | nil =>
    rw [emitted, cost_nil, add_zero]
    exact paid.total.trans (allowance_mono positive within)
  | cons c calls ih =>
    obtain ⟨set, below, later, inside, rest⟩ := managed
    have one := step_paid (o := o) positive kept rated set below paid c later
    have all := ih (step_kept kept c).1 (step_rated kept rated c) one inside rest
    rw [emitted, cost_append, ← add_assoc]
    exact all

end RtpFecSender

end MiniRtc.Fec
