import MiniRtc.Fec.Sender

/-! The credit of the sender of repairs (rtp_fec.cpp): what a flush makes, what a call does, and that
over every sequence of calls the sources pay for the repairs. -/
namespace MiniRtc.Fec

open Wire

/-! ### One flush -/

theorem headerSize_spec {p : Bytes} (some' : headerSize p ≠ 0) : 12 ≤ headerSize p ∧ headerSize p < p.length := by
  unfold headerSize at some' ⊢
  split at some'
  · exact absurd rfl some'
  rename_i fits
  rw [if_neg fits]
  simp only at some' ⊢
  split at some'
  · exact absurd rfl some'
  rename_i whole
  rw [if_neg whole]
  split at some'
  · rename_i extended
    rw [if_pos extended]
    split at some'
    · exact absurd rfl some'
    rename_i room
    rw [if_neg room]
    split at some'
    · rename_i inside
      rw [if_pos inside]
      omega
    · exact absurd rfl some'
  · rename_i plain
    rw [if_neg plain]
    split at some'
    · rename_i inside
      rw [if_pos inside]
      omega
    · exact absurd rfl some'

theorem length_repairPacket {repairSsrc : BitVec 32} {pending : FecSymbols} {size repairCount index : Nat} {repair : Bytes}
    (header : headerSize (pending.getLastD []) ≠ 0) (length : repair.length = size) :
    (repairPacket repairSsrc pending size repairCount index repair).length =
      headerSize (pending.getLastD []) + kFecHeaderSize + size := by
  obtain ⟨low, high⟩ := headerSize_spec header
  simp only [repairPacket, put16, put32, slice, List.length_append, List.length_cons, List.length_nil, List.length_take,
    List.length_drop, kFecHeaderSize, length]
  omega

theorem le_foldl_max (sizes : List Nat) (size : Nat) :
    size ≤ sizes.foldl max size ∧ ∀ other ∈ sizes, other ≤ sizes.foldl max size := by
  induction sizes generalizing size with
  | nil => exact ⟨le_rfl, fun _ member => absurd member List.not_mem_nil⟩
  | cons first sizes ih =>
    obtain ⟨low, all⟩ := ih (max size first)
    refine ⟨(le_max_left _ _).trans low, List.forall_mem_cons.mpr ⟨(le_max_right _ _).trans low, all⟩⟩

theorem le_symbolSize {pending : FecSymbols} {p : Bytes} (member : p ∈ pending) :
    p.length + 2 ≤ RtpFecSender.symbolSize pending :=
  (le_foldl_max _ 0).2 _ (List.mem_map_of_mem member)

theorem length_padded {size : Nat} {p : Bytes} (fits : p.length + 2 ≤ size) : (padded size p).length = size := by
  simp only [padded, put16, List.length_append, List.length_cons, List.length_nil, List.length_replicate]
  omega

/-- What repairs cost. -/
def cost (packets : FecSymbols) : ℚ := (packets.map fun p => (p.length + 64 : ℚ)).sum

theorem cost_append (packets packets' : FecSymbols) : cost (packets ++ packets') = cost packets + cost packets' := by
  rw [cost, List.map_append, List.sum_append]
  rfl

theorem cost_of_length {packets : FecSymbols} {size : Nat} (length : ∀ p ∈ packets, p.length = size) :
    cost packets = packets.length * (size + 64 : Nat) := by
  have same : packets.map (fun p => (p.length + 64 : ℚ)) = packets.map fun _ => (size + 64 : ℚ) :=
    List.map_congr_left fun p member => by rw [length p member]
  rw [cost, same, List.map_const', List.sum_replicate, nsmul_eq_mul]
  push_cast
  ring

theorem cost_nonneg (packets : FecSymbols) : 0 ≤ cost packets :=
  List.sum_nonneg (List.forall_mem_map.mpr fun _ _ => by positivity)

namespace FecRateBudget

theorem afford_le (bytes : Nat) (nowMs : Int) (count : Nat) (b : FecRateBudget) :
    (afford bytes nowMs count b).1 ≤ count := by
  induction count generalizing b with
  | zero => exact le_rfl
  | succ count ih =>
    simp only [afford]
    split
    · exact Nat.succ_le_succ (ih _)
    · exact Nat.zero_le _

end FecRateBudget

namespace RtpFecSender

variable {σ : Type} {o : OpenFec σ}

/-- The repairs of a block, made in time and within the credits. -/
structure Repaired (o : OpenFec σ) (s : RtpFecSender) (repairSsrc : BitVec 32) (nowMs : Int) (packets : FecSymbols) :
    Prop where
  count : 1 ≤ packets.length ∧ packets.length ≤ s.repairCount
  early : nowMs < s.deadline
  length : ∀ packet ∈ packets, packet.length = wireSize s.pending
  fits : wireSize s.pending ≤ kFecMaxWirePacket
  affordable : packets.length = (FecRateBudget.afford (wireSize s.pending + 64) nowMs s.repairCount s.rateBudget).1
  made : ∃ repairs, encodeSymbols o (s.pending.map (padded (symbolSize s.pending))) packets.length = some repairs ∧
    packets = repairs.mapIdx (repairPacket repairSsrc s.pending (symbolSize s.pending) packets.length)

/-- What a flush leaves. -/
structure Flushed (s s' : RtpFecSender) (nowMs : Int) (packets : FecSymbols) : Prop where
  config : s'.config = s.config
  pending : s'.pending = []
  last : s'.lastPacketMs = s.lastPacketMs
  credit : s'.creditBytes = s.creditBytes - cost packets
  budget : s'.rateBudget = s.rateBudget ∧ packets = [] ∨ s.pending ≠ [] ∧
    s'.rateBudget = (FecRateBudget.afford (wireSize s.pending + 64) nowMs s.repairCount s.rateBudget).2

/-- The packets of a block that is flushed are RTP packets. -/
def Sound (pending : FecSymbols) : Prop := ∀ p ∈ pending, headerSize p ≠ 0

theorem cost_nil : cost [] = 0 := rfl

theorem flush_pending (s : RtpFecSender) (repairSsrc : BitVec 32) (nowMs : Int) :
    (s.flush o repairSsrc nowMs).2.pending = [] := by
  unfold flush
  split
  · assumption
  split
  · rfl
  split
  · rfl
  simp only
  split
  · rfl
  split
  · rfl
  · rfl

theorem flush_spec {s : RtpFecSender} (sound : Sound s.pending) (few : s.pending.length ≤ kFecMaxSources)
    (repairSsrc : BitVec 32) (nowMs : Int) :
    Flushed s (s.flush o repairSsrc nowMs).2 nowMs (s.flush o repairSsrc nowMs).1 ∧
      ((s.flush o repairSsrc nowMs).1 = [] ∨ Repaired o s repairSsrc nowMs (s.flush o repairSsrc nowMs).1) := by
  unfold flush
  split
  · rename_i nothing
    exact ⟨⟨rfl, nothing, rfl, by simp [cost_nil], Or.inl ⟨rfl, rfl⟩⟩, Or.inl rfl⟩
  rename_i some'
  split
  · exact ⟨⟨rfl, rfl, rfl, by simp [cost_nil], Or.inl ⟨rfl, rfl⟩⟩, Or.inl rfl⟩
  rename_i early
  split
  · exact ⟨⟨rfl, rfl, rfl, by simp [cost_nil, skip], Or.inl ⟨rfl, rfl⟩⟩, Or.inl rfl⟩
  rename_i fits
  have most := FecRateBudget.afford_le (wireSize s.pending + 64) nowMs s.repairCount s.rateBudget
  simp only
  split
  · exact ⟨⟨rfl, rfl, rfl, by simp [cost_nil, skip], Or.inr ⟨some', rfl⟩⟩, Or.inl rfl⟩
  rename_i affordable
  split
  · exact ⟨⟨rfl, rfl, rfl, by simp [cost_nil], Or.inr ⟨some', rfl⟩⟩, Or.inl rfl⟩
  rename_i repairs encoded
  generalize budget : FecRateBudget.afford (wireSize s.pending + 64) nowMs s.repairCount s.rateBudget = afforded at *
  have counts : s.repairCount ≤ kFecMaxRepairs := (min_le_left _ _).trans (min_le_left _ _)
  have sources : (s.pending.map (padded (symbolSize s.pending))).length ≤ kRsSmallMaxSources := by
    rw [List.length_map]
    exact few
  obtain ⟨positive, -, even, rows, -, made⟩ := encodeSymbols_small o encoded sources
    ⟨Nat.one_le_iff_ne_zero.mpr affordable, most.trans counts⟩
  have first : (symbolAt (s.pending.map (padded (symbolSize s.pending))) 0).length = symbolSize s.pending := by
    rw [symbolAt_eq (List.length_pos_iff.mpr positive), List.getElem_map]
    exact length_padded (le_symbolSize (List.getElem_mem _))
  have length : repairs.length = afforded.1 := by rw [made, List.length_map, List.length_range]
  have last : headerSize (s.pending.getLastD []) ≠ 0 := by
    rw [List.getLastD_eq_getLast?, List.getLast?_eq_some_getLast some']
    exact sound _ (List.getLast_mem some')
  have each : ∀ repair ∈ repairs, repair.length = symbolSize s.pending := by
    intro repair' member
    rw [made] at member
    obtain ⟨row, -, rfl⟩ := List.mem_map.mp member
    rw [(repair_word positive even row).1, first]
  have lengths : ∀ packet ∈ repairs.mapIdx (repairPacket repairSsrc s.pending (symbolSize s.pending) afforded.1),
      packet.length = wireSize s.pending := by
    intro packet member
    obtain ⟨index, inside, rfl⟩ := List.mem_mapIdx.mp member
    exact length_repairPacket last (each _ (List.getElem_mem inside))
  refine ⟨⟨rfl, rfl, rfl, ?_, Or.inr ⟨some', by rw [budget]⟩⟩,
    Or.inr ⟨?_, not_le.mp early, lengths, not_lt.mp fits, ?_, repairs, ?_, ?_⟩⟩
  · rw [cost_of_length lengths, List.length_mapIdx]
  · rw [List.length_mapIdx, length]
    exact ⟨Nat.one_le_iff_ne_zero.mpr affordable, most⟩
  · rw [List.length_mapIdx, length, budget]
  · rw [List.length_mapIdx, length]
    exact encoded
  · rw [List.length_mapIdx, length]

/-! ### The credit of the sources -/

/-- The state of a sender between calls. -/
structure Kept (s : RtpFecSender) : Prop where
  credit : 0 ≤ s.creditBytes ∧ s.creditBytes ≤ 4800
  ratio : 0 ≤ s.config.ratio ∧ s.config.ratio ≤ 1 / 4
  sound : Sound s.pending
  few : s.pending.length < kFecMaxSources

theorem kept_start : Kept {} := by
  refine ⟨⟨le_rfl, by norm_num⟩, ⟨by decide +kernel, by decide +kernel⟩, ?_, by decide⟩
  intro p member
  exact absurd member List.not_mem_nil

theorem sound_nil : Sound [] := fun _ member => absurd member List.not_mem_nil

theorem few_nil : ([] : FecSymbols).length < kFecMaxSources := by decide

/-- What a flush spends is there. -/
theorem flush_credit {s : RtpFecSender} (sound : Sound s.pending) (few : s.pending.length ≤ kFecMaxSources)
    (positive : 0 ≤ s.creditBytes) (repairSsrc : BitVec 32) (nowMs : Int) :
    0 ≤ (s.flush o repairSsrc nowMs).2.creditBytes ∧
      (s.flush o repairSsrc nowMs).2.creditBytes = s.creditBytes - cost (s.flush o repairSsrc nowMs).1 := by
  obtain ⟨flushed, sent⟩ := flush_spec (o := o) sound few repairSsrc nowMs
  refine ⟨?_, flushed.credit⟩
  rw [flushed.credit]
  rcases sent with nothing | repaired
  · rw [nothing, cost_nil, sub_zero]
    exact positive
  · have unit : (0 : ℚ) < (wireSize s.pending + 64 : Nat) := by positivity
    have quotient : 0 ≤ s.creditBytes / (wireSize s.pending + 64 : Nat) := div_nonneg positive unit.le
    have count : ((s.flush o repairSsrc nowMs).1.length : ℚ) ≤ s.creditBytes / (wireSize s.pending + 64 : Nat) := by
      have most := repaired.count.2.trans (min_le_right _ _)
      have floor := Int.floor_le (s.creditBytes / (wireSize s.pending + 64 : Nat) : ℚ)
      have whole : ((⌊s.creditBytes / (wireSize s.pending + 64 : Nat)⌋.toNat : Int) : ℚ) =
          ⌊s.creditBytes / (wireSize s.pending + 64 : Nat)⌋ := by
        rw [Int.toNat_of_nonneg (Int.floor_nonneg.mpr quotient)]
      rw [Int.cast_natCast] at whole
      calc ((s.flush o repairSsrc nowMs).1.length : ℚ) ≤
          (⌊s.creditBytes / (wireSize s.pending + 64 : Nat)⌋.toNat : ℚ) := by exact_mod_cast most
        _ = ⌊s.creditBytes / (wireSize s.pending + 64 : Nat)⌋ := whole
        _ ≤ _ := floor
    rw [cost_of_length repaired.length]
    rw [le_div_iff₀ unit] at count
    linarith

/-- What a flush keeps. -/
theorem flush_kept {s : RtpFecSender} (kept : Kept s) (repairSsrc : BitVec 32) (nowMs : Int) :
    Kept (s.flush o repairSsrc nowMs).2 := by
  obtain ⟨flushed, -⟩ := flush_spec (o := o) kept.sound kept.few.le repairSsrc nowMs
  obtain ⟨positive, spent⟩ := flush_credit (o := o) kept.sound kept.few.le kept.credit.1 repairSsrc nowMs
  have paid := cost_nonneg (s.flush o repairSsrc nowMs).1
  refine ⟨⟨positive, by linarith [kept.credit.2]⟩, ?_, ?_, ?_⟩
  · rw [flushed.config]
    exact kept.ratio
  · rw [flushed.pending]
    exact sound_nil
  · rw [flushed.pending]
    exact few_nil

/-- What the call earns: the ratio in force for each octet of a source that is accepted. -/
def earned (s : RtpFecSender) : Call → ℚ
  | .addPacket p repairSsrc _ _ => if accepts p repairSsrc then p.length * s.config.ratio else 0
  | _ => 0

theorem limited_ratio (config : FecProtectionConfig) : 0 ≤ (limited config).ratio ∧ (limited config).ratio ≤ 1 / 4 :=
  config.allocated_mem

theorem setProtection_kept {s : RtpFecSender} (kept : Kept s) (config : FecProtectionConfig) (nowMs : Int) :
    Kept (s.setProtection config nowMs) ∧ (s.setProtection config nowMs).creditBytes ≤ s.creditBytes := by
  unfold setProtection
  split
  · exact ⟨kept, le_rfl⟩
  simp only
  have ratio := limited_ratio config
  generalize limited config = next at *
  -- The credit that a lower ratio leaves.
  have scaled : ∃ credit, 0 ≤ credit ∧ credit ≤ s.creditBytes ∧
      (if 0 < s.config.ratio ∧ next.ratio < s.config.ratio then
        { s with creditBytes := s.creditBytes * (next.ratio / s.config.ratio) } else s) =
      { s with creditBytes := credit } := by
    split
    · rename_i lower
      have part : next.ratio / s.config.ratio ≤ 1 := (div_le_one lower.1).mpr lower.2.le
      exact ⟨_, mul_nonneg kept.credit.1 (div_nonneg ratio.1 lower.1.le), mul_le_of_le_one_right kept.credit.1 part, rfl⟩
    · exact ⟨s.creditBytes, kept.credit.1, le_rfl, rfl⟩
  obtain ⟨credit, positive, less, same⟩ := scaled
  rw [same]
  have most : credit ≤ 4800 := less.trans kept.credit.2
  split
  · split
    · exact ⟨⟨⟨le_rfl, by norm_num⟩, ratio, sound_nil, few_nil⟩, kept.credit.1⟩
    · exact ⟨⟨⟨positive, most⟩, ratio, kept.sound, kept.few⟩, less⟩
  · split
    · exact ⟨⟨⟨le_rfl, by norm_num⟩, ratio, sound_nil, few_nil⟩, kept.credit.1⟩
    · exact ⟨⟨⟨positive, most⟩, ratio, kept.sound, kept.few⟩, less⟩

/-- The state in which a source is queued. -/
theorem earn_kept {s : RtpFecSender} (kept : Kept s) (size : Nat) (nowMs : Int) :
    Kept (s.earn size nowMs) ∧ (s.earn size nowMs).creditBytes ≤ s.creditBytes + size * s.config.ratio ∧
      (s.earn size nowMs).config = s.config ∧
      ((s.earn size nowMs).pending = s.pending ∨ (s.earn size nowMs).pending = []) ∧
      (s.earn size nowMs).firstMs = s.firstMs ∧ (s.earn size nowMs).blockConfig = s.blockConfig := by
  have gain : 0 ≤ size * s.config.ratio := mul_nonneg (Nat.cast_nonneg _) kept.ratio.1
  obtain ⟨positive, most⟩ := kept.credit
  have credits : ∀ credit : ℚ, 0 ≤ credit → credit ≤ s.creditBytes →
      (0 ≤ min (credit + size * s.config.ratio) 4800 ∧ min (credit + size * s.config.ratio) 4800 ≤ 4800) ∧
        min (credit + size * s.config.ratio) 4800 ≤ s.creditBytes + size * s.config.ratio := fun credit low high =>
    ⟨⟨le_min (by linarith) (by norm_num), min_le_right _ _⟩, (min_le_left _ _).trans (by linarith)⟩
  have whole := credits s.creditBytes positive le_rfl
  have none' := credits 0 le_rfl positive
  unfold earn
  simp only
  split
  · split
    · exact ⟨⟨none'.1, kept.ratio, sound_nil, few_nil⟩, none'.2, rfl, Or.inr rfl, rfl, rfl⟩
    · exact ⟨⟨whole.1, kept.ratio, kept.sound, kept.few⟩, whole.2, rfl, Or.inl rfl, rfl, rfl⟩
  · split
    · exact ⟨⟨none'.1, kept.ratio, sound_nil, few_nil⟩, none'.2, rfl, Or.inr rfl, rfl, rfl⟩
    · exact ⟨⟨whole.1, kept.ratio, kept.sound, kept.few⟩, whole.2, rfl, Or.inl rfl, rfl, rfl⟩

/-- Either a flush, or nothing. -/
def Tried (o : OpenFec σ) (repairSsrc : BitVec 32) (nowMs : Int) (s : RtpFecSender) (output : FecSymbols)
    (s' : RtpFecSender) : Prop :=
  (output, s') = s.flush o repairSsrc nowMs ∨ output = [] ∧ s' = s

/-- A source is queued: a block that it does not continue is flushed before, a block that it completes after. -/
structure Queued (o : OpenFec σ) (s : RtpFecSender) (p : Bytes) (repairSsrc : BitVec 32) (nowMs : Int) (keyframe : Bool)
    (output : FecSymbols) (s' : RtpFecSender) : Prop where
  accepted : accepts p repairSsrc = true
  protected' : s.config.ratio ≠ 0 ∧ s.config.fecBitrateBps ≠ 0
  parts : ∃ (s₁ : RtpFecSender) (result : FecSymbols) (s₂ : RtpFecSender) (last : FecSymbols),
    s₁ = { s with
      repairDeadlineMs := -1
      stats := { s.stats with sourcePackets := s.stats.sourcePackets + 1 } } ∧
    Tried o repairSsrc nowMs (s₁.earn p.length nowMs) result s₂ ∧
    Tried o repairSsrc nowMs (s₂.queue p nowMs keyframe) last s' ∧ output = result ++ last ∧
    ((s₂.queue p nowMs keyframe).pending.length = kFecMaxSources → s'.pending = [])

/-- Nothing is queued. -/
structure Idle (s : RtpFecSender) (output : FecSymbols) (s' : RtpFecSender) : Prop where
  output : output = []
  config : s'.config = s.config
  credit : s'.creditBytes = s.creditBytes
  last : s'.lastPacketMs = s.lastPacketMs
  budget : s'.rateBudget = s.rateBudget
  pending : s'.pending = [] ∨ s'.pending = s.pending ∧ s'.firstMs = s.firstMs ∧ s'.blockConfig = s.blockConfig

theorem addPacket_cases (s : RtpFecSender) (p : Bytes) (repairSsrc : BitVec 32) (nowMs : Int) (keyframe : Bool) :
    (accepts p repairSsrc = true ∧ s.config.ratio ≠ 0 ∧ s.config.fecBitrateBps ≠ 0 ∧
      Queued o s p repairSsrc nowMs keyframe (s.addPacket o p repairSsrc nowMs keyframe).1
        (s.addPacket o p repairSsrc nowMs keyframe).2) ∨
    ¬(accepts p repairSsrc = true ∧ s.config.ratio ≠ 0 ∧ s.config.fecBitrateBps ≠ 0) ∧
      Idle s (s.addPacket o p repairSsrc nowMs keyframe).1 (s.addPacket o p repairSsrc nowMs keyframe).2 := by
  unfold addPacket
  simp only
  split
  · rename_i rejected
    refine Or.inr ⟨fun all => ?_, rfl, rfl, rfl, rfl, rfl, Or.inl rfl⟩
    rw [rejected] at all
    exact Bool.false_ne_true all.1
  rename_i accepted
  rw [Bool.not_eq_false] at accepted
  split
  · rename_i off
    refine Or.inr ⟨fun all => ?_, rfl, rfl, rfl, rfl, rfl, Or.inr ⟨rfl, rfl, rfl⟩⟩
    exact off.elim all.2.1 all.2.2
  rename_i on
  rw [not_or] at on
  refine Or.inl ⟨accepted, on.1, on.2, accepted, on, ?_⟩
  generalize first : ({ s with
    repairDeadlineMs := -1
    stats := { s.stats with sourcePackets := s.stats.sourcePackets + 1 } } : RtpFecSender) = s₁
  generalize broken : (if (s₁.earn p.length nowMs).pending ≠ [] ∧ (s₁.earn p.length nowMs).breaks p nowMs = true then
    (s₁.earn p.length nowMs).flush o repairSsrc nowMs else ([], s₁.earn p.length nowMs)) = r
  obtain ⟨result, s₂⟩ := r
  have before : Tried o repairSsrc nowMs (s₁.earn p.length nowMs) result s₂ := by
    split at broken
    · exact Or.inl broken.symm
    · exact Or.inr ⟨(congrArg Prod.fst broken).symm, (congrArg Prod.snd broken).symm⟩
  simp only
  split
  · exact ⟨s₁, result, s₂, _, rfl, before, Or.inl rfl, rfl, fun full => (flush_pending _ _ _)⟩
  · rename_i open'
    exact ⟨s₁, result, s₂, [], rfl, before, Or.inr ⟨rfl, rfl⟩, (List.append_nil _).symm,
      fun full => absurd (Or.inl full) open'⟩

theorem flushExpired_cases (s : RtpFecSender) (repairSsrc : BitVec 32) (nowMs : Int) :
    (∃ s₁ : RtpFecSender, s₁ = { s with repairDeadlineMs := -1 } ∧
      s.flushExpired o repairSsrc nowMs = s₁.flush o repairSsrc nowMs) ∨
    Idle s (s.flushExpired o repairSsrc nowMs).1 (s.flushExpired o repairSsrc nowMs).2 := by
  unfold flushExpired
  simp only
  split
  · exact Or.inr ⟨rfl, rfl, rfl, rfl, rfl, Or.inr ⟨rfl, rfl, rfl⟩⟩
  · exact Or.inl ⟨_, rfl, rfl⟩

theorem tried_kept {s s' : RtpFecSender} {repairSsrc : BitVec 32} {nowMs : Int} {output : FecSymbols}
    (tried : Tried o repairSsrc nowMs s output s') (credit : 0 ≤ s.creditBytes ∧ s.creditBytes ≤ 4800)
    (ratio : 0 ≤ s.config.ratio ∧ s.config.ratio ≤ 1 / 4) (sound : Sound s.pending)
    (few : s.pending.length ≤ kFecMaxSources) (full : s.pending.length = kFecMaxSources → s'.pending = []) :
    Kept s' ∧ s'.creditBytes = s.creditBytes - cost output ∧ s'.config = s.config := by
  rcases tried with flushed | ⟨nothing, same⟩
  · have spec := flush_spec (o := o) sound few repairSsrc nowMs
    have spent := flush_credit (o := o) sound few credit.1 repairSsrc nowMs
    rw [← flushed] at spec spent
    obtain ⟨⟨config, pending, -, -, -⟩, -⟩ := spec
    have paid := cost_nonneg output
    simp only at spent config pending
    refine ⟨⟨⟨spent.1, by linarith [credit.2, spent.2]⟩, config ▸ ratio, ?_, ?_⟩, spent.2, config⟩
    · rw [pending]
      exact sound_nil
    · rw [pending]
      exact few_nil
  · subst nothing same
    refine ⟨⟨credit, ratio, sound, ?_⟩, by rw [cost_nil, sub_zero], rfl⟩
    rcases few.lt_or_eq with less | most
    · exact less
    · rw [full most]
      exact few_nil

theorem accepts_header {p : Bytes} {repairSsrc : BitVec 32} (accepted : accepts p repairSsrc = true) :
    headerSize p ≠ 0 := by
  simp only [accepts, Bool.and_eq_true, decide_eq_true_eq] at accepted
  exact accepted.1.1.1

@[simp] theorem queue_pending (s : RtpFecSender) (p : Bytes) (nowMs : Int) (keyframe : Bool) :
    (s.queue p nowMs keyframe).pending = s.pending ++ [p] := by
  unfold queue
  simp only
  split <;> rfl

@[simp] theorem queue_config (s : RtpFecSender) (p : Bytes) (nowMs : Int) (keyframe : Bool) :
    (s.queue p nowMs keyframe).config = s.config := by
  unfold queue
  simp only
  split <;> rfl

@[simp] theorem queue_credit (s : RtpFecSender) (p : Bytes) (nowMs : Int) (keyframe : Bool) :
    (s.queue p nowMs keyframe).creditBytes = s.creditBytes := by
  unfold queue
  simp only
  split <;> rfl

/-- The states between which a source is queued. -/
structure Passage (o : OpenFec σ) (s : RtpFecSender) (p : Bytes) (repairSsrc : BitVec 32) (nowMs : Int) (keyframe : Bool)
    (output : FecSymbols) (s' s₁ s₂ : RtpFecSender) (result last : FecSymbols) : Prop where
  start : s₁ = { s with
    repairDeadlineMs := -1
    stats := { s.stats with sourcePackets := s.stats.sourcePackets + 1 } }
  earned : Kept (s₁.earn p.length nowMs)
  broken : Tried o repairSsrc nowMs (s₁.earn p.length nowMs) result s₂
  between : Kept s₂
  sound : Sound (s₂.queue p nowMs keyframe).pending
  few : (s₂.queue p nowMs keyframe).pending.length ≤ kFecMaxSources
  completed : Tried o repairSsrc nowMs (s₂.queue p nowMs keyframe) last s'
  whole : output = result ++ last
  full : (s₂.queue p nowMs keyframe).pending.length = kFecMaxSources → s'.pending = []

theorem queued_passage {s s' : RtpFecSender} {p : Bytes} {repairSsrc : BitVec 32} {nowMs : Int} {keyframe : Bool}
    {output : FecSymbols} (kept : Kept s) (queued : Queued o s p repairSsrc nowMs keyframe output s') :
    ∃ s₁ s₂ result last, Passage o s p repairSsrc nowMs keyframe output s' s₁ s₂ result last := by
  obtain ⟨accepted, -, s₁, result, s₂, last, start, broken, completed, whole, full⟩ := queued
  have kept₁ : Kept s₁ := by
    rw [start]
    exact ⟨kept.credit, kept.ratio, kept.sound, kept.few⟩
  have earned := (earn_kept kept₁ p.length nowMs).1
  have between := (tried_kept broken earned.credit earned.ratio earned.sound earned.few.le
    fun full => absurd full earned.few.ne).1
  refine ⟨s₁, s₂, result, last, start, earned, broken, between, ?_, ?_, completed, whole, full⟩
  · rw [queue_pending]
    intro q member
    rcases List.mem_append.mp member with old | new
    · exact between.sound q old
    · rw [List.mem_singleton.mp new]
      exact accepts_header accepted
  · rw [queue_pending, List.length_append]
    exact between.few

theorem queued_kept {s s' : RtpFecSender} {p : Bytes} {repairSsrc : BitVec 32} {nowMs : Int} {keyframe : Bool}
    {output : FecSymbols} (kept : Kept s) (queued : Queued o s p repairSsrc nowMs keyframe output s') :
    Kept s' ∧ cost output + s'.creditBytes ≤ s.creditBytes + p.length * s.config.ratio := by
  obtain ⟨s₁, s₂, result, last, passage⟩ := queued_passage kept queued
  have kept₁ : Kept s₁ := by
    rw [passage.start]
    exact ⟨kept.credit, kept.ratio, kept.sound, kept.few⟩
  have config₁ : s₁.config = s.config := by rw [passage.start]
  have credit₁ : s₁.creditBytes = s.creditBytes := by rw [passage.start]
  have earned := passage.earned
  have gain := (earn_kept kept₁ p.length nowMs).2.1
  obtain ⟨-, spent₂, -⟩ := tried_kept passage.broken earned.credit earned.ratio earned.sound earned.few.le
    fun full => absurd full earned.few.ne
  obtain ⟨kept', spent', -⟩ := tried_kept passage.completed (by rw [queue_credit]; exact passage.between.credit)
    (by rw [queue_config]; exact passage.between.ratio) passage.sound passage.few passage.full
  refine ⟨kept', ?_⟩
  rw [passage.whole, cost_append, spent', queue_credit, spent₂]
  rw [credit₁, config₁] at gain
  linarith

theorem idle_kept {s s' : RtpFecSender} {output : FecSymbols} (kept : Kept s) (idle : Idle s output s') :
    Kept s' ∧ cost output + s'.creditBytes = s.creditBytes := by
  refine ⟨⟨idle.credit ▸ kept.credit, idle.config ▸ kept.ratio, ?_, ?_⟩, ?_⟩
  · rcases idle.pending with nothing | same
    · rw [nothing]
      exact sound_nil
    · rw [same.1]
      exact kept.sound
  · rcases idle.pending with nothing | same
    · rw [nothing]
      exact few_nil
    · rw [same.1]
      exact kept.few
  · rw [idle.output, idle.credit, cost_nil, zero_add]

theorem earned_nonneg {s : RtpFecSender} (kept : Kept s) (c : Call) : 0 ≤ earned s c := by
  cases c with
  | addPacket p repairSsrc nowMs keyframe =>
    simp only [earned]
    split_ifs
    · exact mul_nonneg (Nat.cast_nonneg _) kept.ratio.1
    · exact le_rfl
  | flushExpired repairSsrc nowMs => exact le_rfl
  | setProtection config nowMs => exact le_rfl
  | reset => exact le_rfl

/-- One call keeps the state, and its repairs are paid from the credit. -/
theorem step_kept {s : RtpFecSender} (kept : Kept s) (c : Call) :
    Kept (s.step o c).2 ∧ cost (s.step o c).1 + (s.step o c).2.creditBytes ≤ s.creditBytes + earned s c := by
  cases c with
  | addPacket p repairSsrc nowMs keyframe =>
    rcases addPacket_cases (o := o) s p repairSsrc nowMs keyframe with ⟨accepted, -, -, queued⟩ | ⟨-, idle⟩
    · obtain ⟨kept', paid⟩ := queued_kept kept queued
      refine ⟨kept', ?_⟩
      simp only [earned, accepted, if_true]
      exact paid
    · obtain ⟨kept', same⟩ := idle_kept kept idle
      exact ⟨kept', same.le.trans (le_add_of_nonneg_right (earned_nonneg kept _))⟩
  | flushExpired repairSsrc nowMs =>
    rcases flushExpired_cases (o := o) s repairSsrc nowMs with ⟨s₁, same, flushed⟩ | idle
    · have kept₁ : Kept s₁ := by
        rw [same]
        exact ⟨kept.credit, kept.ratio, kept.sound, kept.few⟩
      obtain ⟨-, spent⟩ := flush_credit (o := o) kept₁.sound kept₁.few.le kept₁.credit.1 repairSsrc nowMs
      have credit : s₁.creditBytes = s.creditBytes := by rw [same]
      simp only [step, earned]
      rw [flushed]
      refine ⟨flush_kept kept₁ repairSsrc nowMs, ?_⟩
      linarith
    · obtain ⟨kept', same⟩ := idle_kept kept idle
      exact ⟨kept', same.le.trans (le_add_of_nonneg_right (earned_nonneg kept _))⟩
  | setProtection config nowMs =>
    obtain ⟨kept', less⟩ := setProtection_kept kept config nowMs
    refine ⟨kept', ?_⟩
    simp only [step, earned, cost_nil]
    linarith
  | reset =>
    refine ⟨⟨⟨le_rfl, by norm_num [step, reset]⟩, kept.ratio, sound_nil, few_nil⟩, ?_⟩
    simp only [step, reset, earned, cost_nil]
    linarith [kept.credit.1]

/-- What the calls emit. -/
def emitted (o : OpenFec σ) (s : RtpFecSender) : List Call → FecSymbols
  | [] => []
  | c :: calls => (s.step o c).1 ++ emitted o (s.step o c).2 calls

/-- What the calls earn. -/
def earnings (o : OpenFec σ) (s : RtpFecSender) : List Call → ℚ
  | [] => 0
  | c :: calls => earned s c + earnings o (s.step o c).2 calls

theorem run_kept (calls : List Call) {s : RtpFecSender} (kept : Kept s) :
    Kept (s.after o calls) ∧ cost (emitted o s calls) + (s.after o calls).creditBytes ≤ s.creditBytes + earnings o s calls := by
  induction calls generalizing s with
  | nil => exact ⟨kept, by simp [emitted, earnings, after, cost_nil]⟩
  | cons c calls ih =>
    obtain ⟨kept', one⟩ := step_kept (o := o) kept c
    obtain ⟨kept'', rest⟩ := ih kept'
    refine ⟨kept'', ?_⟩
    rw [emitted, earnings, cost_append]
    change _ + ((s.step o c).2.after o calls).creditBytes ≤ _
    linarith

end RtpFecSender

end MiniRtc.Fec
