import MiniRtc.Fec.RepairRate

/-! How much the sender of repairs sends (rtp_fec.cpp): over every sequence of calls its two credits
bound what is emitted, and each emission repairs a block of its own, in time, with few packets that fit. -/
namespace MiniRtc.Fec

open Wire

namespace RtpFecSender

variable {σ : Type} {o : OpenFec σ}

/-! ### The blocks -/

/-- A packet that was queued, when, and under which config. -/
structure Source where
  packet : Bytes
  nowMs : Int
  config : FecProtectionConfig

/-- The source that a call queues. -/
def sources (s : RtpFecSender) : Call → List Source
  | .addPacket p repairSsrc nowMs _ =>
    if accepts p repairSsrc = true ∧ s.config.ratio ≠ 0 ∧ s.config.fecBitrateBps ≠ 0 then [⟨p, nowMs, s.config⟩] else []
  | _ => []

/-- The repairs of a block, when they are emitted, and under which config. -/
structure Emission where
  block : List Source
  repairs : FecSymbols
  nowMs : Int
  config : FecProtectionConfig

/-- Few repairs of the block, each of which fits, before the first source is as old as either window. -/
structure Emission.Good (o : OpenFec σ) (e : Emission) : Prop where
  few : e.repairs.length ≤ kFecMaxRepairs
  fits : ∀ repair ∈ e.repairs, repair.length ≤ kFecMaxWirePacket
  early : ∃ first ∈ e.block.head?,
    e.nowMs < first.nowMs + min e.config.recoveryWindowMs first.config.recoveryWindowMs
  made : ∃ repairSsrc size symbols,
    encodeSymbols o (e.block.map fun source => padded size source.packet) e.repairs.length = some symbols ∧
    e.repairs = symbols.mapIdx (repairPacket repairSsrc (e.block.map Source.packet) size e.repairs.length)

/-- The sources of the block that is pending. -/
structure Holds (s : RtpFecSender) (held : List Source) : Prop where
  packets : held.map Source.packet = s.pending
  first : ∀ first ∈ held.head?, first.nowMs = s.firstMs ∧ first.config = s.blockConfig

theorem holds_nil {s : RtpFecSender} (nothing : s.pending = []) : Holds s [] :=
  ⟨nothing.symm, fun _ member => absurd member (by simp)⟩

/-- A flush emits the repairs of the pending block, or none. -/
theorem flush_emission {s : RtpFecSender} {held : List Source} (sound : Sound s.pending)
    (few : s.pending.length ≤ kFecMaxSources) (holds : Holds s held) (repairSsrc : BitVec 32) (nowMs : Int) :
    ∃ es : List Emission, (s.flush o repairSsrc nowMs).1 = es.flatMap Emission.repairs ∧
      (∀ e ∈ es, e.Good o ∧ e.nowMs = nowMs ∧ e.config = s.config) ∧ (es.flatMap Emission.block).Sublist held := by
  obtain ⟨-, nothing | repaired⟩ := flush_spec (o := o) sound few repairSsrc nowMs
  · exact ⟨[], nothing, fun _ member => absurd member List.not_mem_nil, List.nil_sublist _⟩
  obtain ⟨symbols, encoded, same⟩ := repaired.made
  refine ⟨[⟨held, (s.flush o repairSsrc nowMs).1, nowMs, s.config⟩], (List.append_nil _).symm, ?_, ?_⟩
  · intro e member
    rw [List.mem_singleton.mp member]
    refine ⟨⟨?_, ?_, ?_, repairSsrc, symbolSize s.pending, symbols, ?_, ?_⟩, rfl, rfl⟩
    · exact repaired.count.2.trans ((min_le_left _ _).trans (min_le_left _ _))
    · intro repair inside
      rw [repaired.length repair inside]
      exact repaired.fits
    · cases held with
      | nil =>
        have nothing : s.pending = [] := holds.packets.symm
        have empty : s.flush o repairSsrc nowMs = ([], s) := by rw [flush, if_pos nothing]
        have one := repaired.count.1
        rw [empty] at one
        exact absurd one (Nat.not_succ_le_zero 0)
      | cons first held =>
        obtain ⟨time, config⟩ := holds.first first rfl
        refine ⟨first, rfl, ?_⟩
        rw [time, config]
        exact repaired.early
    · rw [← holds.packets, List.map_map] at encoded
      rw [← holds.packets]
      exact encoded
    · rw [holds.packets]
      exact same
  · simp

theorem tried_emission {s s' : RtpFecSender} {repairSsrc : BitVec 32} {nowMs : Int} {output : FecSymbols}
    {held : List Source} (tried : Tried o repairSsrc nowMs s output s') (sound : Sound s.pending)
    (few : s.pending.length ≤ kFecMaxSources) (holds : Holds s held) :
    ∃ (es : List Emission) (held' : List Source), output = es.flatMap Emission.repairs ∧
      (∀ e ∈ es, e.Good o ∧ e.nowMs = nowMs ∧ e.config = s.config) ∧
      (es.flatMap Emission.block ++ held').Sublist held ∧ Holds s' held' := by
  rcases tried with flushed | ⟨nothing, same⟩
  · obtain ⟨es, output', good, blocks⟩ := flush_emission (o := o) sound few holds repairSsrc nowMs
    have empty := flush_pending (o := o) s repairSsrc nowMs
    rw [← flushed] at output' empty
    exact ⟨es, [], output', good, by rw [List.append_nil]; exact blocks, holds_nil empty⟩
  · rw [nothing, same]
    exact ⟨[], held, rfl, fun _ member => absurd member List.not_mem_nil, List.Sublist.refl _, holds⟩

theorem queue_holds {s : RtpFecSender} {held : List Source} (holds : Holds s held) (p : Bytes) (nowMs : Int)
    (keyframe : Bool) : Holds (s.queue p nowMs keyframe) (held ++ [⟨p, nowMs, s.config⟩]) := by
  refine ⟨by rw [List.map_append, holds.packets, queue_pending]; rfl, ?_⟩
  unfold queue
  cases held with
  | nil =>
    intro first member
    have nothing : s.pending = [] := holds.packets.symm
    rw [if_pos nothing]
    obtain rfl : _ = first := Option.some_inj.mp member
    exact ⟨rfl, rfl⟩
  | cons source held =>
    intro first member
    have some' : s.pending ≠ [] := by
      rw [← holds.packets]
      exact List.cons_ne_nil _ _
    rw [if_neg some']
    exact holds.first first member

theorem earn_holds {s : RtpFecSender} {held : List Source} (kept : Kept s) (holds : Holds s held) (size : Nat)
    (nowMs : Int) : ∃ held' : List Source, held'.Sublist held ∧ Holds (s.earn size nowMs) held' := by
  obtain ⟨-, -, -, pending, first, config⟩ := earn_kept kept size nowMs
  rcases pending with same | nothing
  · refine ⟨held, List.Sublist.refl _, holds.packets.trans same.symm, ?_⟩
    rw [first, config]
    exact holds.first
  · exact ⟨[], List.nil_sublist _, holds_nil nothing⟩

theorem idle_holds {s s' : RtpFecSender} {output : FecSymbols} {held : List Source} (holds : Holds s held)
    (idle : Idle s output s') : ∃ held' : List Source, held'.Sublist held ∧ Holds s' held' := by
  rcases idle.pending with nothing | ⟨same, first, config⟩
  · exact ⟨[], List.nil_sublist _, holds_nil nothing⟩
  · refine ⟨held, List.Sublist.refl _, holds.packets.trans same.symm, ?_⟩
    rw [first, config]
    exact holds.first

theorem setProtection_holds {s : RtpFecSender} {held : List Source} (holds : Holds s held) (config : FecProtectionConfig)
    (nowMs : Int) : ∃ held' : List Source, held'.Sublist held ∧ Holds (s.setProtection config nowMs) held' := by
  unfold setProtection
  split
  · exact ⟨held, List.Sublist.refl _, holds⟩
  generalize limited config = next
  by_cases off : next.ratio = 0 ∨ next.fecBitrateBps = 0
  · refine ⟨[], List.nil_sublist _, holds_nil ?_⟩
    simp only
    rw [if_pos off]
    split <;> rfl
  · refine ⟨held, List.Sublist.refl _, ?_⟩
    simp only
    rw [if_neg off]
    split <;> split <;> exact ⟨holds.packets, holds.first⟩

/-- A call emits the repairs of blocks of the sources that were queued, each of one block. -/
theorem step_emission {s : RtpFecSender} {held : List Source} (kept : Kept s) (holds : Holds s held) (c : Call) :
    ∃ (es : List Emission) (held' : List Source), (s.step o c).1 = es.flatMap Emission.repairs ∧
      (∀ e ∈ es, e.Good o ∧ some e.nowMs = c.time ∧ e.config = s.config) ∧
      (es.flatMap Emission.block ++ held').Sublist (held ++ sources s c) ∧ Holds (s.step o c).2 held' := by
  cases c with
  | addPacket p repairSsrc nowMs keyframe =>
    rcases addPacket_cases (o := o) s p repairSsrc nowMs keyframe with ⟨accepted, on, set, queued⟩ | ⟨refused, idle⟩
    · obtain ⟨s₁, s₂, result, last, passage⟩ := queued_passage kept queued
      have kept₁ : Kept s₁ := by
        rw [passage.start]
        exact ⟨kept.credit, kept.ratio, kept.sound, kept.few⟩
      have holds₁ : Holds s₁ held := by
        rw [passage.start]
        exact ⟨holds.packets, holds.first⟩
      have config₁ : (s₁.earn p.length nowMs).config = s.config := by
        rw [(earn_kept kept₁ p.length nowMs).2.2.1, passage.start]
      obtain ⟨held₁, less₁, holdsEarned⟩ := earn_holds kept₁ holds₁ p.length nowMs
      obtain ⟨es, held₂, output₁, good₁, blocks₁, holds₂⟩ :=
        tried_emission passage.broken passage.earned.sound passage.earned.few.le holdsEarned
      have config₂ : s₂.config = s.config :=
        (tried_budget passage.broken passage.earned.sound passage.earned.few.le).1.trans config₁
      obtain ⟨es', held', output₂, good₂, blocks₂, holds'⟩ :=
        tried_emission passage.completed passage.sound passage.few (queue_holds holds₂ p nowMs keyframe)
      rw [queue_config, config₂] at good₂
      rw [config₁] at good₁
      rw [config₂] at blocks₂
      refine ⟨es ++ es', held', ?_, ?_, ?_, holds'⟩
      · simp only [step]
        rw [passage.whole, output₁, output₂, List.flatMap_append]
      · intro e member
        rcases List.mem_append.mp member with inside | inside
        · obtain ⟨good, time, config⟩ := good₁ e inside
          exact ⟨good, congrArg some time, config⟩
        · obtain ⟨good, time, config⟩ := good₂ e inside
          exact ⟨good, congrArg some time, config⟩
      · simp only [sources]
        rw [if_pos ⟨accepted, on, set⟩, List.flatMap_append, List.append_assoc]
        -- The second flush takes from what the first left and the new source.
        have rest := (List.Sublist.refl (es.flatMap Emission.block)).append blocks₂
        have all := (blocks₁.trans less₁).append_right [⟨p, nowMs, s.config⟩]
        rw [List.append_assoc] at all
        exact rest.trans all
    · obtain ⟨held', less, holds'⟩ := idle_holds holds idle
      refine ⟨[], held', idle.output, fun _ member => absurd member List.not_mem_nil, ?_, holds'⟩
      simp only [sources]
      rw [if_neg refused, List.append_nil]
      exact less
  | flushExpired repairSsrc nowMs =>
    rcases flushExpired_cases (o := o) s repairSsrc nowMs with ⟨s₁, same, flushed⟩ | idle
    · have kept₁ : Kept s₁ := by
        rw [same]
        exact ⟨kept.credit, kept.ratio, kept.sound, kept.few⟩
      have holds₁ : Holds s₁ held := by
        rw [same]
        exact ⟨holds.packets, holds.first⟩
      obtain ⟨es, output', good, blocks⟩ :=
        flush_emission (o := o) kept₁.sound kept₁.few.le holds₁ repairSsrc nowMs
      have empty := flush_pending (o := o) s₁ repairSsrc nowMs
      simp only [step, sources]
      rw [flushed, List.append_nil]
      refine ⟨es, [], output', fun e member => ?_, by rw [List.append_nil]; exact blocks, holds_nil empty⟩
      obtain ⟨good', time, config⟩ := good e member
      exact ⟨good', congrArg some time, config.trans (by rw [same])⟩
    · obtain ⟨held', less, holds'⟩ := idle_holds holds idle
      refine ⟨[], held', idle.output, fun _ member => absurd member List.not_mem_nil, ?_, holds'⟩
      simp only [sources, List.append_nil]
      exact less
  | setProtection config nowMs =>
    obtain ⟨held', less, holds'⟩ := setProtection_holds holds config nowMs
    refine ⟨[], held', rfl, fun _ member => absurd member List.not_mem_nil, ?_, holds'⟩
    simp only [sources, List.append_nil]
    exact less
  | reset => exact ⟨[], [], rfl, fun _ member => absurd member List.not_mem_nil, List.nil_sublist _, holds_nil rfl⟩

/-! ### The runs -/

/-- What the calls emit, call by call. -/
inductive Sends (o : OpenFec σ) : RtpFecSender → List Call → List Emission → Prop
  | nil (s : RtpFecSender) : Sends o s [] []
  | cons {s : RtpFecSender} {c : Call} {calls : List Call} {es later : List Emission}
    (output : (s.step o c).1 = es.flatMap Emission.repairs)
    (good : ∀ e ∈ es, e.Good o ∧ some e.nowMs = c.time ∧ e.config = s.config)
    (rest : Sends o (s.step o c).2 calls later) : Sends o s (c :: calls) (es ++ later)

/-- The sources that the calls queue. -/
def allSources (o : OpenFec σ) (s : RtpFecSender) : List Call → List Source
  | [] => []
  | c :: calls => sources s c ++ allSources o (s.step o c).2 calls

theorem run_emission (calls : List Call) {s : RtpFecSender} {held : List Source} (kept : Kept s) (holds : Holds s held) :
    ∃ es, Sends o s calls es ∧ (es.flatMap Emission.block).Sublist (held ++ allSources o s calls) := by
  induction calls generalizing s held with
  | nil => exact ⟨[], .nil s, List.nil_sublist _⟩
  | cons c calls ih =>
    obtain ⟨es, held', output, good, blocks, holds'⟩ := step_emission (o := o) kept holds c
    obtain ⟨later, sends, rest⟩ := ih (step_kept kept c).1 holds'
    refine ⟨es ++ later, .cons output good sends, ?_⟩
    have whole := (List.Sublist.refl (es.flatMap Emission.block)).append rest
    rw [← List.append_assoc] at whole
    rw [List.flatMap_append, allSources, ← List.append_assoc]
    exact whole.trans (blocks.append_right _)

/-- The bounds of a sender over its runs. -/
structure Overhead (o : OpenFec σ) : Prop where
  /-- The credit is between zero and its cap. -/
  credit : ∀ calls, 0 ≤ (after o {} calls).creditBytes ∧ (after o {} calls).creditBytes ≤ 4800
  /-- Since the start or a reset the sources pay for the repairs. -/
  ratio : ∀ before calls, before = [] ∨ before.getLast? = some .reset →
    cost (emitted o (after o {} before) calls) ≤ earnings o (after o {} before) calls
  /-- From one time to another the rate pays for the repairs. -/
  rate : ∀ before calls rate start stop, 0 ≤ rate → start ≤ stop →
    Managed o rate stop start (after o {} before) calls →
    cost (emitted o (after o {} before) calls) ≤ FecRateBudget.allowance rate start stop
  /-- Each emission is good, and its block shares no source with that of another. -/
  blocks : ∀ calls, ∃ es, Sends o {} calls es ∧ (es.flatMap Emission.block).Sublist (allSources o {} calls)

theorem credit_fresh {before : List Call} (fresh : before = [] ∨ before.getLast? = some .reset) :
    (after o {} before).creditBytes = 0 := by
  rcases fresh with rfl | last
  · rfl
  · rw [← List.dropLast_append_getLast? _ last, after, List.foldl_append]
    rfl

theorem repairs_bounded (o : OpenFec σ) : Overhead o where
  credit calls := (run_kept calls kept_start).1.credit
  ratio before calls fresh := by
    have kept := (run_kept (o := o) before kept_start).1
    obtain ⟨kept', paid⟩ := run_kept (o := o) calls kept
    rw [credit_fresh fresh] at paid
    linarith [kept'.credit.1]
  rate before calls rate start stop positive order within := by
    have kept := (run_kept (o := o) before kept_start).1
    have rated := run_rated (o := o) before kept_start rated_start
    have paid := run_paid positive calls kept rated (FecRateBudget.start_paid positive rated.filled) order within
    rwa [zero_add] at paid
  blocks calls := run_emission calls kept_start (holds_nil rfl)

end RtpFecSender

end MiniRtc.Fec
