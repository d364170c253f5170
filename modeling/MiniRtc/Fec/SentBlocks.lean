import MiniRtc.Fec.RepairCredit

/-! The blocks of a sender of repairs (rtp_fec.cpp): over every run, each repair that is emitted belongs
to a block of packets that follow each other, and no packet is in two blocks. -/
namespace MiniRtc.Fec

open Wire

/-- The packet that comes next in the frame. -/
def Follows (p q : Bytes) : Prop := get32 q 8 = get32 p 8 ∧ get32 q 4 = get32 p 4 ∧ get16 q 2 = get16 p 2 + 1#16

/-- The sources of a block, and the symbols of its repairs. -/
structure SentBlock where
  sources : FecSymbols
  symbols : FecSymbols

namespace SentBlock

def size (b : SentBlock) : Nat := RtpFecSender.symbolSize b.sources

/-- The packets of its repairs. -/
def packets (repairSsrc : BitVec 32) (b : SentBlock) : FecSymbols :=
  b.symbols.mapIdx (repairPacket repairSsrc b.sources b.size b.symbols.length)

structure Good {σ : Type} (o : OpenFec σ) (repairSsrc : BitVec 32) (b : SentBlock) : Prop where
  some : b.sources ≠ []
  few : b.sources.length ≤ kFecMaxSources
  accepted : ∀ p ∈ b.sources, RtpFecSender.accepts p repairSsrc = true
  chain : b.sources.IsChain Follows
  repairs : 1 ≤ b.symbols.length ∧ b.symbols.length ≤ kFecMaxRepairs
  fits : RtpFecSender.wireSize b.sources ≤ kFecMaxWirePacket
  encoded : encodeSymbols o (b.sources.map (padded b.size)) b.symbols.length = Option.some b.symbols

end SentBlock

namespace RtpFecSender

variable {σ : Type} {o : OpenFec σ} {repairSsrc : BitVec 32}

/-- Packets that wait for their repairs. -/
structure Waiting (repairSsrc : BitVec 32) (pending : FecSymbols) : Prop where
  accepted : ∀ p ∈ pending, accepts p repairSsrc = true
  chain : pending.IsChain Follows
  few : pending.length ≤ kFecMaxSources

theorem waiting_nil : Waiting repairSsrc [] :=
  ⟨fun _ member => absurd member List.not_mem_nil, .nil, Nat.zero_le _⟩

theorem Waiting.sound {pending : FecSymbols} (waiting : Waiting repairSsrc pending) : Sound pending :=
  fun p member => accepts_header (waiting.accepted p member)

/-- A packet that is accepted is added behind one that it follows. -/
theorem Waiting.concat {pending : FecSymbols} (waiting : Waiting repairSsrc pending)
    (room : pending.length < kFecMaxSources) {p : Bytes} (accepted : accepts p repairSsrc = true)
    (follows : pending = [] ∨ Follows (pending.getLastD []) p) : Waiting repairSsrc (pending ++ [p]) where
  accepted q member := by
    rcases List.mem_append.mp member with old | new
    · exact waiting.accepted q old
    · rwa [List.mem_singleton.mp new]
  chain := by
    refine waiting.chain.append (.singleton p) fun q last p' next => ?_
    obtain rfl : p = p' := Option.some.inj next
    rcases follows with nothing | follows
    · rw [nothing] at last
      cases last
    · rwa [List.getLastD_eq_getLast?, Option.mem_def.mp last] at follows
  few := by
    rw [List.length_append]
    exact room

/-- The repairs of some blocks. -/
structure Repairs (o : OpenFec σ) (repairSsrc : BitVec 32) (blocks : List SentBlock) (output : FecSymbols) : Prop where
  packets : output = blocks.flatMap (SentBlock.packets repairSsrc)
  good : ∀ b ∈ blocks, b.Good o repairSsrc

theorem repairs_nil : Repairs o repairSsrc [] [] := ⟨rfl, fun _ member => absurd member List.not_mem_nil⟩

theorem Repairs.append {blocks blocks' : List SentBlock} {output output' : FecSymbols}
    (first : Repairs o repairSsrc blocks output) (second : Repairs o repairSsrc blocks' output') :
    Repairs o repairSsrc (blocks ++ blocks') (output ++ output') where
  packets := by rw [first.packets, second.packets, List.flatMap_append]
  good b member := (List.mem_append.mp member).elim (first.good b) (second.good b)

/-- Output, and what waits after it, out of packets. -/
def Takes (o : OpenFec σ) (repairSsrc : BitVec 32) (packets output waiting : FecSymbols) : Prop :=
  ∃ blocks, Repairs o repairSsrc blocks output ∧ (blocks.flatMap SentBlock.sources ++ waiting).Sublist packets

theorem Takes.nothing {packets waiting : FecSymbols} (less : waiting.Sublist packets) :
    Takes o repairSsrc packets [] waiting := ⟨[], repairs_nil, less⟩

theorem Takes.trans {packets output waiting output' waiting' : FecSymbols} (more : FecSymbols)
    (first : Takes o repairSsrc packets output waiting)
    (second : Takes o repairSsrc (waiting ++ more) output' waiting') :
    Takes o repairSsrc (packets ++ more) (output ++ output') waiting' := by
  obtain ⟨blocks, repairs, sources⟩ := first
  obtain ⟨blocks', repairs', sources'⟩ := second
  refine ⟨blocks ++ blocks', repairs.append repairs', ?_⟩
  rw [List.flatMap_append, List.append_assoc]
  have rest := (List.Sublist.refl (blocks.flatMap SentBlock.sources)).append sources'
  have whole := sources.append_right more
  rw [List.append_assoc] at whole
  exact rest.trans whole

/-- A flush makes a block of the packets that wait, or drops them. -/
theorem flush_takes {s : RtpFecSender} (waiting : Waiting repairSsrc s.pending) (nowMs : Int) :
    Takes o repairSsrc s.pending (s.flush o repairSsrc nowMs).1 [] := by
  have spec := (flush_spec (o := o) waiting.sound waiting.few repairSsrc nowMs).2
  rcases spec with nothing | repaired
  · rw [nothing]
    exact .nothing (List.nil_sublist _)
  · have some' : s.pending ≠ [] := by
      intro nothing
      have empty : s.flush o repairSsrc nowMs = ([], s) := by rw [flush, if_pos nothing]
      have one := repaired.count.1
      rw [empty] at one
      exact absurd one (Nat.not_succ_le_zero 0)
    obtain ⟨symbols, encoded, same⟩ := repaired.made
    have count := repaired.count
    generalize (s.flush o repairSsrc nowMs).1 = output at count encoded same
    have length : output.length = symbols.length := by rw [same, List.length_mapIdx]
    have counts : s.repairCount ≤ kFecMaxRepairs := (min_le_left _ _).trans (min_le_left _ _)
    rw [length] at encoded same count
    refine ⟨[⟨s.pending, symbols⟩], ⟨?_, fun b member => ?_⟩, ?_⟩
    · rw [List.flatMap_singleton]
      exact same
    · rw [List.mem_singleton.mp member]
      exact ⟨some', waiting.few, waiting.accepted, waiting.chain, ⟨count.1, count.2.trans counts⟩, repaired.fits,
        encoded⟩
    · rw [List.flatMap_singleton, List.append_nil]

theorem earn_pending (s : RtpFecSender) (size : Nat) (nowMs : Int) :
    (s.earn size nowMs).pending = s.pending ∨ (s.earn size nowMs).pending = [] := by
  unfold earn
  dsimp only
  split <;> split <;> simp

/-- A packet that does not break the block follows its last one. -/
theorem follows_of_breaks {s : RtpFecSender} {p : Bytes} {nowMs : Int} (continues : ¬s.breaks p nowMs = true) :
    Follows (s.pending.getLastD []) p := by
  simp only [breaks, Bool.or_eq_true, decide_eq_true_eq, not_or, not_not] at continues
  obtain ⟨⟨⟨⟨ssrc, timestamp⟩, seq⟩, -⟩, -⟩ := continues
  exact ⟨ssrc.symm, timestamp.symm, seq.symm⟩

/-- The packet that a call hands to the sender and that it accepts. -/
def Call.accepted : Call → FecSymbols
  | .addPacket p repairSsrc _ _ => if accepts p repairSsrc then [p] else []
  | .flushExpired _ _ => []
  | .setProtection _ _ => []
  | .reset => []

/-- The stream of the repairs is this one. -/
def Call.Names (repairSsrc : BitVec 32) : Call → Prop
  | .addPacket _ other _ _ => other = repairSsrc
  | .flushExpired other _ => other = repairSsrc
  | .setProtection _ _ => True
  | .reset => True

theorem accepted_accepts {c : Call} (names : c.Names repairSsrc) {p : Bytes} (member : p ∈ c.accepted) :
    accepts p repairSsrc = true := by
  cases c with
  | addPacket q other nowMs keyframe =>
    obtain rfl : other = repairSsrc := names
    rw [Call.accepted] at member
    split at member
    · rename_i accepted
      rwa [List.mem_singleton.mp member]
    · cases member
  | flushExpired other nowMs => cases member
  | setProtection config nowMs => cases member
  | reset => cases member

/-- What waits between two calls. -/
def Between (repairSsrc : BitVec 32) (s : RtpFecSender) : Prop :=
  Waiting repairSsrc s.pending ∧ s.pending.length < kFecMaxSources

theorem between_nil {s : RtpFecSender} (nothing : s.pending = []) : Between repairSsrc s := by
  rw [Between, nothing]
  exact ⟨waiting_nil, by decide⟩

theorem addPacket_takes {s : RtpFecSender} (between : Between repairSsrc s) (p : Bytes) (nowMs : Int)
    (keyframe : Bool) : Takes o repairSsrc (s.pending ++ (Call.addPacket p repairSsrc nowMs keyframe).accepted)
        (s.addPacket o p repairSsrc nowMs keyframe).1 (s.addPacket o p repairSsrc nowMs keyframe).2.pending ∧
      Between repairSsrc (s.addPacket o p repairSsrc nowMs keyframe).2 := by
  unfold addPacket
  dsimp only
  split
  · exact ⟨.nothing (List.nil_sublist _), between_nil rfl⟩
  rename_i accepted
  rw [Bool.not_eq_false] at accepted
  rw [Call.accepted, if_pos accepted]
  split
  · exact ⟨.nothing (List.sublist_append_left _ _), between⟩
  generalize start : ({ s with
    repairDeadlineMs := -1
    stats := { s.stats with sourcePackets := s.stats.sourcePackets + 1 } } : RtpFecSender) = s₁
  have pending₁ : s₁.pending = s.pending := by rw [← start]
  -- The credits may drop what waits.
  have earned : (s₁.earn p.length nowMs).pending.Sublist s.pending ∧ Between repairSsrc (s₁.earn p.length nowMs) := by
    rcases earn_pending s₁ p.length nowMs with same | nothing
    · rw [Between, same, pending₁]
      exact ⟨.refl _, between⟩
    · rw [nothing]
      exact ⟨List.nil_sublist _, between_nil nothing⟩
  generalize s₁.earn p.length nowMs = s₂ at earned
  obtain ⟨less, between₂⟩ := earned
  -- A block that the packet does not continue is flushed first.
  have broken : ∀ result, (if s₂.pending ≠ [] ∧ s₂.breaks p nowMs = true then s₂.flush o repairSsrc nowMs
      else ([], s₂)) = result → Takes o repairSsrc s.pending result.1 result.2.pending ∧
        Between repairSsrc result.2 ∧ (result.2.pending = [] ∨ Follows (result.2.pending.getLastD []) p) := by
    rintro result rfl
    split
    · have empty := flush_pending (o := o) s₂ repairSsrc nowMs
      obtain ⟨blocks, repairs, sources⟩ := flush_takes (o := o) between₂.1 nowMs
      rw [empty]
      exact ⟨⟨blocks, repairs, sources.trans less⟩, between_nil empty, Or.inl rfl⟩
    · rename_i continues
      refine ⟨.nothing less, between₂, ?_⟩
      by_cases nothing : s₂.pending = []
      · exact Or.inl nothing
      · exact Or.inr (follows_of_breaks fun breaks => continues ⟨nothing, breaks⟩)
  generalize (if s₂.pending ≠ [] ∧ s₂.breaks p nowMs = true then s₂.flush o repairSsrc nowMs
    else ([], s₂)) = result at broken
  obtain ⟨taken, between₃, follows⟩ := broken result rfl
  have waiting := between₃.1.concat between₃.2 accepted follows
  have queued : (result.2.queue p nowMs keyframe).pending = result.2.pending ++ [p] := queue_pending _ _ _ _
  rw [← queued] at waiting
  split
  · have tail := flush_takes (o := o) waiting nowMs
    have empty := flush_pending (o := o) (result.2.queue p nowMs keyframe) repairSsrc nowMs
    rw [queued] at tail
    refine ⟨?_, between_nil empty⟩
    rw [empty]
    exact taken.trans [p] tail
  · rename_i more
    have room : (result.2.queue p nowMs keyframe).pending.length < kFecMaxSources :=
      lt_of_le_of_ne waiting.few fun full => more (Or.inl full)
    refine ⟨?_, waiting, room⟩
    have whole := taken.trans [p] (.nothing (o := o) (List.Sublist.refl (result.2.pending ++ [p])))
    rwa [List.append_nil, ← queued] at whole

theorem setProtection_pending (s : RtpFecSender) (config : FecProtectionConfig) (nowMs : Int) :
    (s.setProtection config nowMs).pending = s.pending ∨ (s.setProtection config nowMs).pending = [] := by
  unfold setProtection
  split
  · exact Or.inl rfl
  · dsimp only
    split <;> split <;> split <;> simp

theorem step_takes {s : RtpFecSender} (between : Between repairSsrc s) {c : Call} (names : c.Names repairSsrc) :
    Takes o repairSsrc (s.pending ++ c.accepted) (s.step o c).1 (s.step o c).2.pending ∧
      Between repairSsrc (s.step o c).2 := by
  cases c with
  | addPacket p other nowMs keyframe =>
    obtain rfl : other = repairSsrc := names
    exact addPacket_takes between p nowMs keyframe
  | flushExpired other nowMs =>
    obtain rfl : other = repairSsrc := names
    rw [Call.accepted, List.append_nil, step, flushExpired]
    dsimp only
    split
    · exact ⟨.nothing (.refl _), between⟩
    · generalize later : ({ s with repairDeadlineMs := -1 } : RtpFecSender) = s₁
      have pending₁ : s₁.pending = s.pending := by rw [← later]
      have waiting : Waiting other s₁.pending := pending₁ ▸ between.1
      have empty := flush_pending (o := o) s₁ other nowMs
      rw [empty, ← pending₁]
      exact ⟨flush_takes waiting nowMs, between_nil empty⟩
  | setProtection config nowMs =>
    rw [Call.accepted, List.append_nil, step]
    dsimp only
    rcases setProtection_pending s config nowMs with same | nothing
    · rw [Between, same]
      exact ⟨.nothing (.refl _), between⟩
    · rw [nothing]
      exact ⟨.nothing (List.nil_sublist _), between_nil nothing⟩
  | reset => exact ⟨.nothing (List.nil_sublist _), between_nil rfl⟩

/-- The repairs of a run are those of blocks, and the blocks share no packet that was accepted once. -/
theorem run_takes (calls : List Call) {s : RtpFecSender} (between : Between repairSsrc s)
    (names : ∀ c ∈ calls, c.Names repairSsrc) :
    Takes o repairSsrc (s.pending ++ calls.flatMap Call.accepted) (emitted o s calls) (s.after o calls).pending := by
  induction calls generalizing s with
  | nil =>
    rw [List.flatMap_nil, List.append_nil]
    exact .nothing (.refl _)
  | cons c calls ih =>
    obtain ⟨here, others⟩ := List.forall_mem_cons.mp names
    obtain ⟨first, between'⟩ := step_takes (o := o) between here
    rw [List.flatMap_cons, ← List.append_assoc]
    exact first.trans _ (ih between' others)

end RtpFecSender

end MiniRtc.Fec
