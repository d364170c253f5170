import MiniRtc.Fec.Receiver

/-! What a receiver of repairs keeps over any calls (rtp_fec.cpp): the bounds of its caches, what a call
adds to them and takes away, and what the blocks do and how they are counted. -/

namespace MiniRtc.Fec

open Wire AgedCache

/-! ### What the blocks tell -/

namespace BlockEvent

def serial : BlockEvent → Nat
  | ran serial => serial
  | returned serial _ => serial

def packet : BlockEvent → Option Bytes
  | ran _ => none
  | returned _ packet => some packet

/-- The block returns a packet of the sequence number. -/
def returns (serial : Nat) (seq : BitVec 16) : BlockEvent → Bool
  | ran _ => false
  | returned other packet => other = serial && get16 packet 2 = seq

end BlockEvent

/-- The blocks have their own numbers, and each of them has run and returned a packet once at most. -/
structure Logged (blocks : SortedMap BlockKey Block) (opened : Nat) (log : List BlockEvent) : Prop where
  below : ∀ e ∈ blocks.entries, e.2.serial < opened
  few : ∀ e ∈ blocks.entries, e.2.k ≤ kFecMaxSources
  distinct : (blocks.entries.map fun e => e.2.serial).Nodup
  named : ∀ event ∈ log, event.serial < opened
  fresh : ∀ e ∈ blocks.entries, e.2.done = false → ∀ event ∈ log, event.serial ≠ e.2.serial
  ranOnce : ∀ serial, log.count (.ran serial) ≤ 1
  returnedOnce : ∀ serial seq, log.countP (BlockEvent.returns serial seq) ≤ 1

/-- What stays of a block while it is held. -/
def Block.frame (b : Block) : Block := { b with done := false, repairs := [], present := [] }

namespace Block

variable {b b' : Block}

theorem serial_eq (same : b'.frame = b.frame) : b'.serial = b.serial := by
  have serial := congrArg Block.serial same
  exact serial

theorem k_eq (same : b'.frame = b.frame) : b'.k = b.k := by
  have k := congrArg Block.k same
  exact k

theorem arrival_eq (same : b'.frame = b.frame) : b'.arrival = b.arrival := by
  have arrival := congrArg Block.arrival same
  exact arrival

end Block

namespace Logged

variable {blocks blocks' : SortedMap BlockKey Block} {opened : Nat} {log : List BlockEvent}
  {key : BlockKey} {b b' : Block}

theorem sublist (logged : Logged blocks opened log) (less : blocks'.entries.Sublist blocks.entries) :
    Logged blocks' opened log where
  below e member := logged.below e (less.subset member)
  few e member := logged.few e (less.subset member)
  distinct := logged.distinct.sublist (less.map _)
  named := logged.named
  fresh e member := logged.fresh e (less.subset member)
  ranOnce := logged.ranOnce
  returnedOnce := logged.returnedOnce

theorem update (logged : Logged blocks opened log) (there : blocks.find key = some b) (same : b'.frame = b.frame)
    (kept : b'.done = false → b.done = false) : Logged (blocks.update key b') opened log := by
  have serial := Block.serial_eq same
  have member := SortedMap.find_eq_some.mp there
  constructor
  · intro e inside
    rcases (SortedMap.mem_update there).mp inside with rfl | old
    · exact serial ▸ logged.below _ member
    · exact logged.below e old.1
  · intro e inside
    rcases (SortedMap.mem_update there).mp inside with rfl | old
    · exact Block.k_eq same ▸ logged.few _ member
    · exact logged.few e old.1
  · rw [SortedMap.map_update _ there serial]
    exact logged.distinct
  · exact logged.named
  · intro e inside open_
    rcases (SortedMap.mem_update there).mp inside with rfl | old
    · exact serial ▸ logged.fresh _ member (kept open_)
    · exact logged.fresh e old.1 open_
  · exact logged.ranOnce
  · exact logged.returnedOnce

theorem emplace (logged : Logged blocks opened log) (free : blocks.find key = none) (number : b.serial = opened)
    (few : b.k ≤ kFecMaxSources) : Logged (blocks.emplace key b) (opened + 1) log := by
  have perm := SortedMap.emplace_perm (v := b) free
  constructor
  · intro e inside
    rcases mem_emplace inside with rfl | old
    · exact number ▸ Nat.lt_succ_self _
    · exact (logged.below e old).trans (Nat.lt_succ_self _)
  · intro e inside
    rcases mem_emplace inside with rfl | old
    · exact few
    · exact logged.few e old
  · rw [(perm.map _).nodup_iff, List.map_cons, List.nodup_cons]
    refine ⟨fun clash => ?_, logged.distinct⟩
    obtain ⟨e, old, same⟩ := List.mem_map.mp clash
    exact absurd (same.trans number) (logged.below e old).ne
  · exact fun event member => (logged.named event member).trans (Nat.lt_succ_self _)
  · intro e inside open_ event member
    rcases mem_emplace inside with rfl | old
    · exact number ▸ (logged.named event member).ne
    · exact logged.fresh e old open_ event member
  · exact logged.ranOnce
  · exact logged.returnedOnce

/-- A block that is done now tells something for the first time. -/
theorem tell (logged : Logged blocks opened log) (there : blocks.find key = some b) (open_ : b.done = false)
    (same : b'.frame = b.frame) (done : b'.done = true) {events : List BlockEvent}
    (own : ∀ event ∈ events, event.serial = b.serial) (ranOnce : ∀ serial, events.count (.ran serial) ≤ 1)
    (returnedOnce : ∀ serial seq, events.countP (BlockEvent.returns serial seq) ≤ 1) :
    Logged (blocks.update key b') opened (log ++ events) := by
  have member := SortedMap.find_eq_some.mp there
  have later := logged.update there same fun not => absurd (done.symm.trans not) Bool.true_eq_false.mp
  -- What the log says of the block is all in the events, and what it says of the others is not.
  have apart : ∀ p : BlockEvent → Bool, ∀ serial, (∀ event, p event = true → event.serial = serial) →
      log.countP p ≤ 1 → events.countP p ≤ 1 → (log ++ events).countP p ≤ 1 := by
    intro p serial about one one'
    rw [List.countP_append]
    by_cases its : serial = b.serial
    · have none : log.countP p = 0 := List.countP_eq_zero.mpr fun event inside holds =>
        logged.fresh _ member open_ event inside ((about event holds).trans its)
      omega
    · have none : events.countP p = 0 := List.countP_eq_zero.mpr fun event inside holds =>
        its ((about event holds).symm.trans (own event inside))
      omega
  refine ⟨later.below, later.few, later.distinct, ?_, ?_, fun serial => ?_, fun serial seq => ?_⟩
  · intro event inside
    rcases List.mem_append.mp inside with old | new
    · exact logged.named event old
    · exact own event new ▸ logged.below _ member
  · intro e inside not event told
    rcases List.mem_append.mp told with old | new
    · exact later.fresh e inside not event old
    · rcases (SortedMap.mem_update there).mp inside with rfl | other
      · exact absurd (done.symm.trans not) Bool.true_eq_false.mp
      · rw [own event new]
        intro clash
        have same' := List.inj_on_of_nodup_map logged.distinct member other.1 clash
        exact other.2 (congrArg Prod.fst same').symm
  · rw [List.count_eq_countP]
    refine apart (fun event => event == .ran serial) serial (fun event holds => ?_) ?_ ?_
    · rw [eq_of_beq holds]
      rfl
    · have once := logged.ranOnce serial
      rwa [List.count_eq_countP] at once
    · have once := ranOnce serial
      rwa [List.count_eq_countP] at once
  · refine apart _ serial (fun event holds => ?_) (logged.returnedOnce serial seq) (returnedOnce serial seq)
    cases event with
    | ran other => exact absurd holds Bool.false_ne_true
    | returned other packet =>
      simp only [BlockEvent.returns, Bool.and_eq_true, decide_eq_true_eq] at holds
      exact holds.1

end Logged

/-! ### What a block restores -/

theorem mapM_map {α β γ : Type} {f : α → Option β} {g : β → γ} {h : α → γ} (each : ∀ a b, f a = some b → g b = h a)
    {l : List α} {r : List β} (all : l.mapM f = some r) : r.map g = l.map h := by
  induction l generalizing r with
  | nil =>
    rw [List.mapM_nil] at all
    cases all
    rfl
  | cons a l ih =>
    simp only [List.mapM_cons, Option.bind_eq_bind, Option.bind_eq_some_iff] at all
    obtain ⟨b, first, rest, others, same⟩ := all
    cases same
    rw [List.map_cons, List.map_cons, each a b first, ih others]

namespace Block

variable (b : Block) {mediaSsrc : BitVec 32} {mediaPt : Byte} {symbols result : FecSymbols}
  {gathered : List (Option Bytes)}

theorem restored_seq {i : Nat} {p : Bytes} (found : b.restored mediaSsrc mediaPt symbols i = some p) :
    get16 p 2 = b.seqAt i := by
  unfold restored at found
  dsimp only at found
  split at found
  · cases found
  · rename_i plain
    cases found
    simp only [not_or, not_not] at plain
    exact plain.2.2.2.2.1

theorem seqAt_inj {i j : Nat} (small : i < 2 ^ 16) (small' : j < 2 ^ 16) (same : b.seqAt i = b.seqAt j) : i = j := by
  have equal := congrArg BitVec.toNat (add_left_cancel same)
  rwa [BitVec.toNat_ofNat, BitVec.toNat_ofNat, Nat.mod_eq_of_lt small, Nat.mod_eq_of_lt small'] at equal

/-- The packets that a block restores have different sequence numbers. -/
theorem restoreAll_nodup (few : b.k ≤ kFecMaxSources)
    (found : b.restoreAll mediaSsrc mediaPt symbols gathered = some result) :
    (result.map fun p => get16 p 2).Nodup := by
  rw [mapM_map (h := b.seqAt) (fun i p => b.restored_seq) found]
  refine List.Nodup.map_on ?_ (List.nodup_range.filter _)
  intro i inside j inside' same
  have low := List.mem_range.mp (List.mem_filter.mp inside).1
  have low' := List.mem_range.mp (List.mem_filter.mp inside').1
  unfold kFecMaxSources at few
  exact b.seqAt_inj (by omega) (by omega) same

theorem returned_once (few : b.k ≤ kFecMaxSources)
    (found : b.restoreAll mediaSsrc mediaPt symbols gathered = some result) (serial : Nat) (seq : BitVec 16) :
    (result.map (BlockEvent.returned b.serial)).countP (BlockEvent.returns serial seq) ≤ 1 := by
  have distinct := List.nodup_iff_count_le_one.mp (b.restoreAll_nodup few found) seq
  rw [List.count_eq_countP, List.countP_map] at distinct
  rw [List.countP_map]
  refine (List.countP_mono_left fun p _ holds => ?_).trans distinct
  simp only [Function.comp_apply, BlockEvent.returns, Bool.and_eq_true, decide_eq_true_eq] at holds
  exact beq_iff_eq.mpr holds.2

end Block

namespace RtpFecReceiver

variable {σ : Type} (o : OpenFec σ)

/-! ### The decoder -/

/-- What a decoding, or several, may change: how far blocks are, and what they tell. -/
structure Attempt (r : RtpFecReceiver σ) (out : FecSymbols) (r' : RtpFecReceiver σ) : Prop where
  expired : r'.stats.expiredBlocks = r.stats.expiredBlocks
  frames : (r'.blocks.entries.map fun e => (e.1, e.2.frame)) = r.blocks.entries.map fun e => (e.1, e.2.frame)
  told : ∃ events, r'.log = r.log ++ events ∧ events.filterMap BlockEvent.packet = out
  logged : Logged r.blocks r.opened r.log → Logged r'.blocks r'.opened r'.log

namespace Attempt

variable {r r' r'' : RtpFecReceiver σ} {out out' : FecSymbols}

/-- Nothing of it, whatever else changes. -/
theorem same (blocks : r'.blocks = r.blocks) (opened : r'.opened = r.opened) (log : r'.log = r.log)
    (expired : r'.stats.expiredBlocks = r.stats.expiredBlocks) : Attempt r [] r' where
  expired := expired
  frames := by rw [blocks]
  told := ⟨[], by rw [log, List.append_nil], rfl⟩
  logged logged := by
    rw [blocks, opened, log]
    exact logged

theorem refl (r : RtpFecReceiver σ) : Attempt r [] r := same rfl rfl rfl rfl

theorem trans (first : Attempt r out r') (second : Attempt r' out' r'') : Attempt r (out ++ out') r'' := by
  obtain ⟨events, log, packets⟩ := first.told
  obtain ⟨events', log', packets'⟩ := second.told
  refine ⟨second.expired.trans first.expired, second.frames.trans first.frames,
    ⟨events ++ events', ?_, ?_⟩, fun logged => second.logged (first.logged logged)⟩
  · rw [log', log, List.append_assoc]
  · rw [List.filterMap_append, packets, packets']

/-- A block that is found goes on, and tells nothing. -/
theorem setBlock {key : BlockKey} {b : Block} (b' : Block) (there : r.blocks.find key = some b)
    (same : b'.frame = b.frame) (kept : b'.done = false → b.done = false) : Attempt r [] (r.setBlock key b') where
  expired := rfl
  frames := SortedMap.map_update (v := b') (fun e => (e.1, e.2.frame)) there (Prod.ext rfl same)
  told := ⟨[], (List.append_nil _).symm, rfl⟩
  logged logged := logged.update there same kept

/-- A block that is found is done, and tells something. -/
theorem tell {key : BlockKey} {b : Block} (b' : Block) (there : r.blocks.find key = some b) (open_ : b.done = false)
    (same : b'.frame = b.frame) (done : b'.done = true) {result : FecSymbols}
    (once : Logged r.blocks r.opened r.log → ∀ serial seq,
      (result.map (BlockEvent.returned b.serial)).countP (BlockEvent.returns serial seq) ≤ 1)
    (opened : r'.opened = r.opened)
    (expired : r'.stats.expiredBlocks = r.stats.expiredBlocks) (blocks : r'.blocks = r.blocks.update key b')
    (log : r'.log = r.log ++ BlockEvent.ran b.serial :: result.map (BlockEvent.returned b.serial)) :
    Attempt r result r' where
  expired := expired
  frames := by
    rw [blocks]
    exact SortedMap.map_update (v := b') (fun e => (e.1, e.2.frame)) there (Prod.ext rfl same)
  told := by
    refine ⟨_, log, ?_⟩
    rw [List.filterMap_cons_none rfl, List.filterMap_map]
    exact List.filterMap_some
  logged logged := by
    rw [blocks, opened, log]
    refine logged.tell there open_ same done ?_ ?_ ?_
    · intro event member
      rcases List.mem_cons.mp member with rfl | member
      · rfl
      · obtain ⟨p, -, rfl⟩ := List.mem_map.mp member
        rfl
    · intro serial
      have none : (result.map (BlockEvent.returned b.serial)).count (.ran serial) = 0 := by
        refine List.count_eq_zero.mpr fun member => ?_
        obtain ⟨p, -, other⟩ := List.mem_map.mp member
        cases other
      rw [List.count_cons, none]
      split <;> omega
    · intro serial seq
      rw [List.countP_cons_of_neg (by exact Bool.false_ne_true)]
      exact once logged serial seq

end Attempt

theorem decode_attempt {r : RtpFecReceiver σ} {key : BlockKey} {b : Block} (there : r.blocks.find key = some b)
    (open_ : b.done = false) (gathered : List (Option Bytes)) :
    Attempt r (r.decode o key b gathered).1 (r.decode o key b gathered).2 := by
  have silent : Logged r.blocks r.opened r.log → ∀ serial seq,
      (([] : FecSymbols).map (BlockEvent.returned b.serial)).countP (BlockEvent.returns serial seq) ≤ 1 :=
    fun _ _ _ => Nat.zero_le 1
  unfold decode
  dsimp only
  split
  · exact .tell { b with done := true } there open_ rfl rfl silent rfl rfl rfl rfl
  · split
    · exact .tell { b with done := true, repairs := [] } there open_ rfl rfl silent rfl rfl rfl rfl
    · split
      · exact .tell { b with done := true, repairs := [] } there open_ rfl rfl silent rfl rfl rfl rfl
      · rename_i result found
        refine .tell { b with done := true, repairs := [] } there open_ rfl rfl (fun logged => ?_) rfl rfl rfl
          (List.append_assoc _ _ _)
        exact b.returned_once (logged.few _ (SortedMap.find_eq_some.mp there)) found

theorem tryDecode_attempt (r : RtpFecReceiver σ) (key : BlockKey) :
    Attempt r (r.tryDecode o key).1 (r.tryDecode o key).2 := by
  unfold tryDecode
  split
  · exact .refl r
  · rename_i b there
    split
    · exact .refl r
    · rename_i open_
      have open_ := Bool.eq_false_of_not_eq_true open_
      dsimp only
      split
      · have done := Attempt.setBlock { b with done := true } there rfl fun _ => open_
        exact done.trans (.same rfl rfl rfl rfl)
      · split
        · exact .setBlock { b with done := true, repairs := [] } there rfl fun _ => open_
        · split
          · exact .refl r
          · exact decode_attempt o there open_ _

theorem tryDecodeAll_attempt (keys : List BlockKey) (r : RtpFecReceiver σ) :
    Attempt r (r.tryDecodeAll o keys).1 (r.tryDecodeAll o keys).2 := by
  induction keys generalizing r with
  | nil => exact .refl r
  | cons key keys ih => exact (tryDecode_attempt o r key).trans (ih _)

theorem decode_sources (r : RtpFecReceiver σ) (key : BlockKey) (b : Block) (gathered : List (Option Bytes)) :
    (r.decode o key b gathered).2.sources = r.sources := by
  unfold decode
  dsimp only
  split
  · rfl
  · split
    · rfl
    · split
      · rfl
      · rfl

theorem tryDecode_sources (r : RtpFecReceiver σ) (key : BlockKey) : (r.tryDecode o key).2.sources = r.sources := by
  unfold tryDecode
  split
  · rfl
  · split
    · rfl
    · dsimp only
      split
      · rfl
      · split
        · rfl
        · split
          · rfl
          · exact decode_sources o r key _ _

theorem tryDecodeAll_sources (keys : List BlockKey) (r : RtpFecReceiver σ) :
    (r.tryDecodeAll o keys).2.sources = r.sources := by
  induction keys generalizing r with
  | nil => rfl
  | cons key keys ih => exact (ih _).trans (tryDecode_sources o r key)

/-! ### Blocks that go and come -/

/-- The block is held. -/
def holds (r : RtpFecReceiver σ) (serial : Nat) : Bool := r.blocks.entries.any fun e => e.2.serial = serial

/-- The blocks that a call keeps, those that it gives up, and those that it opens. -/
structure Turnover (r r' : RtpFecReceiver σ) (kept gone fresh : List (BlockKey × Block)) : Prop where
  before : r.blocks.entries.Perm (kept ++ gone)
  after : r'.blocks.entries.Perm (kept ++ fresh)
  numbered : ∀ e ∈ fresh, r.opened ≤ e.2.serial
  expired : r'.stats.expiredBlocks = r.stats.expiredBlocks + gone.countP fun e => !e.2.done

namespace Turnover

variable {r r' r'' : RtpFecReceiver σ} {kept gone fresh kept' gone' fresh' : List (BlockKey × Block)}

theorem expire (r : RtpFecReceiver σ) (nowMs : Int) :
    Turnover r (r.expire nowMs) (r.expire nowMs).blocks.entries
      (r.blocks.entries.filter fun e => !isRecent Block.arrival kFecWindowMs nowMs e.2) [] where
  before := (List.filter_append_perm _ _).symm
  after := by rw [List.append_nil]
  numbered e member := absurd member List.not_mem_nil
  expired := by
    rw [List.countP_filter]
    refine congrArg _ (List.countP_congr fun e _ => ?_)
    rw [Bool.and_comm]

theorem openBlock {key : BlockKey} (free : r.blocks.find key = none) (timestamp : BitVec 32) (h : RepairHeader)
    (nowMs : Int) :
    ∃ kept gone fresh, Turnover r (r.openBlock key timestamp h nowMs) kept gone fresh := by
  unfold RtpFecReceiver.openBlock evict
  dsimp only
  split
  · cases first : oldest Block.arrival r.blocks with
    | none =>
      refine ⟨r.blocks.entries, [], [_], (List.append_nil _).symm ▸ .refl _,
        (SortedMap.emplace_perm free).trans (List.perm_append_singleton _ _).symm, fun e member => ?_, rfl⟩
      rw [List.mem_singleton.mp member]
    | some e =>
      have there := SortedMap.find_eq_some.mpr (oldest_mem first)
      have free' : (r.blocks.erase e.1).find key = none := SortedMap.find_eq_none.mpr fun d member =>
        SortedMap.find_eq_none.mp free d (SortedMap.mem_erase.mp member).1
      refine ⟨(r.blocks.erase e.1).entries, [e], [_],
        (SortedMap.erase_perm there).trans (List.perm_append_singleton _ _).symm,
        (SortedMap.emplace_perm free').trans (List.perm_append_singleton _ _).symm, fun d member => ?_, ?_⟩
      · rw [List.mem_singleton.mp member]
      · rw [List.countP_singleton]
        cases done : e.2.done
        · simp [countExpired, done]
        · simp [countExpired, done]
  · refine ⟨r.blocks.entries, [], [_], (List.append_nil _).symm ▸ .refl _,
      (SortedMap.emplace_perm free).trans (List.perm_append_singleton _ _).symm, fun e member => ?_, rfl⟩
    rw [List.mem_singleton.mp member]

theorem trans (first : Turnover r r' kept gone []) (second : Turnover r' r'' kept' gone' fresh')
    (opened : r'.opened = r.opened) : Turnover r r'' kept' (gone' ++ gone) fresh' where
  before := by
    have middle := first.after.symm.trans second.before
    rw [List.append_nil] at middle
    rw [← List.append_assoc]
    exact first.before.trans (middle.append_right gone)
  after := second.after
  numbered e member := opened ▸ second.numbered e member
  expired := by
    rw [second.expired, first.expired, List.countP_append]
    omega

/-- Blocks of one number are the same block, before the call and after it. -/
theorem same_block (turnover : Turnover r r' kept gone fresh) (logged : Logged r.blocks r.opened r.log)
    {e e' : BlockKey × Block} (there : e ∈ r.blocks.entries) (there' : e' ∈ r'.blocks.entries)
    (same : e'.2.serial = e.2.serial) : e' = e := by
  rcases List.mem_append.mp (turnover.after.mem_iff.mp there') with old | new
  · have held := turnover.before.mem_iff.mpr (List.mem_append_left _ old)
    exact List.inj_on_of_nodup_map logged.distinct held there same
  · have number := turnover.numbered e' new
    have less := logged.below e there
    omega

/-- A block that was held is held still just if it was kept. -/
theorem countP_gone (turnover : Turnover r r' kept gone fresh) (logged : Logged r.blocks r.opened r.log)
    (p : BlockKey × Block → Bool) :
    (r.blocks.entries.countP fun e => p e && !r'.holds e.2.serial) = gone.countP p := by
  have distinct := (turnover.before.map fun e => e.2.serial).nodup_iff.mp logged.distinct
  rw [turnover.before.countP_eq, List.countP_append]
  have stay : (kept.countP fun e => p e && !r'.holds e.2.serial) = 0 := by
    refine List.countP_eq_zero.mpr fun e member holds => ?_
    have held : r'.holds e.2.serial = true :=
      List.any_eq_true.mpr ⟨e, turnover.after.mem_iff.mpr (List.mem_append_left _ member), decide_eq_true rfl⟩
    rw [held, Bool.not_true, Bool.and_false] at holds
    exact Bool.false_ne_true holds
  have leave : (gone.countP fun e => p e && !r'.holds e.2.serial) = gone.countP p := by
    refine List.countP_congr fun e member => ?_
    have lost : r'.holds e.2.serial = false := by
      refine List.any_eq_false.mpr fun d there same => ?_
      have there' := turnover.before.mem_iff.mpr (List.mem_append_right _ member)
      have equal := turnover.same_block logged there' there (of_decide_eq_true same)
      subst equal
      rcases List.mem_append.mp (turnover.after.mem_iff.mp there) with old | new
      · rw [List.map_append] at distinct
        exact (List.nodup_append.mp distinct).2.2 _ (List.mem_map_of_mem old) _ (List.mem_map_of_mem member) rfl
      · have number := turnover.numbered d new
        have less := logged.below d there'
        omega
    rw [lost, Bool.not_false, Bool.and_true]
  rw [stay, leave, Nat.zero_add]

end Turnover

/-! ### Sources that go and come -/

section Sources

variable {offered : Nat → Source → Prop} {nowMs : Int}

theorem cache_changes {sources : Sources} {p : Bytes}
    (given : sources.find (get16 p 2).toNat = none → offered (get16 p 2).toNat ⟨p, nowMs⟩) :
    Changes Source.arrival 512 offered sources (cache sources p nowMs) := by
  unfold cache
  dsimp only
  split
  · exact .refl _
  · rename_i free
    have free := Option.not_isSome_iff_eq_none.mp free
    exact .evict_emplace free (given free)

theorem cache_bounded {sources : Sources} (p : Bytes)
    (bounded : Bounded Source.arrival 512 kFecWindowMs nowMs sources) :
    Bounded Source.arrival 512 kFecWindowMs nowMs (cache sources p nowMs) := by
  unfold cache
  dsimp only
  split
  · exact bounded
  · exact bounded.evict_emplace (by decide) (by decide) _ rfl

theorem cacheAll_changes {packets : FecSymbols} (given : ∀ p ∈ packets, offered (get16 p 2).toNat ⟨p, nowMs⟩)
    (r : RtpFecReceiver σ) : Changes Source.arrival 512 offered r.sources (r.cacheAll packets nowMs).sources := by
  unfold cacheAll
  dsimp only
  generalize r.sources = sources
  induction packets generalizing sources with
  | nil => exact .refl _
  | cons p packets ih =>
    have first : Changes Source.arrival 512 offered sources (cache sources p nowMs) :=
      cache_changes fun _ => given p List.mem_cons_self
    exact first.trans (ih (fun q member => given q (List.mem_cons_of_mem _ member)) _)

theorem cacheAll_bounded (packets : FecSymbols) {r : RtpFecReceiver σ}
    (bounded : Bounded Source.arrival 512 kFecWindowMs nowMs r.sources) :
    Bounded Source.arrival 512 kFecWindowMs nowMs (r.cacheAll packets nowMs).sources := by
  unfold cacheAll
  dsimp only
  generalize r.sources = sources at bounded
  induction packets generalizing sources with
  | nil => exact bounded
  | cons p packets ih => exact ih _ (cache_bounded p bounded)

end Sources

/-! ### The account of a call -/

/-- The packet of the call, if it can become a source: a media packet of a sequence number that is not held. -/
def given (r : RtpFecReceiver σ) : Call → FecSymbols
  | .addPacket p nowMs =>
    if headerSize p ≠ 0 ∧ p.length ≤ kFecMaxWirePacket ∧ r.isMedia p = true ∧
        (AgedCache.expire Source.arrival kFecWindowMs nowMs r.sources).find (get16 p 2).toNat = none then [p]
    else []
  | .expire _ => []

/-- A call keeps the bounds. Sources go as they expire and as the oldest makes room, and come as they are given or
returned; what is held of a block stays, and it is counted where it goes before it is done. -/
structure Account (r : RtpFecReceiver σ) (call : Call) (out : FecSymbols) (r' : RtpFecReceiver σ) : Prop where
  sources : Bounded Source.arrival 512 kFecWindowMs call.nowMs r'.sources
  blocks : Bounded Block.arrival 64 kFecWindowMs call.nowMs r'.blocks
  changes : Changes Source.arrival 512
    (fun seq source => source.bytes ∈ r.given call ++ out ∧ source.arrival = call.nowMs ∧
      seq = (get16 source.bytes 2).toNat)
    (AgedCache.expire Source.arrival kFecWindowMs call.nowMs r.sources) r'.sources
  arrivals : ∀ e ∈ r.blocks.entries, ∀ e' ∈ r'.blocks.entries, e'.2.serial = e.2.serial →
    e'.1 = e.1 ∧ e'.2.arrival = e.2.arrival
  expired : r'.stats.expiredBlocks =
    r.stats.expiredBlocks + r.blocks.entries.countP fun e => !e.2.done && !r'.holds e.2.serial
  returned : ∃ events, r'.log = r.log ++ events ∧ events.filterMap BlockEvent.packet = out

/-- What holds between calls. -/
structure Kept (r : RtpFecReceiver σ) : Prop where
  logged : Logged r.blocks r.opened r.log
  sources : r.sources.entries.length ≤ 512
  blocks : r.blocks.entries.length ≤ 64

/-- The receiver has expired what is old, and perhaps opened a block. -/
structure Ready (r : RtpFecReceiver σ) (nowMs : Int) (r' : RtpFecReceiver σ) : Prop where
  turnover : ∃ kept gone fresh, Turnover r r' kept gone fresh
  logged : Logged r'.blocks r'.opened r'.log
  bounded : Bounded Block.arrival 64 kFecWindowMs nowMs r'.blocks
  log : r'.log = r.log

section Call

variable {r r' r'' : RtpFecReceiver σ} {nowMs : Int}

theorem Kept.ready (kept : Kept r) (nowMs : Int) : Ready r nowMs (r.expire nowMs) where
  turnover := ⟨_, _, _, .expire r nowMs⟩
  logged := kept.logged.sublist List.filter_sublist
  bounded := .expire kept.blocks
  log := rfl

theorem Kept.openBlock (kept : Kept r) {key : BlockKey} (free : (r.expire nowMs).blocks.find key = none)
    (timestamp : BitVec 32) {h : RepairHeader} (few : h.k ≤ kFecMaxSources) :
    Ready r nowMs ((r.expire nowMs).openBlock key timestamp h nowMs) := by
  have ready := kept.ready nowMs
  obtain ⟨kept', gone, fresh, opens⟩ := Turnover.openBlock free timestamp h nowMs
  refine ⟨⟨kept', _, fresh, (Turnover.expire r nowMs).trans opens rfl⟩, ?_, ?_, rfl⟩
  · have evicted : Logged (evict Block.arrival 64 (r.expire nowMs).blocks) r.opened r.log := by
      refine ready.logged.sublist ?_
      unfold evict
      split
      · cases oldest Block.arrival (r.expire nowMs).blocks with
        | none => exact .refl _
        | some e => exact List.filter_sublist
      · exact .refl _
    have free' : (evict Block.arrival 64 (r.expire nowMs).blocks).find key = none :=
      SortedMap.find_eq_none.mpr fun e member => SortedMap.find_eq_none.mp free e (mem_of_evict member)
    exact evicted.emplace free' rfl few
  · exact ready.bounded.evict_emplace (by decide) (by decide) key rfl

/-- The blocks of a call that has expired, opened and decoded. -/
theorem Ready.blocks (ready : Ready r nowMs r') (kept : Kept r) {out : FecSymbols} (attempt : Attempt r' out r'') :
    Logged r''.blocks r''.opened r''.log ∧ Bounded Block.arrival 64 kFecWindowMs nowMs r''.blocks ∧
      (∀ e ∈ r.blocks.entries, ∀ e' ∈ r''.blocks.entries, e'.2.serial = e.2.serial →
        e'.1 = e.1 ∧ e'.2.arrival = e.2.arrival) ∧
      r''.stats.expiredBlocks =
        r.stats.expiredBlocks + (r.blocks.entries.countP fun e => !e.2.done && !r''.holds e.2.serial) ∧
      ∃ events, r''.log = r.log ++ events ∧ events.filterMap BlockEvent.packet = out := by
  obtain ⟨held, gone, fresh, turnover⟩ := ready.turnover
  -- Each block has been there, as far as it stays, before the decoding.
  have stays : ∀ e ∈ r''.blocks.entries, ∃ d ∈ r'.blocks.entries, d.1 = e.1 ∧ d.2.frame = e.2.frame := by
    intro e member
    have framed : (e.1, e.2.frame) ∈ r''.blocks.entries.map fun e => (e.1, e.2.frame) := List.mem_map_of_mem member
    rw [attempt.frames] at framed
    obtain ⟨d, there, same⟩ := List.mem_map.mp framed
    exact ⟨d, there, (Prod.mk.inj same).1, (Prod.mk.inj same).2⟩
  have serials : r''.blocks.entries.map (fun e => e.2.serial) = r'.blocks.entries.map fun e => e.2.serial := by
    have same := congrArg (List.map fun e : BlockKey × Block => e.2.serial) attempt.frames
    rwa [List.map_map, List.map_map] at same
  refine ⟨attempt.logged ready.logged, ⟨?_, ?_⟩, ?_, ?_, ?_⟩
  · have size := congrArg List.length serials
    rw [List.length_map, List.length_map] at size
    exact size.trans_le ready.bounded.size
  · intro e member
    obtain ⟨d, there, -, same⟩ := stays e member
    rw [← Block.arrival_eq same]
    exact ready.bounded.recent d there
  · intro e there e' member same
    obtain ⟨d, there', key, frame⟩ := stays e' member
    have equal := turnover.same_block kept.logged there there' ((Block.serial_eq frame).trans same)
    subst equal
    exact ⟨key.symm, (Block.arrival_eq frame).symm⟩
  · have holds : ∀ serial, r''.holds serial = r'.holds serial := by
      intro serial
      have same := congrArg (List.any · fun s => decide (s = serial)) serials
      rw [List.any_map, List.any_map] at same
      exact same
    simp only [holds]
    rw [attempt.expired, turnover.expired, turnover.countP_gone kept.logged]
  · rw [← ready.log]
    exact attempt.told

/-- A call that adds no source. -/
theorem Kept.idle (kept : Kept r) (call : Call) (ready : Ready r call.nowMs r') (attempt : Attempt r' [] r'')
    (sources : r''.sources = (r.expire call.nowMs).sources) : Kept r'' ∧ Account r call [] r'' := by
  obtain ⟨logged, bounded, arrivals, expired, returned⟩ := ready.blocks kept attempt
  have held : Bounded Source.arrival 512 kFecWindowMs call.nowMs r''.sources := by
    rw [sources]
    exact .expire kept.sources
  refine ⟨⟨logged, held.size, bounded.size⟩, held, bounded, ?_, arrivals, expired, returned⟩
  rw [sources]
  exact .refl _

theorem Kept.addSource (kept : Kept r) {p : Bytes} (whole : headerSize p ≠ 0) (short : p.length ≤ kFecMaxWirePacket)
    (media : r.isMedia p = true) : Kept ((r.expire nowMs).addSource o p nowMs).2 ∧
      Account r (.addPacket p nowMs) ((r.expire nowMs).addSource o p nowMs).1
        ((r.expire nowMs).addSource o p nowMs).2 := by
  unfold RtpFecReceiver.addSource
  dsimp only
  generalize before : ({ r.expire nowMs with
    stats := { (r.expire nowMs).stats with sourcePackets := (r.expire nowMs).stats.sourcePackets + 1 }
    sources := cache (r.expire nowMs).sources p nowMs } : RtpFecReceiver σ) = r'
  have attempt : Attempt (r.expire nowMs) [] r' := by
    rw [← before]
    exact .same rfl rfl rfl rfl
  have sources : r'.sources = cache (r.expire nowMs).sources p nowMs := by rw [← before]
  generalize (r.expire nowMs).blocks.entries.map Prod.fst = all
  have decoded := tryDecodeAll_attempt o all r'
  have same := tryDecodeAll_sources o all r'
  generalize r'.tryDecodeAll o all = result at decoded same
  obtain ⟨out, r''⟩ := result
  have cached : Attempt r'' [] (r''.cacheAll out nowMs) := .same rfl rfl rfl rfl
  have blocks := (kept.ready nowMs).blocks kept ((attempt.trans decoded).trans cached)
  rw [List.nil_append, List.append_nil] at blocks
  obtain ⟨logged, bounded, arrivals, expired, returned⟩ := blocks
  have start : Bounded Source.arrival 512 kFecWindowMs nowMs r''.sources := by
    rw [same, sources]
    exact cache_bounded p (.expire kept.sources)
  have held := cacheAll_bounded out start
  refine ⟨⟨logged, held.size, bounded.size⟩, held, bounded, ?_, arrivals, expired, returned⟩
  have first : Changes Source.arrival 512 (fun seq source => source.bytes ∈ r.given (.addPacket p nowMs) ++ out ∧
      source.arrival = nowMs ∧ seq = (get16 source.bytes 2).toNat) (r.expire nowMs).sources r''.sources := by
    rw [same, sources]
    refine cache_changes fun free => ⟨List.mem_append_left _ ?_, rfl, rfl⟩
    rw [given, if_pos ⟨whole, short, media, free⟩]
    exact List.mem_singleton_self p
  exact first.trans (cacheAll_changes (fun q member => ⟨List.mem_append_right _ member, rfl, rfl⟩) r'')

theorem Kept.addRepair (kept : Kept r) (p : Bytes) : Kept ((r.expire nowMs).addRepair o p nowMs).2 ∧
    Account r (.addPacket p nowMs) ((r.expire nowMs).addRepair o p nowMs).1
      ((r.expire nowMs).addRepair o p nowMs).2 := by
  unfold RtpFecReceiver.addRepair
  split
  · exact kept.idle (.addPacket p nowMs) (kept.ready nowMs) (.same rfl rfl rfl rfl) rfl
  · rename_i h parsed
    dsimp only
    generalize opening : (if ((r.expire nowMs).blocks.find (toLex ((get32 p 4).toNat, h.base.toNat))).isNone = true then
      (r.expire nowMs).openBlock (toLex ((get32 p 4).toNat, h.base.toNat)) (get32 p 4) h nowMs else r.expire nowMs) = r'
    generalize toLex ((get32 p 4).toNat, h.base.toNat) = key at opening ⊢
    have few : h.k ≤ kFecMaxSources := by
      unfold repairHeader at parsed
      dsimp only at parsed
      split at parsed
      · cases parsed
      · rename_i plain
        cases parsed
        simp only [not_or, not_lt] at plain
        exact plain.2.2.2.2.2.2.1
    have ready : Ready r nowMs r' ∧ r'.sources = (r.expire nowMs).sources := by
      rw [← opening]
      split
      · rename_i free
        exact ⟨kept.openBlock (Option.isNone_iff_eq_none.mp free) _ few, rfl⟩
      · exact ⟨kept.ready nowMs, rfl⟩
    obtain ⟨ready, sources⟩ := ready
    split
    · exact kept.idle (.addPacket p nowMs) ready (.refl r') sources
    · rename_i b there
      split
      · exact kept.idle (.addPacket p nowMs) ready (.same rfl rfl rfl rfl) sources
      · split
        · exact kept.idle (.addPacket p nowMs) ready (.refl r') sources
        · rename_i more
          have open_ : b.done = false := by
            rw [Bool.or_eq_true, not_or] at more
            exact Bool.eq_false_of_not_eq_true more.1
          generalize added : ({ b with
            repairs := b.repairs.set (h.id - h.k) (p.drop (headerSize p + kFecHeaderSize))
            present := b.present.set (h.id - h.k) true } : Block) = b'
          have taken : Attempt r' [] (r'.setBlock key b') := by
            rw [← added]
            exact .setBlock _ there rfl fun _ => open_
          generalize counted : ({ r'.setBlock key b' with
            stats := { (r'.setBlock key b').stats with
              repairPackets := (r'.setBlock key b').stats.repairPackets + 1 } } : RtpFecReceiver σ) = r₁
          have attempt : Attempt r' [] r₁ := by
            rw [← counted]
            exact taken.trans (.same rfl rfl rfl rfl)
          have sources₁ : r₁.sources = (r.expire nowMs).sources := by
            rw [← counted]
            exact sources
          have decoded := tryDecode_attempt o r₁ key
          have same := tryDecode_sources o r₁ key
          generalize r₁.tryDecode o key = result at decoded same
          obtain ⟨out, r''⟩ := result
          have cached : Attempt r'' [] (r''.cacheAll out nowMs) := .same rfl rfl rfl rfl
          have blocks := ready.blocks kept ((attempt.trans decoded).trans cached)
          rw [List.nil_append, List.append_nil] at blocks
          obtain ⟨logged, bounded, arrivals, expired, returned⟩ := blocks
          have start : Bounded Source.arrival 512 kFecWindowMs nowMs r''.sources := by
            rw [same, sources₁]
            exact .expire kept.sources
          have held := cacheAll_bounded out start
          refine ⟨⟨logged, held.size, bounded.size⟩, held, bounded, ?_, arrivals, expired, returned⟩
          have first : r''.sources = (r.expire nowMs).sources := same.trans sources₁
          show Changes Source.arrival 512 _ (r.expire nowMs).sources _
          rw [← first]
          exact cacheAll_changes (fun q member => ⟨List.mem_append_right _ member, rfl, rfl⟩) r''

end Call

theorem Kept.step {r : RtpFecReceiver σ} (kept : Kept r) (call : Call) :
    Kept (r.step o call).2 ∧ Account r call (r.step o call).1 (r.step o call).2 := by
  cases call with
  | expire nowMs => exact kept.idle (.expire nowMs) (kept.ready nowMs) (.refl _) rfl
  | addPacket p nowMs =>
    rw [RtpFecReceiver.step, addPacket]
    split
    · exact kept.idle (.addPacket p nowMs) (kept.ready nowMs) (.same rfl rfl rfl rfl) rfl
    · rename_i whole
      rw [not_or, not_lt] at whole
      split
      · rename_i media
        exact kept.addSource o whole.1 whole.2 media
      · split
        · exact kept.addRepair o p
        · exact kept.idle (.addPacket p nowMs) (kept.ready nowMs) (.same rfl rfl rfl rfl) rfl

theorem Kept.after {r : RtpFecReceiver σ} (kept : Kept r) (calls : List Call) : Kept (r.after o calls) := by
  induction calls generalizing r with
  | nil => exact kept
  | cons call calls ih => exact ih (kept.step o call).1

theorem kept_new (mediaSsrc repairSsrc : BitVec 32) (mediaPt : Byte) :
    Kept (new mediaSsrc repairSsrc mediaPt : RtpFecReceiver σ) where
  logged :=
    { below := fun _ member => absurd member List.not_mem_nil
      few := fun _ member => absurd member List.not_mem_nil
      distinct := List.nodup_nil
      named := fun _ member => absurd member List.not_mem_nil
      fresh := fun _ member => absurd member List.not_mem_nil
      ranOnce := fun _ => Nat.zero_le 1
      returnedOnce := fun _ _ => Nat.zero_le 1 }
  sources := Nat.zero_le _
  blocks := Nat.zero_le _

/-- Over any calls the caches are bounded and change as the account says, and a block runs the decoder once and
returns a packet once. -/
theorem receiver_accounts (mediaSsrc repairSsrc : BitVec 32) (mediaPt : Byte) (calls : List Call) (call : Call) :
    Account ((new mediaSsrc repairSsrc mediaPt).after o calls) call
        (((new mediaSsrc repairSsrc mediaPt).after o calls).step o call).1
        (((new mediaSsrc repairSsrc mediaPt).after o calls).step o call).2 ∧
      (∀ serial, (((new mediaSsrc repairSsrc mediaPt).after o calls).step o call).2.log.count (.ran serial) ≤ 1) ∧
      ∀ serial seq, (((new mediaSsrc repairSsrc mediaPt).after o calls).step o call).2.log.countP
        (BlockEvent.returns serial seq) ≤ 1 := by
  have step := ((kept_new mediaSsrc repairSsrc mediaPt).after o calls).step o call
  exact ⟨step.2, step.1.logged.ranOnce, step.1.logged.returnedOnce⟩

/-! ### Two blocks that share a source -/

/-- The rows of two sources and of three, each with one repair. -/
def overlapFec : OpenFec Unit where
  rows k r :=
    if k = 2 ∧ r = 1 then some fun _ col => if col = 0 then 3#8 else 2#8
    else if k = 3 ∧ r = 1 then some fun _ col => if col = 0 then 15#8 else if col = 1 then 8#8 else 6#8
    else none
  encode _ _ := none
  create _ _ _ := none
  decode s symbols _ := (false, s, symbols)
  complete _ := false

def overlapSource (seq : BitVec 16) : Bytes :=
  [0x80#8, 96#8] ++ put16 seq ++ put32 1#32 ++ put32 7#32 ++ [BitVec.ofNat 8 seq.toNat]

/-- The repair of a block of sources. -/
def overlapRepair (pending : FecSymbols) : Bytes :=
  repairPacket 9#32 pending 15 1 0 (((encodeSymbols overlapFec (pending.map (padded 15)) 1).getD []).headD [])

def overlapCalls : List Call := [
  .addPacket (overlapSource 10#16) 0,
  .addPacket (overlapRepair [overlapSource 11#16, overlapSource 12#16]) 1,
  .addPacket (overlapRepair [overlapSource 10#16, overlapSource 11#16, overlapSource 12#16]) 2]

def overlapResult : FecSymbols × RtpFecReceiver Unit :=
  ((new 7#32 9#32 96#8).after overlapFec overlapCalls).step overlapFec (.addPacket (overlapSource 11#16) 3)

/-- One call returns one packet twice, from two blocks that are both held. -/
theorem overlap_returns_twice : overlapResult.1.count (overlapSource 12#16) = 2 ∧
    overlapResult.2.log = [.ran 1, .returned 1 (overlapSource 12#16), .ran 0, .returned 0 (overlapSource 12#16)] ∧
    overlapResult.2.blocks.entries.map (fun e => e.2.serial) = [1, 0] := by
  decide +kernel

end RtpFecReceiver

end MiniRtc.Fec
