import MiniRtc.Fec.ReceiverAccounts
import MiniRtc.Fec.RepairReading
import MiniRtc.Lib.Reads

/-! Repairs end to end (rtp_fec.cpp). Packets of a sender and their repairs reach a receiver in any order,
some of them never, some of them more than once. What the receiver returns is what the sender took, and a
block gives up nothing once as many of its symbols are held as it has sources. -/
namespace MiniRtc.Fec

open Wire AgedCache

/-! ### One decoding -/

namespace FecDecoder

variable {σ : Type} {o : OpenFec σ} {k r size : Nat} {sources repairs : FecSymbols}

/-- A decoder with some symbols of a block. -/
def Has (k r size : Nat) (sources repairs : FecSymbols) (ids : Finset Nat) (d : FecDecoder σ) : Prop :=
  ∃ s, d = some s ∧ Holds k r size sources repairs ids s ∧ ids.card ≤ k

/-- A symbol of the block is taken, unless there are enough. -/
theorem Has.give (block : Encoded o k r size sources repairs) {ids : Finset Nat} {d : FecDecoder σ}
    (has : Has k r size sources repairs ids d) {i : Nat} (inside : i < k + r) :
    ∃ ids', Has k r size sources repairs ids' (d.addSymbol o i (some (codeword sources repairs i))).2 ∧
      ids ⊆ ids' ∧ (ids'.card = k ∨ i ∈ ids') := by
  obtain ⟨s, rfl, holds, most⟩ := has
  have valid : Valid k r size (i, some (codeword sources repairs i)) :=
    ⟨inside, congrArg some (block.length_codeword inside)⟩
  obtain ⟨s', added, holds', -⟩ := addSymbol_holds (c := (i, some (codeword sources repairs i))) block holds most
    fun _ _ _ => rfl
  rw [added]
  by_cases few : ids.card < k
  · rw [if_pos ⟨valid, few⟩] at holds'
    have card := Finset.card_insert_le i ids
    exact ⟨insert i ids, ⟨s', rfl, holds', by omega⟩, Finset.subset_insert _ _, Or.inr (Finset.mem_insert_self _ _)⟩
  · rw [if_neg fun both => few both.2] at holds'
    exact ⟨_, ⟨s', rfl, holds', most⟩, Finset.Subset.refl _, Or.inl (by omega)⟩

/-- Symbols are given one after the other. -/
theorem Has.foldl (there : Nat → Bool) (id : Nat → Nat) {f : FecDecoder σ → Nat → FecDecoder σ} {l : List Nat}
    {ids : Finset Nat} {d : FecDecoder σ} (has : Has k r size sources repairs ids d)
    (each : ∀ i ∈ l, ∀ ids d, Has k r size sources repairs ids d →
      ∃ ids', Has k r size sources repairs ids' (f d i) ∧ ids ⊆ ids' ∧ (there i = true → ids'.card = k ∨ id i ∈ ids')) :
    ∃ ids', Has k r size sources repairs ids' (l.foldl f d) ∧ ids ⊆ ids' ∧
      ∀ i ∈ l, there i = true → ids'.card = k ∨ id i ∈ ids' := by
  induction l generalizing ids d with
  | nil => exact ⟨ids, has, Finset.Subset.refl _, fun _ member => absurd member List.not_mem_nil⟩
  | cons i l ih =>
    obtain ⟨here, others⟩ := List.forall_mem_cons.mp each
    obtain ⟨ids₁, has₁, more₁, taken⟩ := here ids d has
    obtain ⟨ids₂, has₂, more₂, all⟩ := ih has₁ others
    refine ⟨ids₂, has₂, more₁.trans more₂, List.forall_mem_cons.mpr ⟨fun came => ?_, all⟩⟩
    obtain ⟨s, -, -, most⟩ := has₂
    rcases taken came with full | inside
    · have card := Finset.card_le_card more₂
      exact Or.inl (by omega)
    · exact Or.inr (more₂ inside)

/-- First the symbols of one kind, then those of another. -/
theorem Has.foldl_foldl (there there' : Nat → Bool) (id id' : Nat → Nat) {f f' : FecDecoder σ → Nat → FecDecoder σ}
    {l l' : List Nat} {ids : Finset Nat} {d : FecDecoder σ} (has : Has k r size sources repairs ids d)
    (each : ∀ i ∈ l, ∀ ids d, Has k r size sources repairs ids d →
      ∃ ids', Has k r size sources repairs ids' (f d i) ∧ ids ⊆ ids' ∧ (there i = true → ids'.card = k ∨ id i ∈ ids'))
    (each' : ∀ i ∈ l', ∀ ids d, Has k r size sources repairs ids d →
      ∃ ids', Has k r size sources repairs ids' (f' d i) ∧ ids ⊆ ids' ∧
        (there' i = true → ids'.card = k ∨ id' i ∈ ids')) :
    ∃ ids', Has k r size sources repairs ids' (l'.foldl f' (l.foldl f d)) ∧
      (∀ i ∈ l, there i = true → ids'.card = k ∨ id i ∈ ids') ∧
      ∀ i ∈ l', there' i = true → ids'.card = k ∨ id' i ∈ ids' := by
  obtain ⟨ids₁, has₁, -, all₁⟩ := has.foldl there id each
  obtain ⟨ids₂, has₂, more, all₂⟩ := has₁.foldl there' id' each'
  refine ⟨ids₂, has₂, fun i inside came => ?_, all₂⟩
  obtain ⟨s, -, -, most⟩ := has₂
  rcases all₁ i inside came with full | inside
  · have card := Finset.card_le_card more
    exact Or.inl (by omega)
  · exact Or.inr (more inside)

end FecDecoder

theorem zipIdx_map_range {α : Type} (g : Nat → α) (n : Nat) :
    ((List.range n).map g).zipIdx = (List.range n).map fun i => (g i, i) := by
  refine List.ext_getElem (by simp) fun i inside inside' => ?_
  simp

theorem count_true (l : List Bool) : l.count true = (List.range l.length).countP fun i => l.getD i false := by
  have whole : l = (List.range l.length).map fun i => l.getD i false := by
    refine List.ext_getElem (by simp) fun i inside inside' => ?_
    simp [inside]
  conv_lhs => rw [whole]
  rw [List.count, List.countP_map]
  refine List.countP_congr fun i _ => ?_
  simp

/-- Indexes of two kinds are together no more than a set that holds them. -/
theorem countP_add_le {k r : Nat} {p q : Nat → Bool} {ids : Finset Nat} (first : ∀ i < k, p i = true → i ∈ ids)
    (second : ∀ i < r, q i = true → k + i ∈ ids) :
    (List.range k).countP p + (List.range r).countP q ≤ ids.card := by
  have distinct : ((List.range k).filter p ++ ((List.range r).filter q).map (k + ·)).Nodup := by
    refine (List.nodup_range.filter _).append ((List.nodup_range.filter _).map fun _ _ => Nat.add_left_cancel) ?_
    intro i member member'
    have low := List.mem_range.mp (List.mem_filter.mp member).1
    obtain ⟨j, -, rfl⟩ := List.mem_map.mp member'
    omega
  have inside : ((List.range k).filter p ++ ((List.range r).filter q).map (k + ·)).toFinset ⊆ ids := by
    intro i member
    rcases List.mem_append.mp (List.mem_toFinset.mp member) with source | repair
    · obtain ⟨low, holds⟩ := List.mem_filter.mp source
      exact first i (List.mem_range.mp low) holds
    · obtain ⟨j, member', rfl⟩ := List.mem_map.mp repair
      obtain ⟨low, holds⟩ := List.mem_filter.mp member'
      exact second j (List.mem_range.mp low) holds
  have card := Finset.card_le_card inside
  rwa [List.toFinset_card_of_nodup distinct, List.length_append, List.length_map, ← List.countP_eq_length_filter,
    ← List.countP_eq_length_filter] at card

namespace Block

variable {σ : Type} {o : OpenFec σ}

/-- A decoder that is fed enough symbols of a block has its sources. -/
theorem feed_restores {size : Nat} {sources repairs : FecSymbols} (b : Block)
    (block : Encoded o b.k b.r size sources repairs) (g : Nat → Option Bytes) (same : b.size = size)
    (genuine : ∀ i < b.k, ∀ bytes, g i = some bytes → padded b.size bytes = symbolAt sources i)
    (came : ∀ i < b.r, b.present.getD i false = true → symbolAt b.repairs i = symbolAt repairs i)
    (enough : b.k ≤ (List.range b.k).countP (fun i => (g i).isSome) +
      (List.range b.r).countP fun i => b.present.getD i false)
    {d : FecDecoder σ} (start : FecDecoder.Has b.k b.r size sources repairs ∅ d) :
    (b.feed o ((List.range b.k).map g) d).complete = true ∧
      ∀ i < b.k, symbolAt (b.feed o ((List.range b.k).map g) d).symbols i = symbolAt sources i := by
  subst same
  have fed : ∃ ids, FecDecoder.Has b.k b.r b.size sources repairs ids (b.feed o ((List.range b.k).map g) d) ∧
      (∀ i ∈ List.range b.k, (g i).isSome = true → ids.card = b.k ∨ i ∈ ids) ∧
      ∀ i ∈ List.range b.r, b.present.getD i false = true → ids.card = b.k ∨ b.k + i ∈ ids := by
    unfold feed
    dsimp only
    rw [zipIdx_map_range, List.foldl_map]
    refine start.foldl_foldl (fun i => (g i).isSome) (fun i => b.present.getD i false) (fun i => i) (fun i => b.k + i)
      (fun i member ids d has => ?_) fun i member ids d has => ?_
    · have inside := List.mem_range.mp member
      cases there : g i with
      | none => exact ⟨ids, has, Finset.Subset.refl _, fun absent => absurd absent Bool.false_ne_true⟩
      | some bytes =>
        obtain ⟨ids', has', more, taken⟩ := has.give block (i := i) (by omega)
        rw [block.codeword_source inside, ← genuine i inside bytes there] at has'
        exact ⟨ids', has', more, fun _ => taken⟩
    · have inside := List.mem_range.mp member
      split
      · rename_i complete
        refine ⟨ids, has, Finset.Subset.refl _, fun _ => Or.inl ?_⟩
        obtain ⟨s, rfl, holds, -⟩ := has
        exact of_decide_eq_true (holds.complete.symm.trans complete)
      · split
        · rename_i there
          obtain ⟨ids', has', more, taken⟩ := has.give block (i := b.k + i) (by omega)
          rw [block.codeword_symbol, ← came i inside there] at has'
          exact ⟨ids', has', more, fun _ => taken⟩
        · rename_i absent
          exact ⟨ids, has, Finset.Subset.refl _, fun there => absurd there absent⟩
  obtain ⟨ids, ⟨s, state, holds, most⟩, all, all'⟩ := fed
  have full : ids.card = b.k := by
    by_contra few
    have count := countP_add_le (fun i inside there => (all i (List.mem_range.mpr inside) there).resolve_left few)
      fun i inside there => (all' i (List.mem_range.mpr inside) there).resolve_left few
    omega
  rw [state]
  exact ⟨holds.complete.trans (decide_eq_true full), holds.restored full⟩

end Block

theorem padded_reads (size : Nat) {p : Bytes} (short : p.length < 2 ^ 16) :
    (get16 (padded size p) 0).toNat = p.length ∧ slice (padded size p) 2 p.length = p := by
  constructor
  · have word : get16 (padded size p) 0 = BitVec.ofNat 16 p.length := by
      rw [padded, List.append_assoc]
      exact get16_put16 [] _ _ 0 rfl
    rw [word, BitVec.toNat_ofNat, Nat.mod_eq_of_lt short]
  · rw [slice, padded, List.append_assoc]
    exact List.take_left

theorem symbolAt_mem {symbols : FecSymbols} {i : Nat} (inside : i < symbols.length) : symbolAt symbols i ∈ symbols := by
  rw [symbolAt_eq inside]
  exact List.getElem_mem inside

theorem symbolAt_map {f : Bytes → Bytes} {symbols : FecSymbols} {i : Nat} (inside : i < symbols.length) :
    symbolAt (symbols.map f) i = f (symbolAt symbols i) := by
  rw [symbolAt_eq inside, symbolAt_eq (by rwa [List.length_map]), List.getElem_map]

/-! ### Blocks of the receiver -/

/-- What both ends go by: the packets that were accepted, each under its own timestamp and sequence number, and
the blocks of them. -/
structure Session {σ : Type} (o : OpenFec σ) (media repairSsrc : BitVec 32) (mediaPt : Byte) (packets : FecSymbols)
    (blocks : List SentBlock) : Prop where
  nonsingular : ∀ k r rows, o.rows k r = some rows → Nonsingular k r rows
  good : ∀ b ∈ blocks, b.Good o repairSsrc
  part : ∀ b ∈ blocks, ∀ p ∈ b.sources, p ∈ packets
  apart : ∀ b ∈ blocks, ∀ c ∈ blocks, ∀ p ∈ b.sources, p ∈ c.sources → b = c
  accepted : ∀ p ∈ packets, RtpFecSender.accepts p repairSsrc = true
  stream : ∀ p ∈ packets, get32 p 8 = media ∧ byteAt p 1 &&& 127#8 = mediaPt
  single : ∀ p ∈ packets, ∀ q ∈ packets, get32 p 4 = get32 q 4 → get16 p 2 = get16 q 2 → p = q

/-- A block of the receiver holds symbols of a block of the sender. -/
structure Tracks (b : SentBlock) (key : BlockKey) (h : Block) : Prop where
  key : key = toLex ((get32 b.first 4).toNat, (get16 b.first 2).toNat)
  timestamp : h.timestamp = get32 b.first 4
  base : h.base = get16 b.first 2
  k : h.k = b.sources.length
  r : h.r = b.symbols.length
  size : h.size = b.size
  present : h.present.length = b.symbols.length
  repairs : h.done = false → h.repairs.length = b.symbols.length ∧
    ∀ i < b.symbols.length, h.present.getD i false = true → symbolAt h.repairs i = symbolAt b.symbols i

namespace Block

/-- The source of a block at an index, when it is held. -/
def slot (h : Block) (sources : Sources) (i : Nat) : Option Bytes :=
  ((sources.find (h.seqAt i).toNat).map (·.bytes)).filter fun bytes => get32 bytes 4 = h.timestamp

/-- How many symbols of a block are held. -/
def held (h : Block) (sources : Sources) : Nat :=
  (List.range h.k).countP (fun i => (h.slot sources i).isSome) + h.present.count true

theorem gather_eq (h : Block) (sources : Sources) : h.gather sources = (List.range h.k).map (h.slot sources) := rfl

theorem gather_getD {h : Block} {sources : Sources} {i : Nat} (inside : i < h.k) :
    (h.gather sources).getD i none = h.slot sources i := by
  have inside' : i < (h.gather sources).length := by rwa [gather, List.length_map, List.length_range]
  rw [List.getD_eq_getElem _ _ inside']
  simp only [gather, List.getElem_map, List.getElem_range]
  rfl

theorem slot_eq_some {h : Block} {sources : Sources} {i : Nat} {bytes : Bytes} : h.slot sources i = some bytes ↔
    ∃ source, sources.find (h.seqAt i).toNat = some source ∧ source.bytes = bytes ∧ get32 bytes 4 = h.timestamp := by
  rw [slot, Option.filter_eq_some_iff, Option.map_eq_some_iff]
  simp only [decide_eq_true_eq]
  exact ⟨fun ⟨⟨source, there, same⟩, time⟩ => ⟨source, there, same, time⟩,
    fun ⟨source, there, same, time⟩ => ⟨⟨source, there, same⟩, time⟩⟩

/-- Fewer sources hold no more of a block. -/
theorem held_mono {h : Block} {sources sources' : Sources}
    (less : ∀ i < h.k, (h.slot sources' i).isSome = true → (h.slot sources i).isSome = true) :
    h.held sources' ≤ h.held sources := by
  refine Nat.add_le_add_right (List.countP_mono_left fun i member => ?_) _
  exact less i (List.mem_range.mp member)

end Block

/-- Every source that is held was accepted, and is among the packets that were seen. -/
def Cached (packets seen : FecSymbols) (sources : Sources) : Prop :=
  ∀ e ∈ sources.entries, e.1 = (get16 e.2.bytes 2).toNat ∧ e.2.bytes ∈ packets ∧ e.2.bytes ∈ seen

namespace Session

variable {σ : Type} {o : OpenFec σ} {media repairSsrc : BitVec 32} {mediaPt : Byte} {packets : FecSymbols}
  {blocks : List SentBlock} (session : Session o media repairSsrc mediaPt packets blocks)
include session

/-- A packet with the timestamp of a block and the sequence number of its index is the source. -/
theorem source_unique {b : SentBlock} (member : b ∈ blocks) {i : Nat} (inside : i < b.sources.length) {p : Bytes}
    (accepted : p ∈ packets) (timestamp : get32 p 4 = get32 b.first 4)
    (seq : get16 p 2 = get16 b.first 2 + BitVec.ofNat 16 i) : p = symbolAt b.sources i := by
  have fields := (session.good b member).source_fields inside
  have there := session.part b member _ (symbolAt_mem inside)
  rw [symbolAt_eq inside] at there ⊢
  exact session.single p accepted _ there (timestamp.trans fields.2.1.symm) (seq.trans fields.2.2.symm)

/-- Blocks of one key are the same block. -/
theorem tracks_unique {b c : SentBlock} (member : b ∈ blocks) (member' : c ∈ blocks) {key : BlockKey} {h h' : Block}
    (tracks : Tracks b key h) (tracks' : Tracks c key h') : b = c := by
  have same := tracks.key.symm.trans tracks'.key
  have pair := toLex.injective same
  rw [Prod.mk.injEq] at pair
  have first := (session.good b member).first_mem
  have first' := (session.good c member').first_mem
  have one := session.single _ (session.part b member _ first) _ (session.part c member' _ first')
    (BitVec.eq_of_toNat_eq pair.1) (BitVec.eq_of_toNat_eq pair.2)
  exact session.apart b member c member' _ first (one ▸ first')

/-- What is held of a block is its sources. -/
theorem slot_genuine {b : SentBlock} (member : b ∈ blocks) {key : BlockKey} {h : Block} (tracks : Tracks b key h)
    {seen : FecSymbols} {sources : Sources} (cached : Cached packets seen sources) {i : Nat} (inside : i < h.k)
    {bytes : Bytes} (there : h.slot sources i = some bytes) : bytes = symbolAt b.sources i ∧ bytes ∈ seen := by
  obtain ⟨source, found, rfl, timestamp⟩ := Block.slot_eq_some.mp there
  obtain ⟨seq, accepted, came⟩ := cached _ (SortedMap.find_eq_some.mp found)
  refine ⟨session.source_unique member (tracks.k ▸ inside) accepted (timestamp.trans tracks.timestamp) ?_, came⟩
  rw [← tracks.base]
  exact (BitVec.eq_of_toNat_eq seq).symm

/-- A decoded symbol is taken for the source that it is. -/
theorem restored_source {b : SentBlock} (member : b ∈ blocks) {key : BlockKey} {h : Block} (tracks : Tracks b key h)
    {symbols : FecSymbols} {i : Nat} (inside : i < h.k)
    (same : symbolAt symbols i = padded b.size (symbolAt b.sources i)) :
    h.restored media mediaPt symbols i = some (symbolAt b.sources i) := by
  have good := session.good b member
  have inside' : i < b.sources.length := tracks.k ▸ inside
  have source := symbolAt_mem inside'
  have spec := good.accepted_spec source
  have fits := le_symbolSize source
  have fields := good.source_fields inside'
  have stream := session.stream _ (session.part b member _ source)
  have small := spec.2.1
  rw [← symbolAt_eq inside'] at fields
  simp only [kFecMaxMediaPacket] at small
  obtain ⟨length, packet⟩ := padded_reads b.size (show (symbolAt b.sources i).length < 2 ^ 16 by omega)
  have size : b.size = RtpFecSender.symbolSize b.sources := rfl
  unfold Block.restored
  dsimp only
  rw [same, length, packet, if_neg]
  simp only [not_or, not_lt, ne_eq, not_not]
  refine ⟨by rw [tracks.size]; omega, spec.1, stream.1, fields.2.1.trans tracks.timestamp.symm, ?_, stream.2⟩
  rw [fields.2.2, Block.seqAt, tracks.base]

end Session

/-! ### Decoding the blocks -/

/-- A decoder that is complete, and symbols that are packets. -/
theorem RtpFecReceiver.decode_result {σ : Type} {o : OpenFec σ} {r : RtpFecReceiver σ} (key : BlockKey) {h : Block}
    {gathered : List (Option Bytes)} {d : FecDecoder σ} {result : FecSymbols}
    (ready : r.decoder.reset o h.k h.r h.size = (true, d)) (complete : (h.feed o gathered d).complete = true)
    (found : h.restoreAll r.mediaSsrc r.mediaPt (h.feed o gathered d).symbols gathered = some result) :
    ∃ r', r.decode o key h gathered = (result, r') ∧ r'.sources = r.sources ∧
      (r'.mediaSsrc = r.mediaSsrc ∧ r'.repairSsrc = r.repairSsrc ∧ r'.mediaPt = r.mediaPt) ∧
      r'.blocks = r.blocks.update key { h with done := true, repairs := [] } := by
  unfold RtpFecReceiver.decode
  simp only [ready, complete, setBlock, found, Bool.true_eq_false, if_false]
  exact ⟨_, rfl, rfl, ⟨rfl, rfl, rfl⟩, rfl⟩

/-- The receiver holds genuine symbols only, and a block that is done gave up no source. -/
structure Faithful {σ : Type} (media repairSsrc : BitVec 32) (mediaPt : Byte) (packets : FecSymbols)
    (blocks : List SentBlock) (seen : FecSymbols) (r : RtpFecReceiver σ) : Prop where
  ids : r.mediaSsrc = media ∧ r.repairSsrc = repairSsrc ∧ r.mediaPt = mediaPt
  cached : Cached packets seen r.sources
  tracks : ∀ e ∈ r.blocks.entries, ∃ b ∈ blocks, Tracks b e.1 e.2 ∧ (e.2.done = true → ∀ p ∈ b.sources, p ∈ seen)

/-- Blocks of these keys were tried. -/
structure Decoded {σ : Type} (media repairSsrc : BitVec 32) (mediaPt : Byte) (packets : FecSymbols)
    (blocks : List SentBlock) (seen : FecSymbols) (keys : List BlockKey) (r : RtpFecReceiver σ) (out : FecSymbols)
    (r' : RtpFecReceiver σ) : Prop where
  faithful : Faithful media repairSsrc mediaPt packets blocks (seen ++ out) r'
  sources : r'.sources = r.sources
  kept : ∀ e ∈ r.blocks.entries, e.2.done = true → e ∈ r'.blocks.entries
  stays : ∀ e ∈ r.blocks.entries, ∃ e' ∈ r'.blocks.entries, e'.1 = e.1 ∧ (e'.2.done = true ∨ e' = e)
  old : ∀ e ∈ r'.blocks.entries, e.2.done = false → e ∈ r.blocks.entries
  short : ∀ e ∈ r'.blocks.entries, e.1 ∈ keys → e.2.done = false → e.2.held r.sources < e.2.k
  whence : ∀ p ∈ out, ∃ e ∈ r'.blocks.entries, e.2.done = true ∧ ∃ b ∈ blocks, Tracks b e.1 e.2 ∧ p ∈ b.sources

section Decoding

variable {σ : Type} {o : OpenFec σ} {media repairSsrc : BitVec 32} {mediaPt : Byte} {packets seen : FecSymbols}
  {blocks : List SentBlock}

theorem Cached.mono {seen' : FecSymbols} {sources : Sources} (cached : Cached packets seen sources)
    (more : ∀ p ∈ seen, p ∈ seen') : Cached packets seen' sources :=
  fun e member => ⟨(cached e member).1, (cached e member).2.1, more _ (cached e member).2.2⟩

theorem Faithful.mono {seen' : FecSymbols} {r : RtpFecReceiver σ}
    (faithful : Faithful media repairSsrc mediaPt packets blocks seen r) (more : ∀ p ∈ seen, p ∈ seen') :
    Faithful media repairSsrc mediaPt packets blocks seen' r where
  ids := faithful.ids
  cached := faithful.cached.mono more
  tracks e member := by
    obtain ⟨b, inside, tracks, done⟩ := faithful.tracks e member
    exact ⟨b, inside, tracks, fun finished p source => more p (done finished p source)⟩

theorem Decoded.trans {r r' r'' : RtpFecReceiver σ} {keys keys' : List BlockKey} {out out' : FecSymbols}
    (first : Decoded media repairSsrc mediaPt packets blocks seen keys r out r')
    (second : Decoded media repairSsrc mediaPt packets blocks (seen ++ out) keys' r' out' r'') :
    Decoded media repairSsrc mediaPt packets blocks seen (keys ++ keys') r (out ++ out') r'' where
  faithful := by
    rw [← List.append_assoc]
    exact second.faithful
  sources := second.sources.trans first.sources
  kept e member done := second.kept e (first.kept e member done) done
  stays e member := by
    obtain ⟨e', member', same, done | rfl⟩ := first.stays e member
    · exact ⟨e', second.kept e' member' done, same, Or.inl done⟩
    · exact second.stays e' member'
  old e member waiting := first.old e (second.old e member waiting) waiting
  short e member key waiting := by
    rcases List.mem_append.mp key with here | there
    · exact first.short e (second.old e member waiting) here waiting
    · exact first.sources ▸ second.short e member there waiting
  whence p member := by
    rcases List.mem_append.mp member with old | new
    · obtain ⟨e, inside, done, rest⟩ := first.whence p old
      exact ⟨e, second.kept e inside done, done, rest⟩
    · exact second.whence p new

/-- Nothing changes. -/
theorem Decoded.refl {r : RtpFecReceiver σ} (faithful : Faithful media repairSsrc mediaPt packets blocks seen r)
    {keys : List BlockKey}
    (short : ∀ e ∈ r.blocks.entries, e.1 ∈ keys → e.2.done = false → e.2.held r.sources < e.2.k) :
    Decoded media repairSsrc mediaPt packets blocks seen keys r [] r where
  faithful := by rwa [List.append_nil]
  sources := rfl
  kept _ member _ := member
  stays e member := ⟨e, member, rfl, Or.inr rfl⟩
  old _ member _ := member
  short := short
  whence _ member := absurd member List.not_mem_nil

/-- A block becomes done, and with what it returns all its sources were seen. -/
theorem Decoded.finish {r r' : RtpFecReceiver σ}
    (faithful : Faithful media repairSsrc mediaPt packets blocks seen r)
    {key : BlockKey} {h h' : Block} (there : r.blocks.find key = some h) (waiting : h.done = false) {b : SentBlock}
    (member : b ∈ blocks) (tracks' : Tracks b key h') (done : h'.done = true) {out : FecSymbols}
    (all : ∀ p ∈ b.sources, p ∈ seen ++ out) (part : ∀ p ∈ out, p ∈ b.sources) (sources : r'.sources = r.sources)
    (ids : r'.mediaSsrc = r.mediaSsrc ∧ r'.repairSsrc = r.repairSsrc ∧ r'.mediaPt = r.mediaPt)
    (changed : r'.blocks = r.blocks.update key h') :
    Decoded media repairSsrc mediaPt packets blocks seen [key] r out r' where
  faithful := by
    refine ⟨?_, ?_, fun e inside => ?_⟩
    · rw [ids.1, ids.2.1, ids.2.2]
      exact faithful.ids
    · rw [sources]
      exact faithful.cached.mono fun p old => List.mem_append_left _ old
    · rw [changed, SortedMap.mem_update there] at inside
      rcases inside with rfl | ⟨old, -⟩
      · exact ⟨b, member, tracks', fun _ => all⟩
      · obtain ⟨c, inside', tracks'', finished⟩ := faithful.tracks e old
        exact ⟨c, inside', tracks'', fun done p source => List.mem_append_left _ (finished done p source)⟩
  sources := sources
  kept e inside finished := by
    rw [changed, SortedMap.mem_update there]
    refine Or.inr ⟨inside, fun same => ?_⟩
    have here : e.2 = h := SortedMap.eq_of_key inside (SortedMap.find_eq_some.mp there) same |> congrArg Prod.snd
    rw [here, waiting] at finished
    cases finished
  stays e inside := by
    by_cases here : e.1 = key
    · refine ⟨(key, h'), ?_, here.symm, Or.inl done⟩
      rw [changed, SortedMap.mem_update there]
      exact Or.inl rfl
    · refine ⟨e, ?_, rfl, Or.inr rfl⟩
      rw [changed, SortedMap.mem_update there]
      exact Or.inr ⟨inside, here⟩
  old e inside open_ := by
    rw [changed, SortedMap.mem_update there] at inside
    rcases inside with rfl | ⟨old, -⟩
    · rw [done] at open_
      cases open_
    · exact old
  short e inside here open_ := by
    rw [changed, SortedMap.mem_update there] at inside
    rcases inside with rfl | ⟨-, other⟩
    · rw [done] at open_
      cases open_
    · exact absurd (List.mem_singleton.mp here) other
  whence p returned := by
    refine ⟨(key, h'), ?_, done, b, member, tracks', part p returned⟩
    rw [changed, SortedMap.mem_update there]
    exact Or.inl rfl

/-- A block that is done keeps nothing of its repairs. -/
theorem Tracks.finish {b : SentBlock} {key : BlockKey} {h : Block} (tracks : Tracks b key h) (repairs : FecSymbols) :
    Tracks b key { h with done := true, repairs } :=
  ⟨tracks.key, tracks.timestamp, tracks.base, tracks.k, tracks.r, tracks.size, tracks.present,
    fun waiting => Bool.noConfusion waiting⟩

variable (session : Session o media repairSsrc mediaPt packets blocks) {r : RtpFecReceiver σ}
  (faithful : Faithful media repairSsrc mediaPt packets blocks seen r)
include session faithful

/-- A block with enough symbols is decoded, and the sources that are not held are returned. -/
theorem decode_decoded {key : BlockKey} {h : Block} (there : r.blocks.find key = some h) (waiting : h.done = false)
    {b : SentBlock} (member : b ∈ blocks) (tracks : Tracks b key h) (enough : h.k ≤ h.held r.sources) :
    Decoded media repairSsrc mediaPt packets blocks seen [key] r (r.decode o key h (h.gather r.sources)).1
      (r.decode o key h (h.gather r.sources)).2 := by
  have genuine : ∀ i < h.k, ∀ bytes, h.slot r.sources i = some bytes → bytes = symbolAt b.sources i ∧ bytes ∈ seen :=
    fun i inside bytes slot => session.slot_genuine member tracks faithful.cached inside slot
  have block : Encoded o h.k h.r b.size (b.sources.map (padded b.size)) b.symbols := by
    rw [tracks.k, tracks.r]
    exact (session.good b member).encodedBlock session.nonsingular
  have symbol : ∀ i < h.k, symbolAt (b.sources.map (padded b.size)) i = padded b.size (symbolAt b.sources i) :=
    fun i inside => symbolAt_map (tracks.k ▸ inside)
  obtain ⟨s, reset, holds, -⟩ := FecDecoder.reset_small block r.decoder
  rw [Block.held, count_true, tracks.present, ← tracks.r] at enough
  obtain ⟨complete, restored⟩ := h.feed_restores block (h.slot r.sources) tracks.size
    (fun i inside bytes slot => by rw [tracks.size, (genuine i inside bytes slot).1, symbol i inside])
    (fun i inside came => (tracks.repairs waiting).2 i (tracks.r ▸ inside) came) enough
    ⟨s, rfl, holds, Nat.zero_le _⟩
  rw [← Block.gather_eq] at complete restored
  have result : h.restoreAll r.mediaSsrc r.mediaPt (h.feed o (h.gather r.sources) (some s)).symbols
      (h.gather r.sources) = some ((h.missing (h.gather r.sources)).map (symbolAt b.sources)) := by
    refine mapM_eq_some fun i absent => ?_
    have inside := List.mem_range.mp (List.mem_filter.mp absent).1
    rw [faithful.ids.1, faithful.ids.2.2]
    exact session.restored_source member tracks inside ((restored i inside).trans (symbol i inside))
  rw [← tracks.size] at reset
  obtain ⟨r', decoded, sources, ids, changed⟩ := RtpFecReceiver.decode_result key reset complete result
  rw [decoded]
  refine .finish faithful there waiting member (tracks.finish []) rfl (fun p source => ?_) (fun p returned => ?_)
    sources ids changed
  · obtain ⟨i, inside, rfl⟩ := List.getElem_of_mem source
    rw [← symbolAt_eq inside]
    have inside' : i < h.k := tracks.k ▸ inside
    cases slot : h.slot r.sources i with
    | none =>
      refine List.mem_append_right _ (List.mem_map_of_mem (List.mem_filter.mpr ⟨List.mem_range.mpr inside', ?_⟩))
      rw [Block.gather_getD inside', slot]
      rfl
    | some bytes =>
      obtain ⟨rfl, came⟩ := genuine i inside' bytes slot
      exact List.mem_append_left _ came
  · obtain ⟨i, absent, rfl⟩ := List.mem_map.mp returned
    exact symbolAt_mem (tracks.k ▸ List.mem_range.mp (List.mem_filter.mp absent).1)

theorem tryDecode_decoded (key : BlockKey) :
    Decoded media repairSsrc mediaPt packets blocks seen [key] r (r.tryDecode o key).1 (r.tryDecode o key).2 := by
  unfold RtpFecReceiver.tryDecode
  split
  · rename_i absent
    refine .refl faithful fun e inside here => ?_
    exact absurd (List.mem_singleton.mp here) (SortedMap.find_eq_none.mp absent e inside)
  rename_i h there
  have only : ∀ e ∈ r.blocks.entries, e.1 ∈ [key] → e.2 = h := fun e inside here =>
    congrArg Prod.snd (SortedMap.eq_of_key inside (SortedMap.find_eq_some.mp there) (List.mem_singleton.mp here))
  split
  · rename_i done
    refine .refl faithful fun e inside here open_ => ?_
    rw [only e inside here, done] at open_
    cases open_
  rename_i waiting
  have waiting := Bool.eq_false_of_not_eq_true waiting
  obtain ⟨b, member, tracks, -⟩ := faithful.tracks _ (SortedMap.find_eq_some.mp there)
  have genuine : ∀ i < h.k, ∀ bytes, h.slot r.sources i = some bytes → bytes = symbolAt b.sources i ∧ bytes ∈ seen :=
    fun i inside bytes slot => session.slot_genuine member tracks faithful.cached inside slot
  have count : (h.gather r.sources).countP (·.isSome) =
      (List.range h.k).countP fun i => (h.slot r.sources i).isSome := by
    rw [Block.gather_eq, List.countP_map]
    rfl
  dsimp only
  split
  · rename_i long
    obtain ⟨slot, inside, long⟩ := List.any_eq_true.mp long
    obtain ⟨bytes, rfl, long⟩ := (Option.any_eq_true _ _).mp long
    obtain ⟨i, below, slot⟩ := List.mem_map.mp inside
    have below := List.mem_range.mp below
    obtain ⟨rfl, -⟩ := genuine i below bytes slot
    have fits := le_symbolSize (symbolAt_mem (tracks.k ▸ below))
    have size : h.size = RtpFecSender.symbolSize b.sources := tracks.size
    have long := of_decide_eq_true long
    omega
  split
  · rename_i whole
    rw [count] at whole
    have all : ∀ i < h.k, (h.slot r.sources i).isSome = true := by
      have full := List.countP_eq_length.mp (whole.trans List.length_range.symm)
      exact fun i inside => full i (List.mem_range.mpr inside)
    refine .finish faithful there waiting member (tracks.finish []) rfl (fun p source => ?_)
      (fun p returned => absurd returned List.not_mem_nil) rfl ⟨rfl, rfl, rfl⟩ rfl
    obtain ⟨i, inside, rfl⟩ := List.getElem_of_mem source
    have inside' : i < h.k := tracks.k ▸ inside
    obtain ⟨bytes, slot⟩ := Option.isSome_iff_exists.mp (all i inside')
    obtain ⟨rfl, came⟩ := genuine i inside' bytes slot
    rw [symbolAt_eq inside] at came
    exact List.mem_append_left _ came
  split
  · rename_i few
    refine .refl faithful fun e inside here _ => ?_
    rw [only e inside here, Block.held, ← count]
    exact few
  · rename_i enough
    refine decode_decoded session faithful there waiting member tracks ?_
    rw [Block.held, ← count]
    exact not_lt.mp enough

omit faithful in
theorem tryDecodeAll_decoded (keys : List BlockKey) {seen : FecSymbols} {r : RtpFecReceiver σ}
    (faithful : Faithful media repairSsrc mediaPt packets blocks seen r) :
    Decoded media repairSsrc mediaPt packets blocks seen keys r (r.tryDecodeAll o keys).1
      (r.tryDecodeAll o keys).2 := by
  induction keys generalizing seen r with
  | nil => exact .refl faithful fun e _ here => absurd here List.not_mem_nil
  | cons key keys ih =>
    have first := tryDecode_decoded session faithful key
    exact first.trans (ih first.faithful)

end Decoding

/-! ### The caches -/

section Caching

variable {σ : Type} {o : OpenFec σ} {media repairSsrc : BitVec 32} {mediaPt : Byte} {packets seen : FecSymbols}
  {blocks : List SentBlock} {sources : Sources} {nowMs : Int}

theorem Cached.cache (cached : Cached packets seen sources) {p : Bytes} (accepted : p ∈ packets) (came : p ∈ seen) :
    Cached packets seen (cache sources p nowMs) := by
  unfold MiniRtc.Fec.cache
  dsimp only
  split
  · exact cached
  · intro e member
    rcases mem_emplace member with rfl | old
    · exact ⟨rfl, accepted, came⟩
    · exact cached e (mem_of_evict old)

theorem Cached.cacheAll {ps : FecSymbols} (cached : Cached packets seen sources) (accepted : ∀ p ∈ ps, p ∈ packets)
    (came : ∀ p ∈ ps, p ∈ seen) :
    Cached packets seen (ps.foldl (fun sources p => MiniRtc.Fec.cache sources p nowMs) sources) := by
  induction ps generalizing sources with
  | nil => exact cached
  | cons p ps ih =>
    obtain ⟨here, others⟩ := List.forall_mem_cons.mp accepted
    obtain ⟨here', others'⟩ := List.forall_mem_cons.mp came
    exact ih (cached.cache here here') others others'

/-- A packet of another block is none of a block's symbols. -/
theorem Session.held_cache (session : Session o media repairSsrc mediaPt packets blocks) {b : SentBlock}
    (member : b ∈ blocks) {key : BlockKey} {h : Block} (tracks : Tracks b key h) {p : Bytes} (accepted : p ∈ packets)
    (other : p ∉ b.sources) : h.held (cache sources p nowMs) ≤ h.held sources := by
  refine Block.held_mono fun i inside there => ?_
  obtain ⟨bytes, slot⟩ := Option.isSome_iff_exists.mp there
  obtain ⟨source, found, rfl, timestamp⟩ := Block.slot_eq_some.mp slot
  have entry := SortedMap.find_eq_some.mp found
  have old : (((h.seqAt i).toNat, source) : Nat × Source) ∈ sources.entries := by
    unfold cache at entry
    dsimp only at entry
    split at entry
    · exact entry
    · rcases mem_emplace entry with new | old
      · rw [Prod.mk.injEq] at new
        obtain ⟨seq, rfl⟩ := new
        have inside' : i < b.sources.length := tracks.k ▸ inside
        have same := session.source_unique member inside' accepted (timestamp.trans tracks.timestamp)
          (tracks.base ▸ (BitVec.eq_of_toNat_eq seq).symm)
        exact absurd (same ▸ symbolAt_mem inside') other
      · exact mem_of_evict old
  rw [Option.isSome_iff_exists]
  exact ⟨source.bytes, Block.slot_eq_some.mpr ⟨source, SortedMap.find_eq_some.mpr old, rfl, timestamp⟩⟩

theorem Session.held_cacheAll (session : Session o media repairSsrc mediaPt packets blocks) {b : SentBlock}
    (member : b ∈ blocks) {key : BlockKey} {h : Block} (tracks : Tracks b key h) {ps : FecSymbols}
    (accepted : ∀ p ∈ ps, p ∈ packets) (others : ∀ p ∈ ps, p ∉ b.sources) :
    h.held (ps.foldl (fun sources p => MiniRtc.Fec.cache sources p nowMs) sources) ≤ h.held sources := by
  induction ps generalizing sources with
  | nil => exact le_rfl
  | cons p ps ih =>
    obtain ⟨here, accepted⟩ := List.forall_mem_cons.mp accepted
    obtain ⟨here', others⟩ := List.forall_mem_cons.mp others
    exact (ih accepted others).trans (session.held_cache member tracks here here')

end Caching

/-! ### Calls -/

/-- Between two calls no block waits that has enough symbols. -/
structure Restoring {σ : Type} (media repairSsrc : BitVec 32) (mediaPt : Byte) (packets : FecSymbols)
    (blocks : List SentBlock) (seen : FecSymbols) (r : RtpFecReceiver σ) : Prop where
  faithful : Faithful media repairSsrc mediaPt packets blocks seen r
  short : ∀ e ∈ r.blocks.entries, e.2.done = false → e.2.held r.sources < e.2.k

section Calls

variable {σ : Type} {o : OpenFec σ} {media repairSsrc : BitVec 32} {mediaPt : Byte} {packets seen : FecSymbols}
  {blocks : List SentBlock} {r r' : RtpFecReceiver σ} {nowMs : Int}

theorem Faithful.congr (faithful : Faithful media repairSsrc mediaPt packets blocks seen r)
    (ids : r'.mediaSsrc = r.mediaSsrc ∧ r'.repairSsrc = r.repairSsrc ∧ r'.mediaPt = r.mediaPt)
    (sources : r'.sources = r.sources) (same : r'.blocks = r.blocks) :
    Faithful media repairSsrc mediaPt packets blocks seen r' where
  ids := by
    rw [ids.1, ids.2.1, ids.2.2]
    exact faithful.ids
  cached := sources ▸ faithful.cached
  tracks := same ▸ faithful.tracks

theorem Restoring.expire (restoring : Restoring media repairSsrc mediaPt packets blocks seen r) (nowMs : Int) :
    Restoring media repairSsrc mediaPt packets blocks seen (r.expire nowMs) where
  faithful :=
    { ids := restoring.faithful.ids
      cached := fun e member => restoring.faithful.cached e (mem_expire.mp member).1
      tracks := fun e member => restoring.faithful.tracks e (mem_expire.mp member).1 }
  short e member waiting := by
    refine lt_of_le_of_lt (Block.held_mono fun i inside there => ?_)
      (restoring.short e (mem_expire.mp member).1 waiting)
    obtain ⟨bytes, slot⟩ := Option.isSome_iff_exists.mp there
    obtain ⟨source, found, same, timestamp⟩ := Block.slot_eq_some.mp slot
    have entry := (mem_expire.mp (SortedMap.find_eq_some.mp found)).1
    rw [Option.isSome_iff_exists]
    exact ⟨bytes, Block.slot_eq_some.mpr ⟨source, SortedMap.find_eq_some.mpr entry, same, timestamp⟩⟩

variable (session : Session o media repairSsrc mediaPt packets blocks)
include session

/-- What a decoding returns was accepted, and becomes sources of no block that waits. -/
theorem Decoded.settle {keys : List BlockKey} {out : FecSymbols}
    (decoded : Decoded media repairSsrc mediaPt packets blocks seen keys r out r')
    (short : ∀ e ∈ r'.blocks.entries, e.2.done = false → e.2.held r.sources < e.2.k) (nowMs : Int) :
    (∀ p ∈ out, p ∈ packets) ∧
      Restoring media repairSsrc mediaPt packets blocks (seen ++ out) (r'.cacheAll out nowMs) := by
  have accepted : ∀ p ∈ out, p ∈ packets := by
    intro p member
    obtain ⟨-, -, -, b, inside, -, source⟩ := decoded.whence p member
    exact session.part b inside p source
  refine ⟨accepted, ⟨decoded.faithful.ids, ?_, decoded.faithful.tracks⟩, fun e member waiting => ?_⟩
  · exact decoded.faithful.cached.cacheAll accepted fun p member => List.mem_append_right _ member
  · obtain ⟨c, inside, tracks, -⟩ := decoded.faithful.tracks e member
    refine lt_of_le_of_lt (session.held_cacheAll inside tracks accepted fun p returned source => ?_)
      (decoded.sources ▸ short e member waiting)
    obtain ⟨e', member', done, b, inside', tracks', source'⟩ := decoded.whence p returned
    obtain rfl := session.apart b inside' c inside p source' source
    have same : e' = e := SortedMap.eq_of_key member' member (tracks'.key.trans tracks.key.symm)
    rw [same, waiting] at done
    cases done

theorem Restoring.addSource (restoring : Restoring media repairSsrc mediaPt packets blocks seen r) {p : Bytes}
    (accepted : p ∈ packets) (came : p ∈ seen) (nowMs : Int) :
    (∀ q ∈ (r.addSource o p nowMs).1, q ∈ packets) ∧
      Restoring media repairSsrc mediaPt packets blocks (seen ++ (r.addSource o p nowMs).1)
        (r.addSource o p nowMs).2 := by
  unfold RtpFecReceiver.addSource
  dsimp only
  generalize before : ({ r with
    stats := { r.stats with sourcePackets := r.stats.sourcePackets + 1 }
    sources := cache r.sources p nowMs } : RtpFecReceiver σ) = r₁
  have faithful : Faithful media repairSsrc mediaPt packets blocks seen r₁ := by
    rw [← before]
    exact ⟨restoring.faithful.ids, restoring.faithful.cached.cache accepted came, restoring.faithful.tracks⟩
  have same : r₁.blocks = r.blocks := by rw [← before]
  have decoded := tryDecodeAll_decoded session (r.blocks.entries.map Prod.fst) faithful
  refine decoded.settle session (fun e member waiting => decoded.short e member ?_ waiting) nowMs
  exact List.mem_map_of_mem (same ▸ decoded.old e member waiting)

/-- The block of a repair is there once the repair has come. -/
structure Opened (b : SentBlock) (key : BlockKey) (r r' : RtpFecReceiver σ) (h : Block) : Prop where
  there : r'.blocks.find key = some h
  tracks : Tracks b key h
  sources : r'.sources = r.sources
  others : ∀ e ∈ r'.blocks.entries, e.1 ≠ key → e ∈ r.blocks.entries
  old : h.done = true ∨ (∃ i, h.present.getD i false = true) → (key, h) ∈ r.blocks.entries

omit session in
theorem openBlock_opened (faithful : Faithful media repairSsrc mediaPt packets blocks seen r) {b : SentBlock}
    (member : b ∈ blocks) {key : BlockKey} (same : key = toLex ((get32 b.first 4).toNat, (get16 b.first 2).toNat))
    (free : r.blocks.find key = none) (id : Nat) :
    Faithful media repairSsrc mediaPt packets blocks seen (r.openBlock key (get32 b.first 4)
      ⟨b.sources.length, b.symbols.length, id, b.size, get16 b.first 2⟩ nowMs) ∧
    ∃ h, Opened b key r (r.openBlock key (get32 b.first 4)
      ⟨b.sources.length, b.symbols.length, id, b.size, get16 b.first 2⟩ nowMs) h := by
  generalize fresh : ({
    serial := r.opened
    timestamp := get32 b.first 4
    base := get16 b.first 2
    k := b.sources.length
    r := b.symbols.length
    size := b.size
    arrival := nowMs
    repairs := List.replicate b.symbols.length []
    present := List.replicate b.symbols.length false } : Block) = h
  have tracks : Tracks b key h := by
    rw [← fresh]
    refine ⟨same, rfl, rfl, rfl, rfl, rfl, List.length_replicate, fun _ => ⟨List.length_replicate, fun i _ came => ?_⟩⟩
    rw [FecDecoder.getD_replicate] at came
    cases came
  have blocks' : (r.openBlock key (get32 b.first 4)
      ⟨b.sources.length, b.symbols.length, id, b.size, get16 b.first 2⟩ nowMs).blocks =
      (evict Block.arrival 64 r.blocks).emplace key h := by
    rw [← fresh]
    rfl
  have free' : (evict Block.arrival 64 r.blocks).find key = none := SortedMap.find_eq_none.mpr fun e inside =>
    SortedMap.find_eq_none.mp free e (mem_of_evict inside)
  refine ⟨⟨faithful.ids, faithful.cached, fun e inside => ?_⟩, h, ?_, tracks, rfl, fun e inside other => ?_, ?_⟩
  · rw [blocks'] at inside
    rcases mem_emplace inside with rfl | old
    · refine ⟨b, member, tracks, fun done => ?_⟩
      rw [← fresh] at done
      cases done
    · exact faithful.tracks e (mem_of_evict old)
  · rw [blocks', SortedMap.find_emplace, if_pos ⟨free', rfl⟩]
  · rw [blocks'] at inside
    rcases mem_emplace inside with rfl | old
    · exact absurd rfl other
    · exact mem_of_evict old
  · rw [← fresh]
    rintro (done | ⟨i, came⟩)
    · cases done
    · rw [FecDecoder.getD_replicate] at came
      cases came

/-- The repair of a block is held, unless the block is done. -/
def Taken (b : SentBlock) (index : Nat) (r : RtpFecReceiver σ) : Prop :=
  ∃ e ∈ r.blocks.entries, Tracks b e.1 e.2 ∧ (e.2.done = true ∨ e.2.present.getD index false = true)

omit session in
/-- A repair of the block is put into its place. -/
theorem Tracks.addRepair {b : SentBlock} {key : BlockKey} {h : Block} (tracks : Tracks b key h)
    (waiting : h.done = false) {index : Nat} (inside : index < b.symbols.length) {q : Bytes} (read : RepairRead r b index q) :
    Tracks b key { h with
      repairs := h.repairs.set index (q.drop (headerSize q + kFecHeaderSize))
      present := h.present.set index true } := by
  refine ⟨tracks.key, tracks.timestamp, tracks.base, tracks.k, tracks.r, tracks.size,
    (List.length_set ..).trans tracks.present, fun _ => ⟨(List.length_set ..).trans (tracks.repairs waiting).1, ?_⟩⟩
  intro i below came
  have slot : index < h.repairs.length := (tracks.repairs waiting).1 ▸ inside
  dsimp only
  rw [symbolAt_set _ _ _ _ slot, read.symbol]
  split
  · rename_i same
    rw [same]
  · rename_i other
    refine (tracks.repairs waiting).2 i below ?_
    rw [List.getD_eq_getElem?_getD, List.getElem?_set_ne (Ne.symm other)] at came
    rw [List.getD_eq_getElem?_getD]
    exact came

/-- The block of a repair is there, or it is opened. -/
theorem openIfAbsent_opened (faithful : Faithful media repairSsrc mediaPt packets blocks seen r) {b : SentBlock}
    (member : b ∈ blocks) {key : BlockKey} (same : key = toLex ((get32 b.first 4).toNat, (get16 b.first 2).toNat))
    (id : Nat) (nowMs : Int) :
    Faithful media repairSsrc mediaPt packets blocks seen (if (r.blocks.find key).isNone = true then
      r.openBlock key (get32 b.first 4) ⟨b.sources.length, b.symbols.length, id, b.size, get16 b.first 2⟩ nowMs
      else r) ∧
    ∃ h, Opened b key r (if (r.blocks.find key).isNone = true then
      r.openBlock key (get32 b.first 4) ⟨b.sources.length, b.symbols.length, id, b.size, get16 b.first 2⟩ nowMs
      else r) h := by
  split
  · rename_i free
    exact openBlock_opened faithful member same (Option.isNone_iff_eq_none.mp free) _
  · rename_i there
    obtain ⟨h, there⟩ := Option.ne_none_iff_exists'.mp (mt Option.isNone_iff_eq_none.mpr there)
    obtain ⟨c, inside', tracks, -⟩ := faithful.tracks _ (SortedMap.find_eq_some.mp there)
    -- No other block begins with the same source.
    have fresh : Tracks b key h := by
      have first := (session.good b member).first_mem
      have first' := (session.good c inside').first_mem
      have pair := toLex.injective (same.symm.trans tracks.key)
      rw [Prod.mk.injEq] at pair
      have one := session.single _ (session.part b member _ first) _ (session.part c inside' _ first')
        (BitVec.eq_of_toNat_eq pair.1) (BitVec.eq_of_toNat_eq pair.2)
      rwa [session.apart b member c inside' _ first (one ▸ first')]
    exact ⟨faithful, h, there, fresh, rfl, fun _ old _ => old, fun _ => SortedMap.find_eq_some.mp there⟩

/-- A repair comes, and its block is tried. -/
theorem Restoring.addRepair (restoring : Restoring media repairSsrc mediaPt packets blocks seen r) {b : SentBlock}
    (member : b ∈ blocks) {index : Nat} (inside : index < b.symbols.length) {q : Bytes} (read : RepairRead r b index q)
    (nowMs : Int) : (∀ p ∈ (r.addRepair o q nowMs).1, p ∈ packets) ∧
      Restoring media repairSsrc mediaPt packets blocks (seen ++ (r.addRepair o q nowMs).1)
        (r.addRepair o q nowMs).2 ∧ Taken b index (r.addRepair o q nowMs).2 := by
  unfold RtpFecReceiver.addRepair
  rw [read.header, read.timestamp]
  dsimp only
  generalize name : (toLex ((get32 b.first 4).toNat, (get16 b.first 2).toNat) : BlockKey) = key
  generalize opening : (if (r.blocks.find key).isNone = true then r.openBlock key (get32 b.first 4)
    ⟨b.sources.length, b.symbols.length, b.sources.length + index, b.size, get16 b.first 2⟩ nowMs else r) = r₁
  have opened : Faithful media repairSsrc mediaPt packets blocks seen r₁ ∧ ∃ h, Opened b key r r₁ h :=
    opening ▸ openIfAbsent_opened session restoring.faithful member name.symm _ nowMs
  obtain ⟨faithful, h, opened⟩ := opened
  have tracks := opened.tracks
  rw [opened.there]
  dsimp only
  rw [if_neg (by rw [tracks.k, tracks.r, tracks.size]; simp)]
  have place : b.sources.length + index - b.sources.length = index := Nat.add_sub_cancel_left _ _
  rw [place]
  split
  · rename_i old
    rw [List.append_nil]
    rw [Bool.or_eq_true] at old
    refine ⟨fun p returned => absurd returned List.not_mem_nil, ⟨faithful, fun e inside' waiting => ?_⟩,
      _, SortedMap.find_eq_some.mp opened.there, tracks, old⟩
    rw [opened.sources]
    by_cases here : e.1 = key
    · have same : e = (key, h) := SortedMap.eq_of_key inside' (SortedMap.find_eq_some.mp opened.there) here
      rw [same] at waiting ⊢
      exact restoring.short _ (opened.old (old.imp id fun came => ⟨index, came⟩)) waiting
    · exact restoring.short e (opened.others e inside' here) waiting
  · rename_i fresh
    rw [Bool.or_eq_true, not_or] at fresh
    have waiting := Bool.eq_false_of_not_eq_true fresh.1
    generalize added : ({ h with
      repairs := h.repairs.set index (q.drop (headerSize q + kFecHeaderSize))
      present := h.present.set index true } : Block) = h'
    have tracks' : Tracks b key h' := added ▸ tracks.addRepair waiting inside read
    generalize counted : ({ r₁.setBlock key h' with
      stats := { (r₁.setBlock key h').stats with
        repairPackets := (r₁.setBlock key h').stats.repairPackets + 1 } } : RtpFecReceiver σ) = r₂
    have blocks₂ : r₂.blocks = r₁.blocks.update key h' := by
      rw [← counted]
      rfl
    have sources₂ : r₂.sources = r.sources := by
      rw [← counted]
      exact opened.sources
    have done' : h'.done = false := by
      rw [← added]
      exact waiting
    have faithful₂ : Faithful media repairSsrc mediaPt packets blocks seen r₂ := by
      refine ⟨counted ▸ faithful.ids, sources₂ ▸ opened.sources ▸ faithful.cached, fun e inside' => ?_⟩
      rw [blocks₂, SortedMap.mem_update opened.there] at inside'
      rcases inside' with rfl | ⟨old, -⟩
      · refine ⟨b, member, tracks', fun done => ?_⟩
        rw [done'] at done
        cases done
      · exact faithful.tracks e old
    have decoded := tryDecode_decoded session faithful₂ key
    have entry : (key, h') ∈ r₂.blocks.entries := by
      rw [blocks₂, SortedMap.mem_update opened.there]
      exact Or.inl rfl
    have taken : Taken b index ((r₂.tryDecode o key).2.cacheAll (r₂.tryDecode o key).1 nowMs) := by
      obtain ⟨e, inside', same, done⟩ := decoded.stays _ entry
      obtain ⟨c, member', tracks'', -⟩ := decoded.faithful.tracks e inside'
      obtain rfl := session.tracks_unique member member' tracks' (same ▸ tracks'')
      refine ⟨e, inside', tracks'', done.imp id fun same => ?_⟩
      have slot : index < h.present.length := tracks.present ▸ inside
      rw [same, ← added]
      simp [slot]
    have short : ∀ e ∈ (r₂.tryDecode o key).2.blocks.entries, e.2.done = false → e.2.held r₂.sources < e.2.k := by
      intro e inside' waiting'
      by_cases here : e.1 = key
      · exact decoded.short e inside' (List.mem_singleton.mpr here) waiting'
      · have old := decoded.old e inside' waiting'
        rw [blocks₂, SortedMap.mem_update opened.there] at old
        rcases old with rfl | ⟨old, -⟩
        · exact absurd rfl here
        · rw [sources₂]
          exact restoring.short e (opened.others e old here) waiting'
    have settled := decoded.settle session short nowMs
    exact ⟨settled.1, settled.2, taken⟩

/-! ### Runs -/

omit session in
theorem media_iff {p : Bytes} (faithful : Faithful media repairSsrc mediaPt packets blocks seen r)
    (accepted : RtpFecSender.accepts p repairSsrc = true)
    (stream : get32 p 8 = media ∧ byteAt p 1 &&& 127#8 = mediaPt) :
    (headerSize p ≠ 0 ∧ p.length ≤ kFecMaxWirePacket) ∧ r.isMedia p = true := by
  simp only [RtpFecSender.accepts, Bool.and_eq_true, decide_eq_true_eq] at accepted
  have short := accepted.1.1.2
  simp only [kFecMaxMediaPacket] at short
  refine ⟨⟨accepted.1.1.1, by simp only [kFecMaxWirePacket]; omega⟩, ?_⟩
  simp only [RtpFecReceiver.isMedia, Bool.and_eq_true, decide_eq_true_eq]
  rw [faithful.ids.1, faithful.ids.2.2]
  exact ⟨⟨stream.2, stream.1⟩, accepted.1.1.2⟩

end Calls

namespace RtpFecReceiver

/-- What the calls hand to the receiver. -/
def handed (calls : List Call) : FecSymbols := calls.flatMap fun
  | .addPacket p _ => [p]
  | .expire _ => []

/-- What the calls return. -/
def returned {σ : Type} (o : OpenFec σ) (r : RtpFecReceiver σ) : List Call → FecSymbols
  | [] => []
  | c :: calls => (r.step o c).1 ++ returned o (r.step o c).2 calls

theorem handed_append (calls calls' : List Call) : handed (calls ++ calls') = handed calls ++ handed calls' :=
  List.flatMap_append

/-- A call hands over one of the packets, or one of the repairs as it was sent. -/
def Call.Delivers (packets repairs : FecSymbols) : Call → Prop
  | .addPacket p _ => p ∈ packets ∨ ∃ q ∈ repairs, Stamped q p
  | .expire _ => True

end RtpFecReceiver

section Runs

variable {σ : Type} {o : OpenFec σ} {media repairSsrc : BitVec 32} {mediaPt : Byte} {packets seen : FecSymbols}
  {blocks : List SentBlock} (session : Session o media repairSsrc mediaPt packets blocks)
include session

/-- A call keeps everything, and the repair that it hands over is taken. -/
theorem Restoring.step {r : RtpFecReceiver σ} (restoring : Restoring media repairSsrc mediaPt packets blocks seen r)
    {c : RtpFecReceiver.Call} (delivers : c.Delivers packets (blocks.flatMap (SentBlock.packets repairSsrc))) :
    (∀ p ∈ (r.step o c).1, p ∈ packets) ∧
      Restoring media repairSsrc mediaPt packets blocks (seen ++ RtpFecReceiver.handed [c] ++ (r.step o c).1)
        (r.step o c).2 ∧
      ∀ q nowMs, c = .addPacket q nowMs → ∀ b ∈ blocks, ∀ index (inside : index < b.symbols.length),
        Stamped (repairPacket repairSsrc b.sources b.size b.symbols.length index b.symbols[index]) q →
          Taken b index (r.step o c).2 := by
  cases c with
  | expire nowMs =>
    refine ⟨fun p returned => absurd returned List.not_mem_nil, ?_, fun q nowMs' same => by cases same⟩
    have kept := restoring.expire nowMs
    exact ⟨kept.faithful.mono fun p old => List.mem_append_left _ (List.mem_append_left _ old), kept.short⟩
  | addPacket p nowMs =>
    have kept := restoring.expire nowMs
    generalize expired : r.expire nowMs = r' at kept
    have repair : ∀ b ∈ blocks, ∀ index (inside : index < b.symbols.length),
        Stamped (repairPacket repairSsrc b.sources b.size b.symbols.length index b.symbols[index]) p →
        RepairRead r' b index p := by
      intro b member index inside stamped
      have good := session.good b member
      have media' := (session.stream _ (session.part b member _ good.first_mem)).1
      exact repair_read good session.nonsingular (kept.faithful.ids.1.trans media'.symm) kept.faithful.ids.2.1 inside
        stamped
    have more : ∀ q ∈ seen, q ∈ seen ++ RtpFecReceiver.handed [.addPacket p nowMs] :=
      fun q old => List.mem_append_left _ old
    rw [RtpFecReceiver.step, RtpFecReceiver.addPacket, expired]
    rcases delivers with accepted | ⟨q, sent, stamped⟩
    · obtain ⟨⟨whole, short⟩, media'⟩ :=
        media_iff kept.faithful (session.accepted p accepted) (session.stream p accepted)
      rw [if_neg (not_or.mpr ⟨whole, not_lt.mpr short⟩), if_pos media']
      have start : Restoring media repairSsrc mediaPt packets blocks
          (seen ++ RtpFecReceiver.handed [.addPacket p nowMs]) r' := ⟨kept.faithful.mono more, kept.short⟩
      obtain ⟨returned, restoring'⟩ := start.addSource (o := o) session accepted
        (List.mem_append_right _ List.mem_cons_self) nowMs
      refine ⟨returned, restoring', fun q nowMs' same b member index inside stamped => ?_⟩
      cases same
      have other := (repair b member index inside stamped).other
      rw [media'] at other
      cases other
    · obtain ⟨b, member, sent⟩ := List.mem_flatMap.mp sent
      obtain ⟨index, inside, rfl⟩ := List.mem_mapIdx.mp sent
      have read := repair b member index inside stamped
      have short := not_lt.mpr read.short
      rw [if_neg (not_or.mpr ⟨read.whole, short⟩), if_neg (ne_true_of_eq_false read.other), if_pos read.repair]
      obtain ⟨returned, restoring', -⟩ := kept.addRepair (o := o) session member inside read nowMs
      refine ⟨returned, ⟨restoring'.faithful.mono fun q member' => ?_, restoring'.short⟩,
        fun q nowMs' same b' member' index' inside' stamped' => ?_⟩
      · exact (List.mem_append.mp member').elim (fun old => List.mem_append_left _ (more q old))
          fun new => List.mem_append_right _ new
      · cases same
        exact (kept.addRepair session member' inside' (repair b' member' index' inside' stamped') nowMs).2.2

theorem Restoring.run (calls : List RtpFecReceiver.Call) {seen : FecSymbols} {r : RtpFecReceiver σ}
    (restoring : Restoring media repairSsrc mediaPt packets blocks seen r)
    (delivers : ∀ c ∈ calls, c.Delivers packets (blocks.flatMap (SentBlock.packets repairSsrc))) :
    ∃ seen', (∀ p ∈ seen', p ∈ seen ∨ p ∈ RtpFecReceiver.handed calls ∨ p ∈ RtpFecReceiver.returned o r calls) ∧
      Restoring media repairSsrc mediaPt packets blocks seen' (r.after o calls) ∧
      ∀ p ∈ RtpFecReceiver.returned o r calls, p ∈ packets := by
  induction calls generalizing seen r with
  | nil => exact ⟨seen, fun p old => Or.inl old, restoring, fun p member => absurd member List.not_mem_nil⟩
  | cons c calls ih =>
    obtain ⟨here, others⟩ := List.forall_mem_cons.mp delivers
    obtain ⟨accepted, restoring', -⟩ := restoring.step session here
    obtain ⟨seen', from', restoring'', accepted'⟩ := ih restoring' others
    have parts : RtpFecReceiver.handed (c :: calls) = RtpFecReceiver.handed [c] ++ RtpFecReceiver.handed calls :=
      RtpFecReceiver.handed_append [c] calls
    refine ⟨seen', fun p member => ?_, restoring'', fun p member => ?_⟩
    · rw [parts, RtpFecReceiver.returned, List.mem_append, List.mem_append]
      have origin := from' p member
      rw [List.mem_append, List.mem_append] at origin
      tauto
    · exact (List.mem_append.mp member).elim (accepted p) (accepted' p)

end Runs

namespace RtpFecReceiver

variable {σ : Type}

/-- What a receiver makes of a run: it returns packets that were accepted, a repair that comes is held, and a block
gives up none of its sources once as many of its symbols are held as it has sources. -/
structure EndToEnd (o : OpenFec σ) (repairSsrc : BitVec 32) (packets : FecSymbols) (blocks : List SentBlock)
    (start : RtpFecReceiver σ) (calls : List Call) : Prop where
  genuine : ∀ p ∈ returned o start calls, p ∈ packets
  restored : ∀ e ∈ (start.after o calls).blocks.entries, ∃ b ∈ blocks, Tracks b e.1 e.2 ∧
    (e.2.k ≤ e.2.held (start.after o calls).sources → e.2.done = true) ∧
    (e.2.done = true → ∀ p ∈ b.sources, p ∈ handed calls ∨ p ∈ returned o start calls)
  taken : ∀ before q nowMs, calls = before ++ [.addPacket q nowMs] → ∀ b ∈ blocks, ∀ index
    (inside : index < b.symbols.length),
    Stamped (repairPacket repairSsrc b.sources b.size b.symbols.length index b.symbols[index]) q →
      Taken b index (start.after o calls)

theorem new_restoring (media repairSsrc : BitVec 32) (mediaPt : Byte) (packets : FecSymbols) (blocks : List SentBlock) :
    Restoring media repairSsrc mediaPt packets blocks [] (new media repairSsrc mediaPt : RtpFecReceiver σ) where
  faithful :=
    { ids := ⟨rfl, rfl, rfl⟩
      cached := fun _ member => absurd member List.not_mem_nil
      tracks := fun _ member => absurd member List.not_mem_nil }
  short _ member := absurd member List.not_mem_nil

theorem after_append (o : OpenFec σ) (r : RtpFecReceiver σ) (calls : List Call) (c : Call) :
    r.after o (calls ++ [c]) = ((r.after o calls).step o c).2 := by
  rw [after, List.foldl_append]
  rfl

theorem Session.endToEnd {o : OpenFec σ} {media repairSsrc : BitVec 32} {mediaPt : Byte} {packets : FecSymbols}
    {blocks : List SentBlock} (session : Session o media repairSsrc mediaPt packets blocks) {calls : List Call}
    (delivers : ∀ c ∈ calls, c.Delivers packets (blocks.flatMap (SentBlock.packets repairSsrc))) :
    EndToEnd o repairSsrc packets blocks (new media repairSsrc mediaPt) calls := by
  have start : Restoring media repairSsrc mediaPt packets blocks [] (new media repairSsrc mediaPt : RtpFecReceiver σ) :=
    new_restoring media repairSsrc mediaPt packets blocks
  obtain ⟨seen, origin, restoring, genuine⟩ := start.run session calls delivers
  refine ⟨genuine, fun e member => ?_, fun before q nowMs same b member index inside stamped => ?_⟩
  · obtain ⟨b, inside, tracks, done⟩ := restoring.faithful.tracks e member
    refine ⟨b, inside, tracks, fun enough => ?_, fun finished p source => ?_⟩
    · by_contra waiting
      exact absurd (restoring.short e member (Bool.eq_false_of_not_eq_true waiting)) (not_lt.mpr enough)
    · exact (origin p (done finished p source)).resolve_left List.not_mem_nil
  · subst same
    obtain ⟨seen', -, restoring', -⟩ := start.run session before fun c old => delivers c (List.mem_append_left _ old)
    rw [after_append]
    have last := delivers (.addPacket q nowMs) (List.mem_append_right _ List.mem_cons_self)
    exact (restoring'.step session last).2.2 q nowMs rfl b member index inside stamped

/-- Repairs work end to end: whatever a network loses, repeats and reorders, the receiver returns packets of the
sender only, and it restores a block as soon as it holds enough of its symbols. -/
theorem end_to_end (o : OpenFec σ) (nonsingular : ∀ k r rows, o.rows k r = some rows → Nonsingular k r rows)
    (media repairSsrc : BitVec 32) (mediaPt : Byte) (sent : List RtpFecSender.Call)
    (names : ∀ c ∈ sent, c.Names repairSsrc)
    (stream : ∀ p ∈ sent.flatMap RtpFecSender.Call.accepted, get32 p 8 = media ∧ byteAt p 1 &&& 127#8 = mediaPt)
    (single : ((sent.flatMap RtpFecSender.Call.accepted).map fun p => (get32 p 4, get16 p 2)).Nodup) :
    ∃ blocks, RtpFecSender.emitted o {} sent = blocks.flatMap (SentBlock.packets repairSsrc) ∧
      (∀ b ∈ blocks, b.Good o repairSsrc) ∧
      (blocks.flatMap SentBlock.sources).Sublist (sent.flatMap RtpFecSender.Call.accepted) ∧
      ∀ calls : List Call,
        (∀ c ∈ calls, c.Delivers (sent.flatMap RtpFecSender.Call.accepted) (RtpFecSender.emitted o {} sent)) →
        EndToEnd o repairSsrc (sent.flatMap RtpFecSender.Call.accepted) blocks (new media repairSsrc mediaPt)
          calls := by
  obtain ⟨blocks, repairs, sources⟩ :=
    RtpFecSender.run_takes (o := o) (s := {}) sent (RtpFecSender.between_nil rfl) names
  have sources : (blocks.flatMap SentBlock.sources).Sublist (sent.flatMap RtpFecSender.Call.accepted) :=
    (List.sublist_append_left _ _).trans sources
  have session : Session o media repairSsrc mediaPt (sent.flatMap RtpFecSender.Call.accepted) blocks :=
    { nonsingular
      good := repairs.good
      part := fun b member p source => sources.subset (List.mem_flatMap.mpr ⟨b, member, source⟩)
      apart := fun b member c member' p source source' => by
        have distinct := List.nodup_flatMap.mp (sources.nodup single.of_map)
        have symmetric : Std.Symm (Function.onFun List.Disjoint SentBlock.sources) :=
          ⟨fun _ _ disjoint => List.Disjoint.symm disjoint⟩
        by_contra other
        exact distinct.2.forall member member' other source source'
      accepted := fun p member => by
        obtain ⟨c, inside, taken⟩ := List.mem_flatMap.mp member
        exact RtpFecSender.accepted_accepts (names c inside) taken
      stream
      single := fun p member q member' timestamp seq =>
        List.inj_on_of_nodup_map single member member' (Prod.ext timestamp seq) }
  refine ⟨blocks, repairs.packets, repairs.good, sources, fun calls delivers => ?_⟩
  rw [repairs.packets] at delivers
  exact Session.endToEnd session delivers

/-- A large packet that earns the credit of one repair, and a frame of two packets. -/
def pairSent : List RtpFecSender.Call := [
  .addPacket ([0x80#8, 224#8] ++ put16 10#16 ++ put32 1#32 ++ put32 7#32 ++ List.replicate 488 0#8) 9#32 0 false,
  .addPacket (overlapSource 11#16) 9#32 1 false,
  .addPacket ([0x80#8, 224#8] ++ put16 12#16 ++ put32 1#32 ++ put32 7#32 ++ [12#8]) 9#32 2 false]

/-- The first packet of the frame comes, and the repair; the second packet is lost. -/
def pairCalls : List Call := (.addPacket (overlapSource 11#16) 3) ::
  (RtpFecSender.emitted FecDecoder.pairFec {} pairSent).map fun p => .addPacket p 4

theorem end_to_end_pair : ∃ blocks,
    RtpFecSender.emitted FecDecoder.pairFec {} pairSent = blocks.flatMap (SentBlock.packets 9#32) ∧ blocks ≠ [] ∧
      EndToEnd FecDecoder.pairFec 9#32 (pairSent.flatMap RtpFecSender.Call.accepted) blocks (new 7#32 9#32 96#8)
        pairCalls := by
  have nonsingular : ∀ k r rows, FecDecoder.pairFec.rows k r = some rows → Nonsingular k r rows := by
    intro k r rows there
    have pair : (if k = 2 ∧ r = 1 then some FecDecoder.pairRow else none) = some rows := there
    split at pair
    · rename_i sizes
      obtain ⟨rfl, rfl⟩ := sizes
      rw [← Option.some.inj pair]
      exact FecDecoder.pairRow_nonsingular
    · cases pair
  have names : ∀ c ∈ pairSent, c.Names 9#32 :=
    List.forall_mem_cons.mpr ⟨rfl, List.forall_mem_cons.mpr ⟨rfl, List.forall_mem_cons.mpr
      ⟨rfl, fun _ member => absurd member List.not_mem_nil⟩⟩⟩
  obtain ⟨blocks, emitted, good, -, rest⟩ := end_to_end FecDecoder.pairFec nonsingular 7#32 9#32 96#8 pairSent names
    (by decide +kernel) (by decide +kernel)
  have one : (RtpFecSender.emitted FecDecoder.pairFec {} pairSent).length = 1 := by decide +kernel
  refine ⟨blocks, emitted, ?_, rest pairCalls fun c member => ?_⟩
  · rintro rfl
    rw [emitted] at one
    cases one
  · rcases List.mem_cons.mp member with rfl | repair
    · exact Or.inl (by decide +kernel)
    · obtain ⟨p, sent, rfl⟩ := List.mem_map.mp repair
      exact Or.inr ⟨p, sent, Stamped.refl p⟩

end RtpFecReceiver

end MiniRtc.Fec
