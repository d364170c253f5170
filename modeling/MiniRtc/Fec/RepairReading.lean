import MiniRtc.Fec.Receiver
import MiniRtc.Fec.SentBlocks

/-! What a receiver reads of a repair (rtp_fec.cpp). On its way the packet may be numbered and its
header extension may be stamped; the rest is what the sender wrote. -/
namespace MiniRtc.Fec

open Wire

theorem ext_byteAt {a b : Bytes} (length : a.length = b.length) (same : ∀ i < a.length, byteAt a i = byteAt b i) :
    a = b := by
  refine List.ext_getElem length fun i inside inside' => ?_
  rw [← byteAt_eq inside, ← byteAt_eq inside']
  exact same i inside

theorem foldl_max_le {sizes : List Nat} {size most : Nat} (low : size ≤ most)
    (all : ∀ other ∈ sizes, other ≤ most) : sizes.foldl max size ≤ most := by
  induction sizes generalizing size with
  | nil => exact low
  | cons first sizes ih =>
    obtain ⟨here, others⟩ := List.forall_mem_cons.mp all
    exact ih (max_le low here) others

theorem get32_congr {p q : Bytes} {i : Nat} (same : ∀ j, i ≤ j → j < i + 4 → byteAt q j = byteAt p j) :
    get32 q i = get32 p i := by
  apply BitVec.eq_of_toNat_eq
  rw [get32_toNat, get32_toNat, same i le_rfl (by omega), same (i + 1) (by omega) (by omega),
    same (i + 2) (by omega) (by omega), same (i + 3) (by omega) (by omega)]

theorem get16_congr {p q : Bytes} {i : Nat} (first : byteAt q i = byteAt p i)
    (second : byteAt q (i + 1) = byteAt p (i + 1)) : get16 q i = get16 p i := by
  apply BitVec.eq_of_toNat_eq
  rw [get16_toNat, get16_toNat, first, second]

/-- The part of the header before the extension's contents, without the sequence number. -/
def fixedSize (p : Bytes) : Nat := 12 + 4 * (byteAt p 0 &&& 15#8).toNat

/-- The length of a header is read from its fixed part and the four octets behind it. -/
theorem headerSize_congr {p q : Bytes} (header : headerSize p ≠ 0) (longer : headerSize p < q.length)
    (first : byteAt q 0 = byteAt p 0)
    (same : ∀ i, fixedSize p ≤ i → i < fixedSize p + 4 → i < headerSize p → byteAt q i = byteAt p i) :
    headerSize q = headerSize p := by
  have low := (headerSize_spec header).1
  rw [fixedSize] at same
  unfold headerSize at header longer low same ⊢
  rw [first]
  split at header
  · exact absurd rfl header
  rename_i fits
  rw [if_neg fits] at longer low same ⊢
  rw [not_or, not_or] at fits
  dsimp only at header longer low same ⊢
  generalize 12 + 4 * (byteAt p 0 &&& 15#8).toNat = fixed at *
  split at header
  · exact absurd rfl header
  rename_i whole
  rw [if_neg whole] at longer low same ⊢
  split at header
  · rename_i extended
    rw [if_pos extended] at longer low same
    rw [if_pos extended, if_pos extended]
    split at header
    · exact absurd rfl header
    rename_i room
    rw [if_neg room] at longer low same ⊢
    split at header
    · rename_i inside
      rw [if_pos inside] at longer low same ⊢
      have words : get16 q (fixed + 2) = get16 p (fixed + 2) :=
        get16_congr (same _ (by omega) (by omega) (by omega)) (same _ (by omega) (by omega) (by omega))
      rw [words, if_neg, if_neg (by omega), if_neg (by omega), if_pos (by omega)]
      rintro (short | bad)
      · omega
      · exact bad.elim fits.2.1 fits.2.2
    · exact absurd rfl header
  · rename_i plain
    rw [if_neg plain] at longer low same
    rw [if_neg plain, if_neg plain]
    split at header
    · rename_i inside
      rw [if_pos inside] at longer low same ⊢
      rw [if_neg, if_neg (by omega), if_pos (by omega)]
      rintro (short | bad)
      · omega
      · exact bad.elim fits.2.1 fits.2.2
    · exact absurd rfl header

/-- What the pacer and the send time make of a packet: its sequence number and the contents of its header
extension may be others. -/
structure Stamped (p q : Bytes) : Prop where
  length : q.length = p.length
  same : ∀ i, i < 2 ∨ 4 ≤ i ∧ i < fixedSize p + 4 ∨ headerSize p ≤ i → byteAt q i = byteAt p i

theorem Stamped.refl (p : Bytes) : Stamped p p := ⟨rfl, fun _ _ => rfl⟩

namespace Stamped

variable {p q : Bytes} (stamped : Stamped p q)
include stamped

theorem headerSize_eq (header : headerSize p ≠ 0) : headerSize q = headerSize p := by
  refine headerSize_congr header ?_ (stamped.same 0 (Or.inl (by omega))) fun i low high _ =>
    stamped.same i (Or.inr (Or.inl ?_))
  · rw [stamped.length]
    exact (headerSize_spec header).2
  · rw [fixedSize] at low
    omega

theorem get32_eq {i : Nat} (low : 4 ≤ i) (high : i ≤ 8) : get32 q i = get32 p i :=
  get32_congr fun j before after => stamped.same j (Or.inr (Or.inl (by rw [fixedSize]; omega)))

theorem drop_eq {n : Nat} (behind : headerSize p ≤ n) : q.drop n = p.drop n := by
  refine ext_byteAt (by rw [List.length_drop, List.length_drop, stamped.length]) fun i _ => ?_
  rw [byteAt_drop, byteAt_drop]
  exact stamped.same _ (Or.inr (Or.inr (by omega)))

end Stamped

/-! ### The packet of a repair -/

section RepairPacket

variable {repairSsrc : BitVec 32} {pending : FecSymbols} {size repairCount index : Nat} {symbol : Bytes}

/-- The header of the packet, as long as that of the last source. -/
def repairFront (repairSsrc : BitVec 32) (last : Bytes) : Bytes :=
  [byteAt last 0, kRsFecPayloadType] ++ put16 0#16 ++ slice last 4 4 ++ put32 repairSsrc ++
    slice last 12 (headerSize last - 12)

/-- What stands between the header and the symbol. -/
def repairFields (pending : FecSymbols) (size repairCount index : Nat) : Bytes :=
  [0x4d#8, 0x46#8, 1#8, BitVec.ofNat 8 pending.length, BitVec.ofNat 8 repairCount,
    BitVec.ofNat 8 (pending.length + index)] ++ put16 (BitVec.ofNat 16 size) ++ put32 (get32 (pending.headD []) 8) ++
    put16 (get16 (pending.headD []) 2) ++ [0#8, 0#8]

theorem repairPacket_eq : repairPacket repairSsrc pending size repairCount index symbol =
    repairFront repairSsrc (pending.getLastD []) ++ (repairFields pending size repairCount index ++ symbol) := by
  rw [← List.append_assoc]
  rfl

theorem length_repairFields : (repairFields pending size repairCount index).length = kFecHeaderSize := rfl

variable (repairSsrc) {last : Bytes} (header : headerSize last ≠ 0)
include header

theorem length_repairFront : (repairFront repairSsrc last).length = headerSize last := by
  obtain ⟨low, high⟩ := headerSize_spec header
  simp only [repairFront, put16, put32, slice, List.length_append, List.length_cons, List.length_nil, List.length_take,
    List.length_drop]
  omega

theorem repairFront_timestamp (rest : Bytes) : get32 (repairFront repairSsrc last ++ rest) 4 = get32 last 4 := by
  have high := headerSize_spec header
  have four : slice last 4 4 = put32 (get32 last 4) := (put32_get32 (by omega)).symm
  rw [repairFront, four]
  simp only [List.append_assoc]
  exact get32_put32 [byteAt last 0, kRsFecPayloadType, 0#8, 0#8] _ _ 4 rfl

theorem repairFront_ssrc (rest : Bytes) : get32 (repairFront repairSsrc last ++ rest) 8 = repairSsrc := by
  have high := headerSize_spec header
  have four : slice last 4 4 = put32 (get32 last 4) := (put32_get32 (by omega)).symm
  rw [repairFront, four]
  simp only [List.append_assoc]
  exact get32_put32 ([byteAt last 0, kRsFecPayloadType, 0#8, 0#8] ++ put32 (get32 last 4)) _ _ 8 rfl

theorem repairFront_behind {i : Nat} (low : 12 ≤ i) (high : i < headerSize last) (rest : Bytes) :
    byteAt (repairFront repairSsrc last ++ rest) i = byteAt last i := by
  have whole := headerSize_spec header
  have four : slice last 4 4 = put32 (get32 last 4) := (put32_get32 (by omega)).symm
  obtain ⟨j, rfl⟩ := Nat.exists_eq_add_of_le low
  rw [byteAt_append_left (by rw [length_repairFront repairSsrc header]; exact high), repairFront, four]
  have front : ([byteAt last 0, kRsFecPayloadType] ++ put16 0#16 ++ put32 (get32 last 4) ++ put32 repairSsrc).length =
      12 := rfl
  rw [← front, byteAt_append_add, slice, byteAt_take (by omega), byteAt_drop, front]

theorem headerSize_repairFront {rest : Bytes} (some' : rest ≠ []) :
    headerSize (repairFront repairSsrc last ++ rest) = headerSize last := by
  refine headerSize_congr header ?_ rfl fun i low _ inside => repairFront_behind repairSsrc header ?_ inside rest
  · rw [List.length_append, length_repairFront repairSsrc header]
    have more := List.length_pos_iff.mpr some'
    omega
  · rw [fixedSize] at low
    omega

end RepairPacket

/-! ### The receiver -/

namespace SentBlock

variable {σ : Type} {o : OpenFec σ} {repairSsrc : BitVec 32} {b : SentBlock}

def first (b : SentBlock) : Bytes := b.sources.headD []

namespace Good

variable (good : b.Good o repairSsrc)
include good

theorem first_mem : b.first ∈ b.sources := by
  obtain ⟨p, rest, same⟩ := List.exists_cons_of_ne_nil good.some
  rw [first, same]
  exact List.mem_cons_self

theorem last_mem : b.sources.getLastD [] ∈ b.sources := by
  rw [List.getLastD_eq_getLast?, List.getLast?_eq_some_getLast good.some]
  exact List.getLast_mem good.some

/-- The sources of a block have its stream and its timestamp, and their sequence numbers count up from the first. -/
theorem source_fields {i : Nat} (inside : i < b.sources.length) : get32 b.sources[i] 8 = get32 b.first 8 ∧
    get32 b.sources[i] 4 = get32 b.first 4 ∧ get16 b.sources[i] 2 = get16 b.first 2 + BitVec.ofNat 16 i := by
  induction i with
  | zero =>
    have same : b.first = b.sources[0] := by
      obtain ⟨p, rest, same⟩ := List.exists_cons_of_ne_nil good.some
      simp only [first, same]
      rfl
    rw [same]
    exact ⟨rfl, rfl, (BitVec.add_zero _).symm⟩
  | succ i ih =>
    obtain ⟨ssrc, timestamp, seq⟩ := ih (Nat.lt_of_succ_lt inside)
    obtain ⟨ssrc', timestamp', seq'⟩ := List.isChain_iff_getElem.mp good.chain i inside
    refine ⟨ssrc'.trans ssrc, timestamp'.trans timestamp, ?_⟩
    rw [seq', seq, BitVec.ofNat_add, BitVec.add_assoc]

theorem fields {p : Bytes} (member : p ∈ b.sources) : get32 p 8 = get32 b.first 8 ∧ get32 p 4 = get32 b.first 4 := by
  obtain ⟨i, inside, rfl⟩ := List.getElem_of_mem member
  exact ⟨(good.source_fields inside).1, (good.source_fields inside).2.1⟩

theorem accepted_spec {p : Bytes} (member : p ∈ b.sources) : headerSize p ≠ 0 ∧ p.length ≤ kFecMaxMediaPacket ∧
    repairSsrc ≠ get32 p 8 := by
  have accepted := good.accepted p member
  simp only [RtpFecSender.accepts, Bool.and_eq_true, decide_eq_true_eq] at accepted
  exact ⟨accepted.1.1.1, accepted.1.1.2, accepted.2⟩

theorem size_bounds : 14 ≤ b.size ∧ b.size ≤ kFecMaxMediaPacket + 2 := by
  constructor
  · have low := headerSize_spec (good.accepted_spec good.first_mem).1
    have fits := le_symbolSize good.first_mem
    rw [size]
    omega
  · refine foldl_max_le (Nat.zero_le _) fun size member => ?_
    obtain ⟨p, inside, rfl⟩ := List.mem_map.mp member
    exact Nat.add_le_add_right (good.accepted_spec inside).2.1 2

/-- The block as the coder takes it. -/
theorem encodedBlock (nonsingular : ∀ k r rows, o.rows k r = Option.some rows → Nonsingular k r rows) :
    Encoded o b.sources.length b.symbols.length b.size (b.sources.map (padded b.size)) b.symbols where
  fewSources := ⟨List.length_pos_iff.mpr good.some, good.few⟩
  fewRepairs := good.repairs
  count := List.length_map _
  sizes source member := by
    obtain ⟨p, inside, rfl⟩ := List.mem_map.mp member
    exact length_padded (le_symbolSize inside)
  encoded := good.encoded
  nonsingular rows there := nonsingular _ _ rows there

end Good

end SentBlock

theorem Encoded.codeword_symbol {σ : Type} {o : OpenFec σ} {k r size : Nat} {sources repairs : FecSymbols}
    (block : Encoded o k r size sources repairs) (i : Nat) :
    codeword sources repairs (k + i) = symbolAt repairs i := by
  rw [codeword, symbolAt, ← block.count, List.getD_append_right _ _ _ _ (Nat.le_add_right _ _),
    Nat.add_sub_cancel_left]
  rfl

/-- What a receiver of the stream reads of a repair. -/
structure RepairRead {σ : Type} (r : RtpFecReceiver σ) (b : SentBlock) (index : Nat) (q : Bytes) : Prop where
  whole : headerSize q ≠ 0
  short : q.length ≤ kFecMaxWirePacket
  other : r.isMedia q = false
  repair : r.isRepair q = true
  header : r.repairHeader q =
    some ⟨b.sources.length, b.symbols.length, b.sources.length + index, b.size, get16 b.first 2⟩
  timestamp : get32 q 4 = get32 b.first 4
  symbol : q.drop (headerSize q + kFecHeaderSize) = symbolAt b.symbols index

theorem repairFields_reads {b : SentBlock} {index : Nat} (symbol : Bytes) (few : b.sources.length ≤ kFecMaxSources)
    (few' : b.symbols.length ≤ kFecMaxRepairs) (inside : index < b.symbols.length)
    (size : b.size ≤ kFecMaxMediaPacket + 2) (h : Bytes)
    (same : h = repairFields b.sources b.size b.symbols.length index ++ symbol) :
    (byteAt h 0 = 0x4d#8 ∧ byteAt h 1 = 0x46#8 ∧ byteAt h 2 = 1#8 ∧ byteAt h 14 = 0#8 ∧ byteAt h 15 = 0#8) ∧
      ((byteAt h 3).toNat = b.sources.length ∧ (byteAt h 4).toNat = b.symbols.length ∧
        (byteAt h 5).toNat = b.sources.length + index) ∧
      (get16 h 6).toNat = b.size ∧ get32 h 8 = get32 b.first 8 ∧ get16 h 12 = get16 b.first 2 := by
  subst same
  simp only [kFecMaxSources, kFecMaxRepairs, kFecMaxMediaPacket] at few few' size
  refine ⟨⟨rfl, rfl, rfl, rfl, rfl⟩, ⟨?_, ?_, ?_⟩, ?_, ?_, ?_⟩
  · change (BitVec.ofNat 8 b.sources.length).toNat = _
    rw [BitVec.toNat_ofNat]
    omega
  · change (BitVec.ofNat 8 b.symbols.length).toNat = _
    rw [BitVec.toNat_ofNat]
    omega
  · change (BitVec.ofNat 8 (b.sources.length + index)).toNat = _
    rw [BitVec.toNat_ofNat]
    omega
  · have word : get16 (repairFields b.sources b.size b.symbols.length index ++ symbol) 6 = BitVec.ofNat 16 b.size :=
      get16_put16 [0x4d#8, 0x46#8, 1#8, BitVec.ofNat 8 b.sources.length, BitVec.ofNat 8 b.symbols.length,
        BitVec.ofNat 8 (b.sources.length + index)] _ _ 6 rfl
    rw [word, BitVec.toNat_ofNat]
    omega
  · exact get32_put32 ([0x4d#8, 0x46#8, 1#8, BitVec.ofNat 8 b.sources.length, BitVec.ofNat 8 b.symbols.length,
      BitVec.ofNat 8 (b.sources.length + index)] ++ put16 (BitVec.ofNat 16 b.size)) _ _ 8 rfl
  · exact get16_put16 ([0x4d#8, 0x46#8, 1#8, BitVec.ofNat 8 b.sources.length, BitVec.ofNat 8 b.symbols.length,
      BitVec.ofNat 8 (b.sources.length + index)] ++ put16 (BitVec.ofNat 16 b.size) ++ put32 (get32 b.first 8))
      _ _ 12 rfl

/-- The receiver reads of a repair what the sender wrote. -/
theorem repair_read {σ : Type} {o : OpenFec σ} {repairSsrc : BitVec 32} {b : SentBlock} (good : b.Good o repairSsrc)
    (nonsingular : ∀ k r rows, o.rows k r = some rows → Nonsingular k r rows) {r : RtpFecReceiver σ}
    (media : r.mediaSsrc = get32 b.first 8) (stream : r.repairSsrc = repairSsrc) {index : Nat}
    (inside : index < b.symbols.length) {q : Bytes}
    (stamped : Stamped (repairPacket repairSsrc b.sources b.size b.symbols.length index b.symbols[index]) q) :
    RepairRead r b index q := by
  have block := good.encodedBlock nonsingular
  have size := good.size_bounds
  have last := (good.accepted_spec good.last_mem).1
  have first := good.accepted_spec good.first_mem
  have symbol : symbolAt b.symbols index = b.symbols[index] := symbolAt_eq inside
  have length : b.symbols[index].length = b.size := by
    rw [← symbol, ← block.codeword_symbol]
    exact block.length_codeword (Nat.add_lt_add_left inside _)
  have wire : (repairPacket repairSsrc b.sources b.size b.symbols.length index b.symbols[index]).length =
      headerSize (b.sources.getLastD []) + kFecHeaderSize + b.size := length_repairPacket last length
  have fits : headerSize (b.sources.getLastD []) + kFecHeaderSize + b.size ≤ kFecMaxWirePacket := good.fits
  have some' : repairFields b.sources b.size b.symbols.length index ++ b.symbols[index] ≠ [] := List.cons_ne_nil _ _
  rw [repairPacket_eq] at stamped wire
  have whole := headerSize_repairFront repairSsrc last some'
  have header := (stamped.headerSize_eq (whole ▸ last)).trans whole
  have length' : q.length = headerSize (b.sources.getLastD []) + kFecHeaderSize + b.size := stamped.length.trans wire
  have front := length_repairFront repairSsrc last
  have ssrc : get32 q 8 = repairSsrc := (stamped.get32_eq (by decide) le_rfl).trans (repairFront_ssrc repairSsrc last _)
  have type : byteAt q 1 = kRsFecPayloadType := stamped.same 1 (Or.inl (by decide))
  have rest : q.drop (headerSize (b.sources.getLastD [])) =
      repairFields b.sources b.size b.symbols.length index ++ b.symbols[index] := by
    rw [stamped.drop_eq whole.le, ← front, List.drop_left]
  refine ⟨header ▸ last, by omega, ?_, ?_, ?_, ?_, ?_⟩
  · rw [RtpFecReceiver.isMedia, ssrc, media, decide_eq_false first.2.2, Bool.and_false, Bool.false_and]
  · rw [RtpFecReceiver.isRepair, ssrc, stream, type, header, length']
    simp only [Bool.and_eq_true, decide_eq_true_eq]
    refine ⟨⟨by decide, trivial⟩, by omega⟩
  · have fields := repairFields_reads b.symbols[index] good.few good.repairs.2 inside size.2 _ rest
    obtain ⟨⟨mark, mark', version, zero, zero'⟩, ⟨k, r', id⟩, size', ssrc', base⟩ := fields
    unfold RtpFecReceiver.repairHeader
    dsimp only
    rw [header, mark, mark', version, zero, zero', k, r', id, size', ssrc', base, length', media]
    have some'' := List.length_pos_iff.mpr good.some
    have few := good.few
    have repairs := good.repairs
    rw [if_neg]
    simp only [ne_eq, not_true_eq_false, false_or, not_or, not_lt]
    exact ⟨by omega, few, by omega, repairs.2, by omega, by omega, size.1, size.2, not_not.mpr (by omega),
      not_false⟩
  · rw [stamped.get32_eq le_rfl (by decide), repairFront_timestamp repairSsrc last]
    exact (good.fields good.last_mem).2
  · rw [header, ← List.drop_drop, rest, ← length_repairFields, List.drop_left, symbol]

end MiniRtc.Fec
