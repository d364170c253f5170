import MiniRtc.Fec.SmallRs

/-! The encoder and the decoder of a block (fec_encoder.cpp, fec_decoder.cpp). Small blocks use their
own code; larger ones use a session of OpenFEC, which is a parameter. The decoder collects symbols in
any order until there are as many as sources. -/
namespace MiniRtc.Fec

open Wire

/-- What OpenFEC does: the rows of a small block, the repairs of another, and a session that decodes. -/
structure OpenFec (σ : Type) where
  rows : Nat → Nat → Option Coefficients
  encode : FecSymbols → Nat → Option FecSymbols
  create : (k repairs size : Nat) → Option σ
  decode : σ → FecSymbols → Nat → Bool × σ × FecSymbols
  complete : σ → Bool

def kMaxSymbols : Nat := 255

def kMaxSymbolSize : Nat := 1400

variable {σ : Type} (o : OpenFec σ)

def encodeSymbols (sources : FecSymbols) (repairCount : Nat) : Option FecSymbols :=
  let k := sources.length
  let size := (symbolAt sources 0).length
  if k = 0 ∨ kMaxSymbols < k ∨ kMaxSymbols - k < repairCount then none
  else if size = 0 ∨ kMaxSymbolSize < size then none
  else if sources.any fun source => source.length ≠ size then none
  else if repairCount = 0 then some []
  else if supportsSmallRs k repairCount then encodeSmallRs o.rows sources repairCount
  else o.encode sources repairCount

structure DecoderState (σ : Type) where
  session : Option σ := none
  k : Nat := 0
  size : Nat := 0
  received : Nat := 0
  repairs : Nat := 0
  small : Bool := false
  complete : Bool := false
  failed : Bool := false
  symbols : FecSymbols := []
  seen : List Bool := []

/-- A decoder is empty until it is reset. -/
abbrev FecDecoder (σ : Type) := Option (DecoderState σ)

inductive Result where
  | accepted | duplicate | complete | invalid | error
deriving DecidableEq, Repr

namespace FecDecoder

/-- The buffers of a state are used again unless it has a session. -/
def reused (d : FecDecoder σ) (plain : Bool) : DecoderState σ :=
  match d with
  | none => {}
  | some s => if plain && s.session.isNone then s else {}

def reset (d : FecDecoder σ) (k repairs size : Nat) : Bool × FecDecoder σ :=
  if k = 0 ∨ kMaxSymbols < k ∨ kMaxSymbols - k < repairs ∨ size = 0 ∨ kMaxSymbolSize < size then (false, none)
  else
    let small := supportsSmallRs k repairs
    let state := { reused d (small || repairs = 0) with
      k, size, repairs, small
      received := 0
      complete := false
      failed := false
      symbols := List.replicate (k + repairs) (List.replicate size 0#8)
      seen := List.replicate (k + repairs) false }
    if repairs ≠ 0 ∧ small = false then
      match o.create k repairs size with
      | none => (false, none)
      | some session => (true, some { state with session := some session })
    else (true, some state)

/-- A symbol that is new to the state. -/
def take (s : DecoderState σ) (id : Nat) (data : Bytes) : DecoderState σ :=
  { s with symbols := s.symbols.set id data, seen := s.seen.set id true, received := s.received + 1 }

/-- What the state makes of the symbols that it has. -/
def advance (s : DecoderState σ) (id : Nat) : Result × DecoderState σ :=
  match s.session with
  | some session =>
    let (ok, session, symbols) := o.decode session s.symbols id
    if ok = false then (.error, { s with session := some session, symbols, failed := true })
    else
      let complete := o.complete session
      (if complete then .complete else .accepted, { s with session := some session, symbols, complete })
  | none =>
    if s.small = true ∧ s.k ≤ s.received then
      let (solved, symbols) := decodeSmallRs o.rows s.k s.repairs s.seen s.symbols
      if solved then (.complete, { s with symbols, complete := true })
      else (.error, { s with symbols, failed := true })
    else if s.small = false then
      let complete := s.received = s.k
      (if complete then .complete else .accepted, { s with complete })
    else (if s.complete then .complete else .accepted, s)

def addSymbol (d : FecDecoder σ) (id : Nat) (data : Option Bytes) : Result × FecDecoder σ :=
  match d, data with
  | some s, some data =>
    if s.symbols.length ≤ id ∨ data.length ≠ s.size then (.invalid, d)
    else if s.failed then (.error, d)
    else if s.seen.getD id false then (if symbolAt s.symbols id = data then .duplicate else .invalid, d)
    else if s.complete then (.complete, d)
    else
      let (result, s) := advance o (take s id data) id
      (result, some s)
  | _, _ => (.invalid, d)

def complete (d : FecDecoder σ) : Bool := d.any (·.complete)

def symbols (d : FecDecoder σ) : FecSymbols := d.elim [] (·.symbols)

/-- A call of `AddSymbol`. -/
abbrev Call := Nat × Option Bytes

def after (d : FecDecoder σ) (calls : List Call) : FecDecoder σ :=
  calls.foldl (fun d c => (addSymbol o d c.1 c.2).2) d

end FecDecoder

/-! ### Blocks -/

/-- A block of a small code with its repairs. -/
structure Encoded (o : OpenFec σ) (k r size : Nat) (sources repairs : FecSymbols) : Prop where
  fewSources : 1 ≤ k ∧ k ≤ kRsSmallMaxSources
  fewRepairs : 1 ≤ r ∧ r ≤ kRsSmallMaxRepairs
  count : sources.length = k
  sizes : ∀ source ∈ sources, source.length = size
  encoded : encodeSymbols o sources r = some repairs
  nonsingular : ∀ rows, o.rows k r = some rows → Nonsingular k r rows

theorem supportsSmallRs_iff {k r : Nat} : supportsSmallRs k r = true ↔
    (1 ≤ k ∧ k ≤ kRsSmallMaxSources) ∧ 1 ≤ r ∧ r ≤ kRsSmallMaxRepairs := by
  simp only [supportsSmallRs, Bool.and_eq_true, decide_eq_true_eq]
  omega

/-- What the encoder has checked of a small block, and computed. -/
theorem encodeSymbols_small {sources repairs : FecSymbols} {r : Nat} (encoded : encodeSymbols o sources r = some repairs)
    (fewSources : sources.length ≤ kRsSmallMaxSources) (fewRepairs : 1 ≤ r ∧ r ≤ kRsSmallMaxRepairs) :
    sources ≠ [] ∧ (1 ≤ (symbolAt sources 0).length ∧ (symbolAt sources 0).length ≤ kMaxSymbolSize) ∧
      Sized (symbolAt sources 0).length sources ∧
      ∃ rows, o.rows sources.length r = some rows ∧ repairs = (List.range r).map (repair rows sources) := by
  unfold encodeSymbols at encoded
  simp only at encoded
  split at encoded
  · cases encoded
  rename_i counts
  split at encoded
  · cases encoded
  rename_i fits
  split at encoded
  · cases encoded
  rename_i even
  have small : supportsSmallRs sources.length r = true := supportsSmallRs_iff.mpr ⟨⟨by omega, fewSources⟩, fewRepairs⟩
  rw [if_neg (by omega), if_pos small] at encoded
  simp only [encodeSmallRs, Option.map_eq_some_iff] at encoded
  obtain ⟨rows, there, rfl⟩ := encoded
  refine ⟨fun none => ?_, by omega, fun i hi => ?_, rows, there, rfl⟩
  · rw [none] at counts
    exact counts (Or.inl rfl)
  · rw [symbolAt_eq hi]
    by_contra other
    exact even (List.any_eq_true.mpr ⟨_, List.getElem_mem hi, decide_eq_true other⟩)

/-- The symbol of a block with this id. -/
def codeword (sources repairs : FecSymbols) (id : Nat) : Bytes := symbolAt (sources ++ repairs) id

namespace Encoded

variable {o} {k r size : Nat} {sources repairs : FecSymbols} (block : Encoded o k r size sources repairs)
include block

theorem small : supportsSmallRs k r = true := supportsSmallRs_iff.mpr ⟨block.fewSources, block.fewRepairs⟩

theorem ne_nil : sources ≠ [] := by
  intro none
  have count := block.count
  have few := block.fewSources.1
  rw [none, List.length_nil] at count
  omega

theorem even : Sized size sources := by
  intro i hi
  rw [symbolAt_eq hi]
  exact block.sizes _ (List.getElem_mem hi)

/-- What the encoder has checked and computed. -/
theorem rows : (1 ≤ size ∧ size ≤ kMaxSymbolSize) ∧
    ∃ rows, o.rows k r = some rows ∧ repairs = (List.range r).map (repair rows sources) := by
  obtain ⟨-, bounds, -, rows⟩ := encodeSymbols_small o block.encoded (block.count.le.trans block.fewSources.2)
    block.fewRepairs
  rw [block.even 0 (List.length_pos_iff.mpr block.ne_nil)] at bounds
  rw [block.count] at rows
  exact ⟨bounds, rows⟩

theorem codeword_source {id : Nat} (source : id < k) : codeword sources repairs id = symbolAt sources id := by
  rw [codeword, symbolAt, List.getD_append _ _ _ _ (block.count ▸ source)]
  rfl

theorem codeword_repair {rows : Coefficients} (there : o.rows k r = some rows) {id : Nat} (below : id < r) :
    codeword sources repairs (k + id) = repair rows sources id := by
  obtain ⟨-, rows', there', rfl⟩ := block.rows
  cases there.symm.trans there'
  rw [codeword, symbolAt, ← block.count, List.getD_append_right _ _ _ _ (Nat.le_add_right _ _), Nat.add_sub_cancel_left]
  simp [below]

theorem length_codeword {id : Nat} (inside : id < k + r) : (codeword sources repairs id).length = size := by
  by_cases source : id < k
  · rw [block.codeword_source source]
    exact block.even id (block.count ▸ source)
  · obtain ⟨-, rows, there, -⟩ := block.rows
    obtain ⟨place, rfl⟩ := Nat.exists_eq_add_of_le (not_lt.mp source)
    rw [block.codeword_repair there (by omega)]
    exact (repair_word block.ne_nil block.even place).1

end Encoded

/-! ### The order of the symbols -/

namespace FecDecoder

/-- A call that names a symbol of the block and has its size. -/
def Valid (k r size : Nat) (c : Call) : Prop := c.1 < k + r ∧ c.2.map List.length = some size

instance (k r size : Nat) (c : Call) : Decidable (Valid k r size c) :=
  inferInstanceAs (Decidable (_ ∧ _))

/-- The ids of all valid calls. -/
def offered (k r size : Nat) (calls : List Call) : Finset Nat :=
  ((calls.filter fun c => Valid k r size c).map Prod.fst).toFinset

/-- The first ids of these, until there are as many as sources. -/
def stored (k r size : Nat) (calls : List Call) : Finset Nat :=
  calls.foldl (fun ids c => if Valid k r size c ∧ ids.card < k then insert c.1 ids else ids) ∅

/-- A valid call has the symbol of its id, unless a call before it had it. -/
def Genuine (k r size : Nat) (sources repairs : FecSymbols) (calls : List Call) (c : Call) : Prop :=
  Valid k r size c → c.2 = some (codeword sources repairs c.1) ∨
    (c.1, some (codeword sources repairs c.1)) ∈ calls

/-- Sequences of calls with the symbols of a block. -/
inductive Sequence (k r size : Nat) (sources repairs : FecSymbols) : List Call → Prop
  | nil : Sequence k r size sources repairs []
  | concat {calls : List Call} {c : Call} (before : Sequence k r size sources repairs calls)
      (genuine : Genuine k r size sources repairs calls c) : Sequence k r size sources repairs (calls ++ [c])

variable {o} {k r size : Nat} {sources repairs : FecSymbols}

theorem offered_concat (calls : List Call) (c : Call) : offered k r size (calls ++ [c]) =
    if Valid k r size c then insert c.1 (offered k r size calls) else offered k r size calls := by
  unfold offered
  rw [List.filter_append, List.map_append, List.toFinset_append]
  split
  · rename_i valid
    simp [valid, Finset.union_comm]
  · rename_i invalid
    simp [invalid]

theorem stored_concat (calls : List Call) (c : Call) : stored k r size (calls ++ [c]) =
    if Valid k r size c ∧ (stored k r size calls).card < k then insert c.1 (stored k r size calls)
    else stored k r size calls := by
  rw [stored, List.foldl_append]
  rfl

/-- All ids are stored until there are enough. -/
theorem stored_eq (calls : List Call) :
    stored k r size calls ⊆ offered k r size calls ∧ (stored k r size calls).card ≤ k ∧
      ((stored k r size calls).card < k → stored k r size calls = offered k r size calls) := by
  induction calls using List.reverseRecOn with
  | nil => exact ⟨Finset.Subset.refl _, Nat.zero_le _, fun _ => rfl⟩
  | append_singleton calls c ih =>
    obtain ⟨inside, most, all⟩ := ih
    rw [stored_concat, offered_concat]
    by_cases valid : Valid k r size c
    · by_cases few : (stored k r size calls).card < k
      · rw [if_pos ⟨valid, few⟩, if_pos valid, all few]
        have card := Finset.card_insert_le c.1 (offered k r size calls)
        rw [all few] at few
        exact ⟨Finset.Subset.refl _, by omega, fun _ => rfl⟩
      · rw [if_neg (fun both => few both.2), if_pos valid]
        exact ⟨inside.trans (Finset.subset_insert _ _), most, fun less => absurd less few⟩
    · rw [if_neg (fun both => valid both.1), if_neg valid]
      exact ⟨inside, most, all⟩

theorem stored_card (calls : List Call) :
    (stored k r size calls).card = k ↔ k ≤ (offered k r size calls).card := by
  obtain ⟨inside, most, all⟩ : stored k r size calls ⊆ offered k r size calls ∧ (stored k r size calls).card ≤ k ∧
      ((stored k r size calls).card < k → stored k r size calls = offered k r size calls) := stored_eq calls
  constructor
  · intro full
    have card := Finset.card_le_card inside
    omega
  · intro enough
    by_contra few
    have less : (stored k r size calls).card < k := by omega
    rw [← all less] at enough
    omega

/-- The state of a decoder that has stored these ids of a block. -/
structure Stores (k r size : Nat) (sources repairs : FecSymbols) (ids : Finset Nat) (s : DecoderState σ) : Prop where
  session : s.session = none
  shape : s.k = k ∧ s.repairs = r ∧ s.size = size
  small : s.small = true
  failed : s.failed = false
  received : s.received = ids.card
  length : s.symbols.length = k + r
  sized : Sized size s.symbols
  slots : s.seen.length = k + r
  seen : ∀ id, s.seen.getD id false = true ↔ id ∈ ids
  inside : ∀ id ∈ ids, id < k + r
  symbols : ∀ id ∈ ids, symbolAt s.symbols id = codeword sources repairs id

/-- It has restored the sources once there are enough. -/
structure Holds (k r size : Nat) (sources repairs : FecSymbols) (ids : Finset Nat) (s : DecoderState σ) : Prop
    extends Stores k r size sources repairs ids s where
  complete : s.complete = decide (ids.card = k)
  restored : ids.card = k → ∀ id < k, symbolAt s.symbols id = symbolAt sources id

theorem getD_replicate (n id : Nat) : (List.replicate n false).getD id false = false := by
  rw [List.getD_eq_getElem?_getD, List.getElem?_replicate]
  split
  · rfl
  · rfl

/-- A decoder that is reset for a small block, whatever it was before. -/
theorem reset_small (block : Encoded o k r size sources repairs) (d : FecDecoder σ) :
    ∃ s : DecoderState σ, reset o d k r size = (true, some s) ∧ Holds k r size sources repairs ∅ s ∧
      s = {
        k := k, size := size, repairs := r, small := true
        symbols := List.replicate (k + r) (List.replicate size 0#8), seen := List.replicate (k + r) false } := by
  obtain ⟨bounds, -⟩ := block.rows
  have few := block.fewSources
  have few' := block.fewRepairs
  have small := block.small
  simp only [kRsSmallMaxSources, kRsSmallMaxRepairs, kMaxSymbolSize] at few few' bounds
  have valid : ¬ (k = 0 ∨ kMaxSymbols < k ∨ kMaxSymbols - k < r ∨ size = 0 ∨ kMaxSymbolSize < size) := by
    simp only [kMaxSymbols, kMaxSymbolSize]
    omega
  have plain : (reused d true).session = none := by
    unfold reused
    cases d with
    | none => rfl
    | some s =>
      simp only [Bool.true_and]
      split
      · rename_i none'
        exact Option.isNone_iff_eq_none.mp none'
      · rfl
  refine ⟨_, ?_, ?_, rfl⟩
  · unfold reset
    rw [if_neg valid]
    simp only [small, Bool.true_or, Bool.true_eq_false, and_false, if_false, plain]
  · have some' : ¬ (∅ : Finset Nat).card = k := by
      rw [Finset.card_empty]
      omega
    refine ⟨⟨rfl, ⟨rfl, rfl, rfl⟩, rfl, rfl, rfl, List.length_replicate, fun i hi => ?_, List.length_replicate,
      fun id => ?_, fun id member => absurd member (Finset.notMem_empty id),
      fun id member => absurd member (Finset.notMem_empty id)⟩, (decide_eq_false some').symm,
      fun full => absurd full some'⟩
    · rw [List.length_replicate] at hi
      simp [symbolAt, hi]
    · simp only [getD_replicate, Bool.false_eq_true, Finset.notMem_empty]

namespace Stores

variable {ids : Finset Nat} {s : DecoderState σ}

/-- The ids are those of the sources and of the repairs that are seen. -/
theorem card_eq (stores : Stores k r size sources repairs ids s) :
    ids.card + (missingSources k s.seen).length = k + (seenRepairs k r s.seen).length := by
  have whole : ids = ((List.range (k + r)).filter fun id => s.seen.getD id false).toFinset := by
    ext id
    rw [List.mem_toFinset, List.mem_filter, stores.seen, List.mem_range]
    exact ⟨fun member => ⟨stores.inside id member, member⟩, fun both => both.2⟩
  have card : ids.card = ((List.range (k + r)).filter fun id => s.seen.getD id false).length := by
    conv_lhs => rw [whole]
    exact List.toFinset_card_of_nodup (List.nodup_range.filter _)
  rw [List.range_add, List.filter_append, List.length_append, List.filter_map, List.length_map] at card
  have parts := List.length_eq_length_filter_add (l := List.range k) fun id => s.seen.getD id false
  rw [List.length_range] at parts
  have missing : (missingSources k s.seen).length =
      ((List.range k).filter fun id => !s.seen.getD id false).length := rfl
  have repairs' : (seenRepairs k r s.seen).length =
      ((List.range r).filter ((fun id => s.seen.getD id false) ∘ (k + ·))).length := rfl
  omega

theorem received_block (stores : Stores k r size sources repairs ids s) (block : Encoded o k r size sources repairs)
    {rows : Coefficients} (there : o.rows k r = some rows) : Received rows k r size sources s.seen s.symbols where
  some := block.ne_nil
  count := block.count
  even := block.even
  length := stores.length
  sized := stores.sized
  known := fun col source seen =>
    (stores.symbols col ((stores.seen col).mp seen)).trans (block.codeword_source source)
  repairs := fun id below seen =>
    (stores.symbols (k + id) ((stores.seen (k + id)).mp seen)).trans (block.codeword_repair there below)

/-- A new symbol is stored. -/
theorem take (stores : Stores k r size sources repairs ids s) (block : Encoded o k r size sources repairs)
    {id : Nat} (inside : id < k + r) (fresh : id ∉ ids) :
    Stores k r size sources repairs (insert id ids) (FecDecoder.take s id (codeword sources repairs id)) := by
  have slot : id < s.symbols.length := stores.length ▸ inside
  refine ⟨stores.session, stores.shape, stores.small, stores.failed, ?_, ?_, ?_, ?_, fun id' => ?_, ?_, ?_⟩
  · rw [Finset.card_insert_of_notMem fresh, ← stores.received]
    rfl
  · exact (List.length_set ..).trans stores.length
  · exact stores.sized.set slot (block.length_codeword inside)
  · exact (List.length_set ..).trans stores.slots
  · rw [FecDecoder.take, List.getD_eq_getElem?_getD, List.getElem?_set, Finset.mem_insert, ← stores.seen id']
    by_cases same : id = id'
    · subst same
      simp [stores.slots, inside]
    · simp [same, Ne.symm same]
  · intro id' member
    rcases Finset.mem_insert.mp member with rfl | old
    · exact inside
    · exact stores.inside id' old
  · intro id' member
    rw [FecDecoder.take, symbolAt_set _ _ _ _ slot]
    split
    · rename_i same
      rw [same]
    · rename_i other
      exact stores.symbols id' ((Finset.mem_insert.mp member).resolve_left other)

/-- What the state makes of its symbols. -/
theorem advance (stores : Stores k r size sources repairs ids s) (block : Encoded o k r size sources repairs)
    (waiting : s.complete = false) (most : ids.card ≤ k) (id : Nat) :
    ∃ s', FecDecoder.advance o s id = (if ids.card = k then .complete else .accepted, s') ∧
      Holds k r size sources repairs ids s' := by
  obtain ⟨-, rows, there, -⟩ := block.rows
  unfold FecDecoder.advance
  rw [stores.session]
  simp only [stores.small, true_and, stores.received, stores.shape.1, stores.shape.2.1]
  by_cases full : ids.card = k
  · have enough := stores.card_eq
    have restored := decodeSmallRs_restored there (block.nonsingular rows there) (stores.received_block block there)
      (by omega)
    rw [if_pos full.ge, if_pos full]
    simp only [restored.solved, if_true]
    refine ⟨_, rfl, ⟨⟨rfl, ⟨rfl, rfl, stores.shape.2.2⟩, rfl, stores.failed, rfl, restored.length,
      restored.sized, stores.slots, stores.seen, stores.inside, fun id member => ?_⟩, (decide_eq_true full).symm,
      fun _ id source => restored.sources id source⟩⟩
    by_cases source : id < k
    · exact (restored.sources id source).trans (block.codeword_source source).symm
    · exact (restored.repairs id (not_lt.mp source)).trans (stores.symbols id member)
  · rw [if_neg (fun enough => full (le_antisymm most enough)), if_neg full]
    simp only [Bool.true_eq_false, if_false, waiting, Bool.false_eq_true]
    exact ⟨s, rfl, stores, waiting.trans (decide_eq_false full).symm, fun full' => absurd full' full⟩

end Stores

/-! ### Results -/

/-- The result of a call, in terms of the ids that are stored, and the ids after it. -/
def verdict (k r size : Nat) (sources repairs : FecSymbols) (ids : Finset Nat) (c : Call) : Result :=
  if ¬ Valid k r size c then .invalid
  else if c.1 ∈ ids then (if c.2 = some (codeword sources repairs c.1) then .duplicate else .invalid)
  else if ids.card = k then .complete
  else if ids.card + 1 = k then .complete
  else .accepted

theorem addSymbol_holds {ids : Finset Nat} {s : DecoderState σ} (block : Encoded o k r size sources repairs)
    (holds : Holds k r size sources repairs ids s) (most : ids.card ≤ k) {c : Call}
    (genuine : Valid k r size c → c.1 ∉ ids → ids.card < k → c.2 = some (codeword sources repairs c.1)) :
    ∃ s', addSymbol o (some s) c.1 c.2 = (verdict k r size sources repairs ids c, some s') ∧
      Holds k r size sources repairs (if Valid k r size c ∧ ids.card < k then insert c.1 ids else ids) s' ∧
      (¬ (Valid k r size c ∧ c.1 ∉ ids ∧ ids.card < k) → s' = s) := by
  obtain ⟨id, data⟩ := c
  cases data with
  | none =>
    have invalid : ¬ Valid k r size (id, none) := fun valid => nomatch valid.2
    refine ⟨s, ?_, ?_, fun _ => rfl⟩
    · rw [verdict, if_pos invalid]
      rfl
    · rw [if_neg (fun both => invalid both.1)]
      exact holds
  | some data =>
    have valid_iff : Valid k r size (id, some data) ↔ ¬ (s.symbols.length ≤ id ∨ data.length ≠ s.size) := by
      rw [holds.length, holds.shape.2.2, Valid, Option.map_some, Option.some.injEq, not_or, not_le, not_not]
    by_cases valid : Valid k r size (id, some data)
    swap
    · refine ⟨s, ?_, ?_, fun _ => rfl⟩
      · simp only [addSymbol, verdict, if_pos valid]
        rw [if_pos (not_not.mp (mt valid_iff.mpr valid))]
      · rw [if_neg (fun both => valid both.1)]
        exact holds
    have shape := valid_iff.mp valid
    by_cases old : id ∈ ids
    · refine ⟨s, ?_, ?_, fun _ => rfl⟩
      · simp only [addSymbol, verdict, if_neg (not_not.mpr valid), if_pos old, if_neg shape, holds.failed,
          Bool.false_eq_true, if_false, (holds.seen id).mpr old, if_true, holds.symbols id old, Option.some.injEq, eq_comm]
      · have same : insert id ids = ids := Finset.insert_eq_of_mem old
        rw [same, ite_self]
        exact holds
    have unseen : s.seen.getD id false = false := Bool.eq_false_of_not_eq_true (mt (holds.seen id).mp old)
    by_cases full : ids.card = k
    · refine ⟨s, ?_, ?_, fun _ => rfl⟩
      · simp only [addSymbol, verdict, if_neg (not_not.mpr valid), if_neg old, if_pos full, if_neg shape, holds.failed,
          unseen, holds.complete, decide_eq_true full, Bool.false_eq_true, if_false, if_true]
      · rw [if_neg (fun both => absurd full both.2.ne)]
        exact holds
    have few : ids.card < k := lt_of_le_of_ne most full
    have same : data = codeword sources repairs id := Option.some.inj (genuine valid old few)
    subst same
    have card := Finset.card_insert_of_notMem old
    have taken : Stores k r size sources repairs (insert id ids)
        (FecDecoder.take s id (codeword sources repairs id)) := holds.toStores.take block valid.1 old
    obtain ⟨s', advanced, holds'⟩ := taken.advance block
      (holds.complete.trans (decide_eq_false full)) (by omega) id
    refine ⟨s', ?_, ?_, fun stays => absurd ⟨valid, old, few⟩ stays⟩
    · simp only [addSymbol, verdict, if_neg (not_not.mpr valid), if_neg old, if_neg full, if_neg shape, holds.failed,
        unseen, holds.complete, decide_eq_false full, Bool.false_eq_true, if_false, advanced, card]
    · rw [if_pos ⟨valid, few⟩]
      exact holds'

theorem after_concat (d : FecDecoder σ) (calls : List Call) (c : Call) :
    after o d (calls ++ [c]) = (addSymbol o (after o d calls) c.1 c.2).2 := by
  rw [after, List.foldl_append]
  rfl

/-- A call with an id that is not stored yet has the symbol of the block. -/
theorem Genuine.fresh {calls : List Call} {c : Call} (genuine : Genuine k r size sources repairs calls c)
    (block : Encoded o k r size sources repairs) (valid : Valid k r size c) (fresh : c.1 ∉ stored k r size calls)
    (few : (stored k r size calls).card < k) : c.2 = some (codeword sources repairs c.1) := by
  refine (genuine valid).resolve_right fun earlier => fresh ?_
  have valid' : Valid k r size (c.1, some (codeword sources repairs c.1)) :=
    ⟨valid.1, congrArg some (block.length_codeword valid.1)⟩
  rw [(stored_eq calls).2.2 few, offered, List.mem_toFinset, List.mem_map]
  exact ⟨_, List.mem_filter.mpr ⟨earlier, decide_eq_true valid'⟩, rfl⟩

/-- The state after a sequence of calls. -/
theorem after_holds (block : Encoded o k r size sources repairs) (d : FecDecoder σ) {calls : List Call}
    (sequence : Sequence k r size sources repairs calls) :
    ∃ s, after o (reset o d k r size).2 calls = some s ∧
      Holds k r size sources repairs (stored k r size calls) s := by
  induction sequence with
  | nil =>
    obtain ⟨s, reset, holds, -⟩ := reset_small block d
    exact ⟨s, by rw [reset]; rfl, holds⟩
  | @concat calls c _ genuine ih =>
    obtain ⟨s, state, holds⟩ := ih
    obtain ⟨s', added, holds', -⟩ := addSymbol_holds block holds (stored_eq calls).2.1 (genuine.fresh block)
    refine ⟨s', ?_, ?_⟩
    · rw [after_concat, state, added]
    · rw [stored_concat]
      exact holds'

/-- What a decoder does with one more symbol of a block, after any symbols of it. -/
structure OrderIndependent (o : OpenFec σ) (k r size : Nat) (sources repairs : FecSymbols) (d : FecDecoder σ)
    (calls : List Call) (c : Call) : Prop where
  reset : reset o d k r size = reset o none k r size ∧ (reset o d k r size).1 = true
  complete : complete (after o (FecDecoder.reset o d k r size).2 calls) = true ↔
    k ≤ (offered k r size calls).card
  restored : k ≤ (offered k r size calls).card →
    (symbols (after o (FecDecoder.reset o d k r size).2 calls)).take k = sources
  result : (addSymbol o (after o (FecDecoder.reset o d k r size).2 calls) c.1 c.2).1 =
    verdict k r size sources repairs (stored k r size calls) c
  inert : (addSymbol o (after o (FecDecoder.reset o d k r size).2 calls) c.1 c.2).1 ∈ [Result.invalid, .duplicate] ∨
      FecDecoder.complete (after o (FecDecoder.reset o d k r size).2 calls) = true →
    (addSymbol o (after o (FecDecoder.reset o d k r size).2 calls) c.1 c.2).2 =
      after o (FecDecoder.reset o d k r size).2 calls

theorem take_eq {s : DecoderState σ} (block : Encoded o k r size sources repairs) (length : s.symbols.length = k + r)
    (same : ∀ id < k, symbolAt s.symbols id = symbolAt sources id) : s.symbols.take k = sources := by
  have count := block.count
  refine List.ext_getElem (by rw [List.length_take]; omega) fun id hid hid' => ?_
  have inside : id < s.symbols.length := by omega
  rw [List.getElem_take, ← symbolAt_eq inside, ← symbolAt_eq hid']
  exact same id (by omega)

/-- The decoder is independent of the order of the symbols, of what it was before and of what comes besides. -/
theorem decoder_orderIndependent (block : Encoded o k r size sources repairs) (d : FecDecoder σ) {calls : List Call}
    (sequence : Sequence k r size sources repairs calls) {c : Call}
    (genuine : Genuine k r size sources repairs calls c) :
    OrderIndependent o k r size sources repairs d calls c := by
  obtain ⟨s, state, holds⟩ := after_holds block d sequence
  obtain ⟨s', added, -, stays⟩ := addSymbol_holds block holds (stored_eq calls).2.1 (genuine.fresh block)
  have full : s.complete = true ↔ k ≤ (offered k r size calls).card := by
    rw [holds.complete, decide_eq_true_eq, stored_card]
  refine ⟨?_, ?_, fun enough => ?_, ?_, fun idle => ?_⟩
  · obtain ⟨t, reset, -, same⟩ := reset_small block d
    obtain ⟨t', reset', -, same'⟩ := reset_small block none
    rw [reset, reset', same, same']
    exact ⟨rfl, rfl⟩
  · rw [state]
    exact full
  · rw [state]
    exact take_eq block holds.length (holds.restored ((stored_card calls).mpr enough))
  · rw [state, added]
  · rw [state, added] at idle
    rw [state, added]
    refine congrArg some (stays fun accepts => ?_)
    obtain ⟨valid, fresh, few⟩ := accepts
    rcases idle with rejected | complete
    · simp only [verdict, if_neg (not_not.mpr valid), if_neg fresh, if_neg few.ne] at rejected
      split at rejected
      · simp at rejected
      · simp at rejected
    · have enough := full.mp complete
      rw [← stored_card] at enough
      omega

/-- The row of two sources and one repair. -/
def pairRow : Coefficients := fun _ col => if col = 0 then 3#8 else 2#8

def pairFec : OpenFec Unit where
  rows k r := if k = 2 ∧ r = 1 then some pairRow else none
  encode _ _ := none
  create _ _ _ := none
  decode session symbols _ := (false, session, symbols)
  complete _ := false

theorem pairRow_nonsingular : Nonsingular 2 1 pairRow := by
  intro m f g mono _ below _
  match m with
  | 0 => simp
  | 1 =>
    rw [Matrix.det_unique]
    have nonzero : ∀ col, Gf256.ofByte (pairRow 0 col) ≠ 0 := by
      intro col zero
      have byte := Gf256.ofByte_eq_zero.mp zero
      unfold pairRow at byte
      split at byte
      · exact absurd byte (by decide)
      · exact absurd byte (by decide)
    have first : f 0 = 0 := by
      have less := below 0
      omega
    change Gf256.ofByte (pairRow (f 0) (g 0)) ≠ 0
    rw [first]
    exact nonzero (g 0)
  | m + 2 =>
    have up := mono (show (0 : Fin (m + 2)) < 1 from Fin.zero_lt_one)
    have less := below 1
    omega

/-- The second source comes after the repair. -/
theorem decoder_orderIndependent_pair :
    OrderIndependent pairFec 2 1 1 [[5#8], [7#8]] [[1#8]] none [(2, some [1#8])] (1, some [7#8]) := by
  have block : Encoded pairFec 2 1 1 [[5#8], [7#8]] [[1#8]] := by
    refine ⟨by decide, by decide, rfl, ?_, by decide +kernel, fun rows there => ?_⟩
    · intro source member
      rcases List.mem_cons.mp member with rfl | member
      · rfl
      · rw [List.mem_singleton.mp member]
        rfl
    · have same : some pairRow = some rows := there
      rw [← Option.some.inj same]
      exact pairRow_nonsingular
  refine decoder_orderIndependent block none (.concat .nil fun _ => Or.inl ?_) fun _ => Or.inl ?_
  · rfl
  · rfl

end FecDecoder

end MiniRtc.Fec
