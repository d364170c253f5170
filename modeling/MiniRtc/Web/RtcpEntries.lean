import MiniRtc.Web.RtcpHandler

/-! What the handler of a browser's RTCP takes from a byte string (HandleRtcpLocked in web_media_handler.cpp): the
entries of its well-formed blocks, up to the first block that is not. -/
namespace MiniRtc.Web
open Wire WebMediaHandler

/-! ### Blocks -/

/-- The declared padding of a block. -/
def padding (octets : Bytes) : Nat :=
  if byteAt octets 0 &&& 32 ≠ 0 then (byteAt octets (octets.length - 1)).toNat else 0

@[mk_iff]
structure WellFormed (octets : Bytes) : Prop where
  version : byteAt octets 0 >>> 6 = 2
  size : octets.length = ((get16 octets 2).toNat + 1) * 4
  padded : byteAt octets 0 &&& 32 ≠ 0 → padding octets ≠ 0
  room : padding octets ≤ octets.length - 4

instance (octets : Bytes) : Decidable (WellFormed octets) := decidable_of_iff _ (wellFormed_iff octets).symm

structure RtcpBlock where
  octets : Bytes
  wellFormed : WellFormed octets

namespace RtcpBlock

variable (b : RtcpBlock)

def payloadSize : Nat := b.octets.length - padding b.octets

/-- A block without its padding. -/
def payload : Bytes := b.octets.take b.payloadSize

theorem four_le_payloadSize : 4 ≤ b.payloadSize := by
  have size := b.wellFormed.size
  have room := b.wellFormed.room
  rw [payloadSize]
  omega

theorem payload_length : b.payload.length = b.payloadSize := by
  rw [payload, List.length_take, payloadSize]
  omega

end RtcpBlock

/-- The well-formed block at the front. -/
def nextBlock (p : Bytes) : Option RtcpBlock :=
  let octets := p.take (((get16 p 2).toNat + 1) * 4)
  if wellFormed : WellFormed octets then some ⟨octets, wellFormed⟩ else none

theorem nextBlock_eq {p : Bytes} {b : RtcpBlock} (next : nextBlock p = some b) :
    b.octets = p.take (((get16 p 2).toNat + 1) * 4) := by
  unfold nextBlock at next
  dsimp only at next
  split at next
  · cases next
    rfl
  · cases next

/-- It is found wherever there is one. -/
theorem nextBlock_front {p : Bytes} {b : RtcpBlock} (front : b.octets <+: p) : nextBlock p = some b := by
  obtain ⟨rest, rfl⟩ := front
  have size := b.wellFormed.size
  have length : get16 (b.octets ++ rest) 2 = get16 b.octets 2 := by
    rw [get16, get16, byteAt_append_left (by omega), byteAt_append_left (by omega)]
  have octets : (b.octets ++ rest).take (((get16 (b.octets ++ rest) 2).toNat + 1) * 4) = b.octets := by
    rw [length, ← size, List.take_left']
    rfl
  simp only [nextBlock, octets]
  rw [dif_pos b.wellFormed]

/-- The well-formed blocks before the first one that is not. -/
def blocksOf : Nat → Bytes → List RtcpBlock
  | 0, _ => []
  | turns + 1, p =>
    match nextBlock p with
    | none => []
    | some b => b :: blocksOf turns (p.drop b.octets.length)

def rtcpBlocks (p : Bytes) : List RtcpBlock := blocksOf p.length p

theorem nextBlock_split {p : Bytes} {b : RtcpBlock} (next : nextBlock p = some b) :
    b.octets ++ p.drop b.octets.length = p := by
  have octets := nextBlock_eq next
  rw [octets, List.length_take]
  rcases le_total (((get16 p 2).toNat + 1) * 4) p.length with short | long
  · rw [min_eq_left short, List.take_append_drop]
  · rw [min_eq_right long, List.take_of_length_le long, List.drop_length, List.append_nil]

theorem nextBlock_nil : nextBlock [] = none := by decide

theorem blocksOf_split {turns : Nat} {p : Bytes} (enough : p.length ≤ turns) :
    ∃ rest, (blocksOf turns p).flatMap RtcpBlock.octets ++ rest = p ∧ nextBlock rest = none := by
  induction turns generalizing p with
  | zero =>
    have empty : p = [] := List.length_eq_zero_iff.mp (by omega)
    exact ⟨[], by simp [blocksOf, empty], nextBlock_nil⟩
  | succ turns ih =>
    unfold blocksOf
    split
    · rename_i none
      exact ⟨p, rfl, none⟩
    · rename_i b next
      have whole := nextBlock_split next
      have size := b.wellFormed.size
      have lengths := congrArg List.length whole
      rw [List.length_append] at lengths
      obtain ⟨rest, split, last⟩ := ih (p := p.drop b.octets.length) (by omega)
      refine ⟨rest, ?_, last⟩
      rw [List.flatMap_cons, List.append_assoc, split, whole]

/-- They are a front of the byte string, and no well-formed block follows. -/
theorem rtcpBlocks_split (p : Bytes) :
    ∃ rest, (rtcpBlocks p).flatMap RtcpBlock.octets ++ rest = p ∧ ∀ b : RtcpBlock, ¬b.octets <+: rest := by
  obtain ⟨rest, split, last⟩ := blocksOf_split (le_refl p.length)
  refine ⟨rest, split, fun b front => ?_⟩
  rw [nextBlock_front front] at last
  cases last

/-- The padding that the header at the front declares, if all octets that it speaks of are there. -/
def declaredPadding (p : Bytes) : Nat :=
  if byteAt p 0 &&& 32 ≠ 0 then (byteAt p (((get16 p 2).toNat + 1) * 4 - 1)).toNat else 0

section

variable {p : Bytes} (long : ((get16 p 2).toNat + 1) * 4 ≤ p.length)

include long

theorem padding_take : padding (p.take (((get16 p 2).toNat + 1) * 4)) = declaredPadding p := by
  rw [padding, declaredPadding, byteAt_take (by omega), List.length_take, min_eq_left long, byteAt_take (by omega)]

theorem wellFormed_take : WellFormed (p.take (((get16 p 2).toNat + 1) * 4)) ↔ byteAt p 0 >>> 6 = 2 ∧
    (byteAt p 0 &&& 32 ≠ 0 → declaredPadding p ≠ 0) ∧ declaredPadding p ≤ ((get16 p 2).toNat + 1) * 4 - 4 := by
  rw [wellFormed_iff, padding_take long, List.length_take, min_eq_left long, byteAt_take (by omega),
    get16_take (by omega)]
  simp

theorem nextBlock_sizes (wellFormed : WellFormed (p.take (((get16 p 2).toNat + 1) * 4))) :
    (nextBlock p).map (fun b => (b.octets.length, b.payloadSize)) =
      some (((get16 p 2).toNat + 1) * 4, ((get16 p 2).toNat + 1) * 4 - declaredPadding p) := by
  have next : nextBlock p = some ⟨p.take (((get16 p 2).toNat + 1) * 4), wellFormed⟩ := dif_pos wellFormed
  rw [next, Option.map_some, RtcpBlock.payloadSize, padding_take long, List.length_take, min_eq_left long]

end

/-- The header is read and judged. -/
theorem readBlock_eq {p : Bytes} (header : 4 ≤ p.length) :
    readBlock p = some ((nextBlock p).map fun b => (b.octets.length, b.payloadSize)) := by
  unfold readBlock
  rw [read16_eq (by omega), read8_eq (by omega)]
  simp only [Option.bind_eq_bind, Option.bind_some]
  by_cases short : p.length < ((get16 p 2).toNat + 1) * 4
  · have none : nextBlock p = none := by
      refine dif_neg fun wellFormed => ?_
      have size := wellFormed.size
      rw [List.take_of_length_le short.le] at size
      omega
    rw [if_pos (.inr (.inr short)), none]
    rfl
  have long := not_lt.mp short
  have judged := wellFormed_take long
  by_cases version : byteAt p 0 >>> 6 = 2
  · have read : ¬(byteAt p 0 >>> 6 ≠ 2 ∨ ((get16 p 2).toNat + 1) * 4 < 4 ∨
        p.length < ((get16 p 2).toNat + 1) * 4) := by
      rintro (other | small | less)
      · exact other version
      · omega
      · omega
    rw [if_neg read]
    by_cases padded : byteAt p 0 &&& 32 ≠ 0
    · have declared : declaredPadding p = (byteAt p (((get16 p 2).toNat + 1) * 4 - 1)).toNat := if_pos padded
      rw [if_pos padded, read8_eq (by omega), Option.bind_some, ← declared]
      split
      · rename_i refused
        have none : nextBlock p = none := by
          refine dif_neg fun wellFormed => ?_
          obtain ⟨-, some, room⟩ := judged.mp wellFormed
          have := some padded
          omega
        rw [none]
        rfl
      · rename_i room
        rw [nextBlock_sizes long (judged.mpr ⟨version, fun _ => by omega, by omega⟩)]
        rfl
    · have declared : declaredPadding p = 0 := if_neg padded
      rw [if_neg padded, nextBlock_sizes long (judged.mpr ⟨version, fun flag => absurd flag padded, by omega⟩),
        declared]
      rfl
  · have none : nextBlock p = none := dif_neg fun wellFormed => version (judged.mp wellFormed).1
    rw [if_pos (.inl version), none]
    rfl

/-! ### Entries -/

/-- Where the entries of one size lie that are complete. -/
def offsets (length start size : Nat) : List Nat := (List.range ((length - start) / size)).map fun i => start + i * size

theorem offsets_cons {length start size : Nat} (positive : 0 < size) (complete : start + size ≤ length) :
    offsets length start size = start :: offsets length (start + size) size := by
  have count : (length - start) / size = (length - (start + size)) / size + 1 := by
    rw [← Nat.add_div_right _ positive]
    congr 1
    omega
  rw [offsets, count, List.range_succ_eq_map, List.map_cons, List.map_map, Nat.zero_mul, Nat.add_zero]
  congr 1
  refine List.map_congr_left fun i _ => ?_
  simp only [Function.comp, Nat.succ_eq_add_one, Nat.add_mul, Nat.one_mul]
  omega

theorem offsets_nil {length start size : Nat} (positive : 0 < size) (cut : length < start + size) :
    offsets length start size = [] := by
  rw [offsets, Nat.div_eq_of_lt (by omega)]
  rfl

theorem offsets_complete {length start size i : Nat} (positive : 0 < size) (member : i ∈ offsets length start size) :
    i + size ≤ length := by
  obtain ⟨k, bound, rfl⟩ := List.mem_map.mp member
  have below : k + 1 ≤ (length - start) / size := List.mem_range.mp bound
  have product : (k + 1) * size ≤ length - start := (Nat.mul_le_mul_right size below).trans (Nat.div_mul_le_self _ _)
  rw [Nat.add_mul, Nat.one_mul] at product
  omega

/-- An entry, with its octets. -/
inductive RtcpEntry where
  | report (octets : Bytes)
  | estimate (octets : Bytes)
  | keyframe (octets : Bytes)
  | repair (media item : Bytes)

/-- What is read of a report block. -/
def reportRtt (nowMs : Int) (octets : Bytes) (stream : StreamReports) : Int :=
  match stream.senderReports.find (get32 octets 16).toNat with
  | none => 0
  | some sentMs => rttOf sentMs (get32 octets 20) nowMs

/-- The sources of an estimate, and what it says. -/
def estimateSsrcs (octets : Bytes) : List (BitVec 32) :=
  (List.range (byteAt octets 4).toNat).map fun i => get32 octets (8 + i * 4)

def estimateExponent (octets : Bytes) : Nat := (byteAt octets 5 >>> 2).toNat

def estimateMantissa (octets : Bytes) : Nat := (byteAt octets 5 &&& 3).toNat <<< 16 ||| (get16 octets 6).toNat

def relevant (streams : StreamTable) (octets : Bytes) : Bool :=
  (estimateSsrcs octets).any fun ssrc => (streams ssrc).isSome

/-- What an entry does. -/
def RtcpEntry.apply (nowMs : Int) (s : Handled) : RtcpEntry → Handled
  | .report octets =>
    match s.streams (get32 octets 0) with
    | none => s
    | some stream =>
      s.report (get32 octets 0) stream (get32 octets 8) (signed24 (get32 octets 4)) (reportRtt nowMs octets stream)
  | .estimate octets =>
    if relevant s.streams octets then
      s.add [.onReceiverEstimate (estimateBps (estimateExponent octets) (estimateMantissa octets))]
    else s
  | .keyframe octets => s.keyframe (get32 octets 0)
  | .repair media item =>
    if (s.streams (get32 media 0)).isSome then s.repairs (get32 media 0) (get16 item 0) (get16 item 2) else s

/-- The entries of a block without its padding. -/
def entriesOf (p : Bytes) : List RtcpEntry :=
  let type := byteAt p 1
  let count := (byteAt p 0 &&& 31).toNat
  let sources := (byteAt p 16).toNat
  if type = 201 ∨ type = 200 then
    ((offsets p.length (if type = 201 then 8 else 28) 24).take count).map fun i => .report (slice p i 24)
  else if type = 206 ∧ count = 15 ∧ 20 ≤ p.length ∧ slice p 12 4 = [0x52, 0x45, 0x4d, 0x42] then
    if 20 + sources * 4 ≤ p.length then [.estimate (slice p 12 (8 + sources * 4))] else []
  else if type = 206 ∧ count = 1 ∧ 12 ≤ p.length then [.keyframe (slice p 8 4)]
  else if type = 206 ∧ count = 4 then (offsets p.length 12 8).map fun i => .keyframe (slice p i 8)
  else if type = 205 ∧ count = 1 then (offsets p.length 12 4).map fun i => .repair (slice p 8 4) (slice p i 4)
  else []

/-- Where the octets of an entry lie. -/
def RtcpEntry.Within (p : Bytes) : RtcpEntry → Prop
  | .report octets => ∃ i, i + 24 ≤ p.length ∧ octets = slice p i 24
  | .estimate octets => ∃ sources, 20 + sources * 4 ≤ p.length ∧ octets = slice p 12 (8 + sources * 4)
  | .keyframe octets => ∃ i size, 4 ≤ size ∧ i + size ≤ p.length ∧ octets = slice p i size
  | .repair media item => ∃ i, 12 ≤ p.length ∧ i + 4 ≤ p.length ∧ media = slice p 8 4 ∧ item = slice p i 4

/-- Only complete entries are taken. -/
theorem entriesOf_within {p : Bytes} {entry : RtcpEntry} (member : entry ∈ entriesOf p) : entry.Within p := by
  unfold entriesOf at member
  dsimp only at member
  split at member
  · obtain ⟨i, offset, rfl⟩ := List.mem_map.mp member
    exact ⟨i, offsets_complete (by decide) (List.mem_of_mem_take offset), rfl⟩
  split at member
  · split at member
    · rename_i complete
      rw [List.mem_singleton.mp member]
      exact ⟨_, complete, rfl⟩
    · cases member
  split at member
  · rename_i single
    rw [List.mem_singleton.mp member]
    exact ⟨8, 4, le_rfl, single.2.2, rfl⟩
  split at member
  · obtain ⟨i, offset, rfl⟩ := List.mem_map.mp member
    exact ⟨i, 8, by decide, offsets_complete (by decide) offset, rfl⟩
  split at member
  · obtain ⟨i, offset, rfl⟩ := List.mem_map.mp member
    have complete := offsets_complete (by decide) offset
    have start : 12 ≤ i := by
      obtain ⟨k, -, rfl⟩ := List.mem_map.mp offset
      exact Nat.le_add_right _ _
    exact ⟨i, by omega, complete, rfl, rfl⟩
  · cases member

/-! ### The handler takes these entries -/

section

variable {nowMs : Int} {p : Bytes}

theorem readRtt_eq {block : Nat} (complete : block + 24 ≤ p.length) (stream : StreamReports) :
    readRtt nowMs p block stream = some (reportRtt nowMs (slice p block 24) stream) := by
  rw [readRtt, reportRtt, read32_eq (by omega), get32_slice (by decide), get32_slice (by decide)]
  simp only [Option.bind_eq_bind, Option.bind_some]
  cases stream.senderReports.find (get32 p (block + 16)).toNat with
  | none => rfl
  | some sentMs =>
    simp only
    rw [read32_eq (by omega)]
    rfl

theorem handleReport_eq {block : Nat} (complete : block + 24 ≤ p.length) (s : Handled) :
    handleReport nowMs p block s = some ((RtcpEntry.report (slice p block 24)).apply nowMs s) := by
  rw [handleReport, RtcpEntry.apply, read32_eq (by omega), get32_slice (by decide), get32_slice (by decide),
    get32_slice (by decide)]
  simp only [Option.bind_eq_bind, Option.bind_some, Nat.add_zero]
  cases s.streams (get32 p block) with
  | none => rfl
  | some stream =>
    simp only
    rw [read32_eq (by omega), read32_eq (by omega), readRtt_eq complete]
    rfl

theorem handleReports_eq (first turns i : Nat) (s : Handled) :
    handleReports nowMs p first turns i s =
      some ((((offsets p.length (first + i * 24) 24).take turns).map fun j => .report (slice p j 24)).foldl
        (RtcpEntry.apply nowMs) s) := by
  induction turns generalizing i s with
  | zero => rfl
  | succ turns ih =>
    rw [handleReports]
    by_cases complete : first + (i + 1) * 24 ≤ p.length
    · have next : first + i * 24 + 24 = first + (i + 1) * 24 := by omega
      rw [if_pos complete, handleReport_eq (by omega), offsets_cons (by decide) (by omega), next, List.take_succ_cons,
        List.map_cons, List.foldl_cons]
      exact ih (i + 1) _
    · rw [if_neg complete, offsets_nil (by decide) (by omega)]
      rfl

/-- A loop whose body reads only the entry at hand; what it relies on is kept by every entry. -/
theorem handleEntries_eq {size : Nat} (positive : 0 < size) {body : Nat → Handled → Option Handled}
    {entry : Nat → RtcpEntry} (relies : Handled → Prop) (keeps : ∀ j s, relies s → relies ((entry j).apply nowMs s))
    (reads : ∀ j s, relies s → j + size ≤ p.length → body j s = some ((entry j).apply nowMs s))
    {turns i : Nat} (enough : p.length < turns + i) {s : Handled} (met : relies s) :
    handleEntries p size body (turns + 1) i s =
      some (((offsets p.length i size).map entry).foldl (RtcpEntry.apply nowMs) s) := by
  induction turns generalizing i s with
  | zero =>
    rw [handleEntries, if_neg (by omega), offsets_nil positive (by omega)]
    rfl
  | succ turns ih =>
    rw [handleEntries]
    by_cases complete : i + size ≤ p.length
    · rw [if_pos complete, reads i s met complete, offsets_cons positive complete, List.map_cons, List.foldl_cons]
      exact ih (by omega) (keeps i s met)
    · rw [if_neg complete, offsets_nil positive (by omega)]
      rfl

theorem handleEstimate_eq (header : 20 ≤ p.length) (s : Handled) :
    let sources := (byteAt p 16).toNat
    handleEstimate p s = some
      ((if 20 + sources * 4 ≤ p.length then [RtcpEntry.estimate (slice p 12 (8 + sources * 4))] else []).foldl
        (RtcpEntry.apply nowMs) s) := by
  intro sources
  rw [handleEstimate, read8_eq (by omega)]
  simp only [Option.bind_eq_bind, Option.bind_some]
  by_cases complete : 20 + sources * 4 ≤ p.length
  · have ssrcs : (List.range sources).mapM (fun i => read32 p (20 + i * 4)) =
        some (estimateSsrcs (slice p 12 (8 + sources * 4))) := by
      rw [estimateSsrcs, byteAt_slice (by omega)]
      refine mapM_eq_some fun i member => ?_
      have bound := List.mem_range.mp member
      rw [read32_eq (by omega), get32_slice (by omega)]
      congr 2
      omega
    rw [if_pos complete, if_pos complete, ssrcs, Option.bind_some, List.foldl_cons, List.foldl_nil, RtcpEntry.apply,
      estimateExponent, estimateMantissa, byteAt_slice (by omega), get16_slice (by omega), read8_eq (by omega),
      read16_eq (by omega)]
    change (if relevant s.streams _ then _ else _) = _
    split <;> rfl
  · rw [if_neg complete, if_neg complete]
    rfl

theorem readRemb_eq (type : Byte) (count : Nat) :
    readRemb p type count =
      some (decide (type = 206 ∧ count = 15 ∧ 20 ≤ p.length ∧ slice p 12 4 = [0x52, 0x45, 0x4d, 0x42])) := by
  rw [readRemb]
  by_cases header : type = 206 ∧ count = 15 ∧ 20 ≤ p.length
  · rw [if_pos header, readSlice_eq (by omega)]
    obtain ⟨isType, isCount, long⟩ := header
    simp [isType, isCount, long]
  · rw [if_neg header]
    have other : ¬(type = 206 ∧ count = 15 ∧ 20 ≤ p.length ∧ slice p 12 4 = [0x52, 0x45, 0x4d, 0x42]) :=
      fun ⟨isType, isCount, long, _⟩ => header ⟨isType, isCount, long⟩
    rw [decide_eq_false other]
    rfl

/-- Without its stream no repair does anything. -/
theorem repairs_unknown {media : Bytes} {s : Handled} (unknown : (s.streams (get32 media 0)).isSome = false)
    (item : Nat → Bytes) (offsets : List Nat) :
    (offsets.map fun i => .repair media (item i)).foldl (RtcpEntry.apply nowMs) s = s := by
  induction offsets with
  | nil => rfl
  | cons i offsets ih =>
    rw [List.map_cons, List.foldl_cons, RtcpEntry.apply, unknown]
    exact ih

theorem handleKeyframes_eq (s : Handled) :
    handleEntries p 8 (fun i s => do return s.keyframe (← read32 p i)) (p.length + 1) 12 s =
      some (((offsets p.length 12 8).map fun i => .keyframe (slice p i 8)).foldl (RtcpEntry.apply nowMs) s) := by
  refine handleEntries_eq (by decide) (fun _ => True) (fun _ _ _ => trivial) (fun i s _ complete => ?_)
    (by omega) trivial
  rw [read32_eq (by omega), RtcpEntry.apply, get32_slice (by decide)]
  rfl

theorem handleRepairs_eq {s : Handled} (known : (s.streams (get32 p 8)).isSome) :
    handleEntries p 4 (handleRepairs p (get32 p 8)) (p.length + 1) 12 s =
      some (((offsets p.length 12 4).map fun i => .repair (slice p 8 4) (slice p i 4)).foldl
        (RtcpEntry.apply nowMs) s) := by
  have media : get32 (slice p 8 4) 0 = get32 p 8 := get32_slice (by decide)
  refine handleEntries_eq (by decide) (fun s => (s.streams (get32 p 8)).isSome) ?_ ?_ (by omega) known
  · intro i s known
    rw [RtcpEntry.apply, media, if_pos known]
    exact known
  · intro i s known complete
    rw [RtcpEntry.apply, media, if_pos known, handleRepairs, read16_eq (by omega), read16_eq (by omega),
      get16_slice (by decide), get16_slice (by decide)]
    rfl

/-- A block is read within its payload, and its entries are taken one after the other. -/
theorem handleBlock_eq (header : 4 ≤ p.length) (s : Handled) :
    handleBlock nowMs p s = some ((entriesOf p).foldl (RtcpEntry.apply nowMs) s) := by
  unfold handleBlock entriesOf
  rw [read8_eq (by omega), read8_eq (by omega)]
  simp only [Option.bind_eq_bind, Option.bind_some, readRemb_eq]
  generalize byteAt p 1 = type
  generalize (byteAt p 0 &&& 31).toNat = count
  by_cases reports : type = 201 ∨ type = 200
  · rw [if_pos reports, if_pos reports, handleReports_eq, Nat.zero_mul, Nat.add_zero]
  rw [if_neg reports, if_neg reports]
  by_cases remb : type = 206 ∧ count = 15 ∧ 20 ≤ p.length ∧ slice p 12 4 = [0x52, 0x45, 0x4d, 0x42]
  · rw [if_pos (decide_eq_true remb), if_pos remb]
    exact handleEstimate_eq remb.2.2.1 s
  rw [if_neg (by simpa using remb), if_neg remb]
  by_cases single : type = 206 ∧ count = 1 ∧ 12 ≤ p.length
  · rw [if_pos ⟨single.1, single.2.2⟩, if_pos single.2.1, if_pos single, read32_eq (by omega), List.foldl_cons,
      List.foldl_nil, RtcpEntry.apply, get32_slice (by decide)]
    rfl
  rw [if_neg single]
  by_cases several : type = 206 ∧ count = 4
  · rw [if_pos several]
    by_cases long : 12 ≤ p.length
    · rw [if_pos ⟨several.1, long⟩, if_neg (by omega), if_pos several.2]
      exact handleKeyframes_eq s
    · rw [if_neg (fun both => long both.2), offsets_nil (by decide) (by omega), several.1, if_neg (by simp)]
      rfl
  rw [if_neg several]
  by_cases nack : type = 205 ∧ count = 1
  · rw [if_pos nack, if_neg (by simp [nack.1])]
    by_cases long : 16 ≤ p.length
    · rw [if_pos ⟨nack.1, nack.2, long⟩, read32_eq (by omega), Option.bind_some]
      split
      · rename_i known
        exact handleRepairs_eq known
      · rename_i unknown
        have media : get32 (slice p 8 4) 0 = get32 p 8 := get32_slice (by decide)
        rw [← media, Bool.not_eq_true] at unknown
        rw [repairs_unknown unknown]
        rfl
    · rw [if_neg (fun all => long all.2.2), offsets_nil (by decide) (by omega)]
      rfl
  · rw [if_neg nack]
    split
    · rename_i feedback
      rw [if_neg (fun one => single ⟨feedback.1, one, feedback.2⟩), if_neg (fun four => several ⟨feedback.1, four⟩)]
      rfl
    · rw [if_neg (fun all => nack ⟨all.1, all.2.1⟩)]
      rfl

end

theorem nextBlock_short {p : Bytes} (short : p.length < 4) : nextBlock p = none := by
  refine dif_neg fun wellFormed => ?_
  have size := wellFormed.size
  rw [List.length_take] at size
  omega

/-- The entries of the well-formed blocks. -/
def rtcpEntries (p : Bytes) : List RtcpEntry := (rtcpBlocks p).flatMap fun b => entriesOf b.payload

/-- The loop ends, and takes the entries of the well-formed blocks one after the other. -/
theorem handleRtcpLocked_blocks {turns : Nat} {p : Bytes} (enough : p.length ≤ turns) (nowMs : Int) (s : Handled) :
    handleRtcpLocked nowMs (turns + 1) p s =
      some (((blocksOf turns p).flatMap fun b => entriesOf b.payload).foldl (RtcpEntry.apply nowMs) s) := by
  induction turns generalizing p s with
  | zero =>
    rw [handleRtcpLocked, if_pos (by omega)]
    rfl
  | succ turns ih =>
    rw [handleRtcpLocked, blocksOf]
    by_cases short : p.length < 4
    · rw [if_pos short, nextBlock_short short]
      rfl
    · rw [if_neg short, readBlock_eq (by omega), Option.bind_eq_bind, Option.bind_some]
      cases next : nextBlock p with
      | none => rfl
      | some b =>
        have whole := congrArg List.length (nextBlock_split next)
        rw [List.length_append] at whole
        have size := b.wellFormed.size
        have payload : p.take b.payloadSize = b.payload := by
          have within : b.payloadSize ≤ b.octets.length := Nat.sub_le _ _
          conv_lhs => rw [← nextBlock_split next]
          rw [List.take_append_of_le_length within, RtcpBlock.payload]
        have header : 4 ≤ b.payload.length := b.payload_length ▸ b.four_le_payloadSize
        simp only [Option.map_some]
        rw [payload, handleBlock_eq header, List.flatMap_cons, List.foldl_append]
        exact ih (by omega) _

theorem handleRtcpLocked_eq (nowMs : Int) (p : Bytes) (s : Handled) :
    handleRtcpLocked nowMs (p.length + 1) p s = some ((rtcpEntries p).foldl (RtcpEntry.apply nowMs) s) :=
  handleRtcpLocked_blocks le_rfl nowMs s

/-! ### Key frames and repairs -/

/-- What an entry asks for, whether its stream is there or not. -/
def RtcpEntry.actions : RtcpEntry → List RtcpAction
  | .keyframe octets => [.requestKeyframe (get32 octets 0)]
  | .repair media item => repairsOf (get32 media 0) (get16 item 0) (get16 item 2)
  | .report _ => []
  | .estimate _ => []

theorem blockActions_eq {p : Bytes} {b : RtcpBlock} (next : nextBlock p = some b) :
    blockActions p b.payloadSize = (entriesOf b.payload).flatMap RtcpEntry.actions := by
  have within : b.payloadSize ≤ b.octets.length := Nat.sub_le _ _
  have payload : b.payload = p.take b.payloadSize := by
    conv_rhs => rw [← nextBlock_split next]
    rw [List.take_append_of_le_length within, RtcpBlock.payload]
  have long := b.four_le_payloadSize
  have same : ∀ {i}, i + 4 ≤ b.payloadSize → get32 b.payload i = get32 p i := by
    intro i inside
    rw [payload, get32_take inside]
  have same16 : ∀ {i}, i + 2 ≤ b.payloadSize → get16 b.payload i = get16 p i := by
    intro i inside
    rw [payload, get16_take inside]
  have head : (byteAt b.payload 0 &&& 31).toNat = (byteAt p 0).toNat &&& 31 := by
    rw [payload, byteAt_take (by omega), BitVec.toNat_and]
    rfl
  have type : byteAt b.payload 1 = byteAt p 1 := by rw [payload, byteAt_take (by omega)]
  unfold blockActions entriesOf
  rw [b.payload_length, head, type]
  generalize byteAt p 1 = type
  generalize (byteAt p 0).toNat &&& 31 = count
  dsimp only
  by_cases single : type = 206 ∧ count = 1 ∧ 12 ≤ b.payloadSize
  · obtain ⟨rfl, rfl, room⟩ := single
    simp [room, RtcpEntry.actions, get32_slice, same]
  rw [if_neg (fun all => single ⟨all.1, all.2.2, all.2.1⟩)]
  by_cases several : type = 206 ∧ count = 4
  · obtain ⟨rfl, rfl⟩ := several
    have rows : ((offsets b.payloadSize 12 8).map fun i => RtcpEntry.keyframe (slice b.payload i 8)).flatMap
        RtcpEntry.actions = (offsets b.payloadSize 12 8).map fun i => RtcpAction.requestKeyframe (get32 p i) := by
      rw [List.flatMap_map, List.map_eq_flatMap]
      refine List.flatMap_congr fun i member => ?_
      have complete := offsets_complete (by decide) member
      rw [RtcpEntry.actions, get32_slice (by decide), Nat.add_zero, same (by omega)]
    by_cases room : 12 ≤ b.payloadSize
    · rw [if_pos ⟨rfl, room, rfl⟩, if_neg (by decide), if_neg (by simp), if_neg (by simp), if_pos ⟨rfl, rfl⟩, rows,
        offsets, List.map_map]
      refine List.map_congr_left fun i _ => ?_
      rw [Function.comp, Nat.mul_comm]
    · rw [if_neg (fun all => room all.2.1), if_neg (by simp), if_neg (by decide), if_neg (by simp), if_neg (by simp),
        if_pos ⟨rfl, rfl⟩, rows, offsets_nil (by decide) (by omega)]
      rfl
  rw [if_neg (fun all => several ⟨all.1, all.2.2⟩)]
  by_cases nack : type = 205 ∧ count = 1
  · obtain ⟨rfl, rfl⟩ := nack
    have rows : ((offsets b.payloadSize 12 4).map fun i =>
        RtcpEntry.repair (slice b.payload 8 4) (slice b.payload i 4)).flatMap RtcpEntry.actions =
          (offsets b.payloadSize 12 4).flatMap fun i => repairsOf (get32 p 8) (get16 p i) (get16 p (i + 2)) := by
      rw [List.flatMap_map]
      refine List.flatMap_congr fun i member => ?_
      have complete := offsets_complete (by decide) member
      have start : 12 ≤ i := by
        obtain ⟨k, -, rfl⟩ := List.mem_map.mp member
        exact Nat.le_add_right _ _
      rw [RtcpEntry.actions, get32_slice (by decide), get16_slice (by decide), get16_slice (by decide), Nat.add_zero,
        Nat.add_zero, same (by omega), same16 (by omega), same16 (by omega)]
    by_cases room : 16 ≤ b.payloadSize
    · rw [if_pos ⟨rfl, rfl, room⟩, if_neg (by decide), if_neg (by simp), if_neg (by simp), if_neg (by simp),
        if_pos ⟨rfl, rfl⟩, rows, offsets, List.flatMap_map]
      refine List.flatMap_congr fun i _ => ?_
      rw [Nat.mul_comm, Nat.add_right_comm]
    · rw [if_neg (fun all => room all.2.2), if_neg (by decide), if_neg (by simp), if_neg (by simp), if_neg (by simp),
        if_pos ⟨rfl, rfl⟩, rows, offsets_nil (by decide) (by omega)]
      rfl
  rw [if_neg (fun all => nack ⟨all.1, all.2.1⟩)]
  have silent : ∀ offsets : List Nat, (offsets.map fun i => RtcpEntry.report (slice b.payload i 24)).flatMap
      RtcpEntry.actions = [] := by
    intro offsets
    simp [List.flatMap_map, RtcpEntry.actions]
  split_ifs
  · exact (silent _).symm
  · exact (silent _).symm
  · rfl
  · rfl
  · rfl

/-- A block of which the header was read, and judged as for the entries. -/
theorem rtcpActions_succ {p : Bytes} (header : 4 ≤ p.length) (turns : Nat) :
    rtcpActions (turns + 1) p =
      match nextBlock p with
      | none => []
      | some b => blockActions p b.payloadSize ++ rtcpActions turns (p.drop b.octets.length) := by
  have version : ∀ head : Byte, head.toNat >>> 6 ≠ 2 ↔ head >>> 6 ≠ 2 := by decide
  have flag : ∀ head : Byte, head.toNat &&& 32 ≠ 0 ↔ head &&& 32 ≠ 0 := by decide
  have read := readBlock_eq header
  rw [readBlock, read16_eq (by omega), read8_eq (by omega)] at read
  simp only [Option.bind_eq_bind, Option.bind_some] at read
  rw [rtcpActions, if_neg (by omega)]
  simp only [version, flag]
  by_cases refused : byteAt p 0 >>> 6 ≠ 2 ∨ p.length < ((get16 p 2).toNat + 1) * 4
  · rw [if_pos (by tauto)] at read
    rw [if_pos refused, Option.map_eq_none_iff.mp (Option.some.inj read).symm]
  rw [if_neg (fun any => refused (any.imp_right fun rest => rest.resolve_left (by omega)))] at read
  rw [if_neg refused]
  have found : ∀ {length size : Nat},
      some (some (length, size)) = some ((nextBlock p).map fun b => (b.octets.length, b.payloadSize)) →
        ∃ b, nextBlock p = some b ∧ b.octets.length = length ∧ b.payloadSize = size := by
    intro length size sizes
    obtain ⟨b, next, both⟩ := Option.map_eq_some_iff.mp (Option.some.inj sizes).symm
    exact ⟨b, next, congrArg Prod.fst both, congrArg Prod.snd both⟩
  by_cases padded : byteAt p 0 &&& 32 ≠ 0
  · rw [if_pos padded, read8_eq (by omega), Option.bind_some] at read
    rw [decide_eq_true padded]
    simp only [true_and, if_true]
    by_cases bad : (byteAt p (((get16 p 2).toNat + 1) * 4 - 1)).toNat = 0 ∨
        ((get16 p 2).toNat + 1) * 4 - 4 < (byteAt p (((get16 p 2).toNat + 1) * 4 - 1)).toNat
    · rw [if_pos bad] at read
      rw [if_pos bad, Option.map_eq_none_iff.mp (Option.some.inj read).symm]
    · rw [if_neg bad] at read
      obtain ⟨b, next, length, size⟩ := found read
      rw [if_neg bad, next]
      simp only [length, size]
  · rw [if_neg padded] at read
    obtain ⟨b, next, length, size⟩ := found read
    rw [decide_eq_false padded, next]
    simp [length, size]

/-- The actions of a byte string are what its entries ask for. -/
theorem rtcpActions_eq (p : Bytes) : rtcpActions p.length p = (rtcpEntries p).flatMap RtcpEntry.actions := by
  have blocks : ∀ turns p, p.length ≤ turns →
      rtcpActions turns p = ((blocksOf turns p).flatMap fun b => entriesOf b.payload).flatMap RtcpEntry.actions := by
    intro turns
    induction turns with
    | zero => exact fun _ _ => rfl
    | succ turns ih =>
      intro p enough
      by_cases short : p.length < 4
      · rw [rtcpActions, if_pos short, blocksOf, nextBlock_short short]
        rfl
      · rw [rtcpActions_succ (by omega), blocksOf]
        cases next : nextBlock p with
        | none => rfl
        | some b =>
          have whole := congrArg List.length (nextBlock_split next)
          rw [List.length_append] at whole
          have size := b.wellFormed.size
          simp only
          rw [blockActions_eq next, ih _ (by omega), List.flatMap_cons, List.flatMap_append]
  exact blocks p.length p le_rfl

end MiniRtc.Web
