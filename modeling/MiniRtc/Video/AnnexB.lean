import MiniRtc.Video.SliceReading
import MiniRtc.Video.BitstreamSafety

/-! The framing of Annex B (h264_bitstream_parser.cpp): the parser finds the NAL units that were put behind start codes,
and takes out the octets that were put in against start codes. -/
namespace MiniRtc.Video.Syntax
open Wire Reading BitWords BitReader H264BitstreamParser

/-! ### Emulation prevention -/

/-- No start code is in the octets. -/
def NoCode (data : Bytes) : Prop := ∀ before after, data ≠ before ++ 0 :: 0 :: 1 :: after

theorem noCode_nil : NoCode [] := by
  intro before after same
  have := congrArg List.length same
  simp at this

theorem noCode_cons {b : Byte} {data : Bytes} :
    NoCode (b :: data) ↔ (∀ after, b :: data ≠ 0 :: 0 :: 1 :: after) ∧ NoCode data := by
  constructor
  · intro free
    constructor
    · exact fun after => free [] after
    · intro before after same
      exact free (b :: before) after (congrArg (b :: ·) same)
  · rintro ⟨first, rest⟩ before after same
    cases before with
    | nil => exact first after same
    | cons c before => exact rest before after (List.cons.inj same).2

theorem NoCode.cons {b : Byte} {data : Bytes} (some : b ≠ 0) (free : NoCode data) : NoCode (b :: data) :=
  noCode_cons.mpr ⟨fun _ same => some (List.cons.inj same).1, free⟩

/-- Behind so many zeros an octet that is not zero, and not a one behind two of them, begins anew. -/
theorem NoCode.zeros {b : Byte} {data : Bytes} (some : b ≠ 0) (free : NoCode data) (zeros : Nat)
    (other : 2 ≤ zeros → b ≠ 1) : NoCode (List.replicate zeros 0 ++ b :: data) := by
  induction zeros with
  | zero => exact free.cons some
  | succ zeros ih =>
    refine noCode_cons.mpr ⟨fun after same => ?_, ih fun two => other (by omega)⟩
    rcases zeros with _ | _ | zeros
    · exact some (List.cons.inj (List.cons.inj same).2).1
    · exact other (le_refl 2) (List.cons.inj (List.cons.inj (List.cons.inj same).2).2).1
    · have third := (List.cons.inj (List.cons.inj (List.cons.inj same).2).2).1
      exact absurd third (by decide)

theorem escapeFrom_end (zeros : Nat) : escapeFrom zeros [] = if 0 < zeros then [3] else [] := rfl

theorem escapeFrom_cons (zeros : Nat) (b : Byte) (rest : Bytes) :
    escapeFrom zeros (b :: rest) =
      if 2 ≤ zeros ∧ b.toNat ≤ 3 then 3 :: b :: escapeFrom (if b = 0 then 1 else 0) rest
      else b :: escapeFrom (if b = 0 then zeros + 1 else 0) rest := rfl

theorem parseRbsp_three (a b c : Byte) (rest : Bytes) :
    parseRbsp (a :: b :: c :: rest) =
      if a = 0 ∧ b = 0 ∧ c = 3 then a :: b :: parseRbsp rest else a :: parseRbsp (b :: c :: rest) := rfl

/-- Behind at most two zeros, what is escaped holds no start code. -/
theorem escapeFrom_noCode (rbsp : Bytes) (zeros : Nat) (few : zeros ≤ 2) :
    NoCode (List.replicate zeros 0 ++ escapeFrom zeros rbsp) := by
  induction rbsp generalizing zeros with
  | nil =>
    rw [escapeFrom_end]
    split
    · exact NoCode.zeros (by decide) noCode_nil zeros fun _ => by decide
    · obtain rfl : zeros = 0 := by omega
      exact noCode_nil
  | cons b rest ih =>
    have zero : NoCode (b :: escapeFrom (if b = 0 then 1 else 0) rest) := by
      by_cases none : b = 0
      · rw [none, if_pos rfl]
        exact ih 1 (by omega)
      · rw [if_neg none]
        exact (ih 0 (by omega)).cons none
    rw [escapeFrom_cons]
    split
    · exact NoCode.zeros (by decide) zero zeros fun _ => by decide
    · rename_i plain
      by_cases none : b = 0
      · have more : zeros < 2 := by
          by_contra two
          exact plain ⟨not_lt.mp two, by simp [none]⟩
        have next := ih (zeros + 1) (by omega)
        rw [if_pos none, none]
        rwa [List.replicate_succ', List.append_assoc] at next
      · rw [if_neg none]
        refine NoCode.zeros none (ih 0 (by omega)) zeros fun two one => plain ⟨two, by simp [one]⟩

theorem escapeFrom_nil {rbsp : Bytes} {zeros : Nat} (empty : escapeFrom zeros rbsp = []) : zeros = 0 := by
  cases rbsp with
  | nil =>
    rw [escapeFrom_end] at empty
    split at empty
    · cases empty
    · omega
  | cons b rest =>
    rw [escapeFrom_cons] at empty
    split at empty <;> cases empty

theorem getLast_cons {b : Byte} {data : Bytes} (last : data.getLast? ≠ some 0) (some : data = [] → b ≠ 0) :
    (b :: data).getLast? ≠ Option.some 0 := by
  cases data with
  | nil => simpa using some rfl
  | cons c data => rwa [List.getLast?_cons_cons]

/-- What is escaped does not end in a zero. -/
theorem escapeFrom_last (rbsp : Bytes) (zeros : Nat) : (escapeFrom zeros rbsp).getLast? ≠ some 0 := by
  induction rbsp generalizing zeros with
  | nil =>
    rw [escapeFrom_end]
    split <;> simp
  | cons b rest ih =>
    rw [escapeFrom_cons]
    split
    · refine getLast_cons (getLast_cons (ih _) fun empty none => ?_) (by simp)
      have := escapeFrom_nil empty
      simp [none] at this
    · refine getLast_cons (ih _) fun empty none => ?_
      have := escapeFrom_nil empty
      simp [none] at this

theorem parseRbsp_some {b : Byte} (data : Bytes) (some : b ≠ 0) : parseRbsp (b :: data) = b :: parseRbsp data := by
  rcases data with _ | ⟨c, _ | ⟨d, rest⟩⟩
  · rfl
  · rfl
  · rw [parseRbsp_three, if_neg fun all => some all.1]

theorem parseRbsp_second {a b : Byte} (data : Bytes) (some : b ≠ 0) :
    parseRbsp (a :: b :: data) = a :: parseRbsp (b :: data) := by
  rcases data with _ | ⟨c, rest⟩
  · rfl
  · rw [parseRbsp_three, if_neg fun all => some all.2.1]

/-- The parser takes out what was put in, up to a last 3 behind a single zero. -/
theorem parseRbsp_escapeFrom (rbsp : Bytes) (zeros : Nat) (few : zeros ≤ 2) :
    ∃ tail, parseRbsp (List.replicate zeros 0 ++ escapeFrom zeros rbsp) = List.replicate zeros 0 ++ rbsp ++ tail := by
  induction rbsp generalizing zeros with
  | nil =>
    interval_cases zeros
    · exact ⟨[], rfl⟩
    · exact ⟨[3], rfl⟩
    · exact ⟨[], rfl⟩
  | cons b rest ih =>
    have plain : b ≠ 0 → ∃ tail, parseRbsp (b :: escapeFrom 0 rest) = b :: (rest ++ tail) := by
      intro some'
      obtain ⟨tail, same⟩ := ih 0 (by omega)
      exact ⟨tail, by rw [parseRbsp_some _ some']; exact congrArg _ same⟩
    have next : ∃ tail, parseRbsp (b :: escapeFrom (if b = 0 then 1 else 0) rest) = b :: (rest ++ tail) := by
      by_cases none : b = 0
      · obtain ⟨tail, same⟩ := ih 1 (by omega)
        rw [if_pos none, none]
        exact ⟨tail, same⟩
      · rw [if_neg none]
        exact plain none
    rw [escapeFrom_cons]
    by_cases inserted : 2 ≤ zeros ∧ b.toNat ≤ 3
    · obtain rfl : zeros = 2 := by omega
      obtain ⟨tail, same⟩ := next
      refine ⟨tail, ?_⟩
      rw [if_pos inserted]
      change parseRbsp (0 :: 0 :: 3 :: _) = _
      rw [parseRbsp_three, if_pos ⟨rfl, rfl, rfl⟩, same]
      simp
    · rw [if_neg inserted]
      by_cases none : b = 0
      · have more : zeros < 2 := by
          by_contra two
          exact inserted ⟨not_lt.mp two, by simp [none]⟩
        obtain ⟨tail, same⟩ := ih (zeros + 1) (by omega)
        refine ⟨tail, ?_⟩
        rw [if_pos none, none]
        simpa [List.replicate_succ', List.append_assoc] using same
      · obtain ⟨tail, same⟩ := plain none
        refine ⟨tail, ?_⟩
        rw [if_neg none]
        interval_cases zeros
        · exact same
        · change parseRbsp (0 :: b :: _) = _
          rw [parseRbsp_second _ none, same]
          simp
        · have three : b ≠ 3 := fun three => inserted ⟨le_refl 2, by simp [three]⟩
          change parseRbsp (0 :: 0 :: b :: _) = _
          rw [parseRbsp_three, if_neg fun all => three all.2.2, parseRbsp_second _ none, same]
          simp

theorem parseRbsp_escape (rbsp : Bytes) : ∃ tail, parseRbsp (escape rbsp) = rbsp ++ tail :=
  parseRbsp_escapeFrom rbsp 0 (Nat.zero_le 2)

/-! ### Start codes -/

/-- Octets that can stand between start codes. -/
structure Framed (nal : Bytes) : Prop where
  some : nal ≠ []
  free : NoCode nal
  last : nal.getLast? ≠ Option.some 0

/-- No start code begins in front of the last octet of a unit, whatever follows. -/
theorem startCodeLength_none {b : Byte} {data : Bytes} (free : NoCode (b :: data))
    (last : (b :: data).getLast? ≠ some 0) (after : Bytes) : startCodeLength (b :: data ++ after) = none := by
  have short : (b :: data ++ after).take 3 ≠ [0, 0, 1] := by
    intro same
    rcases data with _ | ⟨c, _ | ⟨d, rest⟩⟩
    · exact last (congrArg some (List.cons.inj same).1)
    · exact last (congrArg some (List.cons.inj (List.cons.inj same).2).1)
    · obtain ⟨rfl, rfl, rfl⟩ : b = 0 ∧ c = 0 ∧ d = 1 := by simpa using same
      exact free [] rest rfl
  have long : (b :: data ++ after).take 4 ≠ [0, 0, 0, 1] := by
    intro same
    rcases data with _ | ⟨c, _ | ⟨d, _ | ⟨e, rest⟩⟩⟩
    · exact last (congrArg some (List.cons.inj same).1)
    · exact last (congrArg some (List.cons.inj (List.cons.inj same).2).1)
    · exact last (congrArg some (List.cons.inj (List.cons.inj (List.cons.inj same).2).2).1)
    · obtain ⟨rfl, rfl, rfl, rfl⟩ : b = 0 ∧ c = 0 ∧ d = 0 ∧ e = 1 := by simpa using same
      exact free [0] rest rfl
  rw [startCodeLength, if_neg long, if_neg short]

theorem findStartCode_cons (b : Byte) (rest : Bytes) :
    findStartCode (b :: rest) =
      match startCodeLength (b :: rest) with
      | some length => some (0, length)
      | none => (findStartCode rest).map fun found => (found.1 + 1, found.2) := rfl

/-- The search goes past a unit. -/
theorem findStartCode_append {nal : Bytes} (free : NoCode nal) (last : nal.getLast? ≠ some 0) (after : Bytes) :
    findStartCode (nal ++ after) = (findStartCode after).map fun found => (nal.length + found.1, found.2) := by
  induction nal with
  | nil => simp
  | cons b rest ih =>
    have none := startCodeLength_none free last after
    have later : rest.getLast? ≠ some 0 := by
      intro zero
      cases rest with
      | nil => cases zero
      | cons c rest => exact last (by rwa [List.getLast?_cons_cons])
    rw [List.cons_append] at none ⊢
    rw [findStartCode_cons, none, ih (noCode_cons.mp free).2 later, Option.map_map]
    dsimp only
    congr 1
    funext found
    simp only [Function.comp_apply, List.length_cons, Prod.mk.injEq, and_true]
    omega

theorem findStartCode_here (long : Bool) (after : Bytes) :
    findStartCode (startCode long ++ after) = some (0, (startCode long).length) := by
  cases long
  · change findStartCode (0 :: 0 :: 1 :: after) = _
    have here : startCodeLength (0 :: 0 :: 1 :: after) = some 3 := by
      simp [startCodeLength]
    rw [findStartCode_cons, here]
    rfl
  · change findStartCode (0 :: 0 :: 0 :: 1 :: after) = _
    rw [findStartCode_cons]
    rfl

variable {units : List (Bool × Bytes)}

/-- Units behind start codes. -/
def frame (units : List (Bool × Bytes)) : Bytes := units.flatMap fun unit => startCode unit.1 ++ unit.2

theorem nalusFrom_frame {nal : Bytes} (framed : Framed nal) (all : ∀ unit ∈ units, Framed unit.2) :
    nalusFrom (nal ++ frame units) = nal :: units.map Prod.snd := by
  induction units generalizing nal with
  | nil =>
    have none : findStartCode (nal ++ frame []) = none := by
      rw [findStartCode_append framed.free framed.last]
      rfl
    rw [nalusFrom]
    split
    · rw [frame, List.flatMap_nil, List.append_nil, if_neg framed.some]
      rfl
    · rename_i found there
      rw [none] at there
      cases there
  | cons unit units ih =>
    have next : findStartCode (nal ++ frame (unit :: units)) = some (nal.length, (startCode unit.1).length) := by
      rw [findStartCode_append framed.free framed.last, frame, List.flatMap_cons, List.append_assoc, findStartCode_here]
      rfl
    have rest : (nal ++ frame (unit :: units)).drop (nal.length + (startCode unit.1).length) =
        unit.2 ++ frame units := by
      rw [← List.drop_drop, List.drop_left, frame, List.flatMap_cons, List.append_assoc, List.drop_left]
      rfl
    have size : 0 < nal.length := List.length_pos_iff.mpr framed.some
    have later := ih (all unit List.mem_cons_self) fun u mem => all u (List.mem_cons_of_mem _ mem)
    rw [nalusFrom]
    split
    · rename_i none
      rw [next] at none
      cases none
    · rename_i found there
      obtain rfl := Option.some.inj (next.symm.trans there)
      rw [if_pos size, rest, later, List.take_left]
      rfl

/-- The parser finds the units. -/
theorem findNaluIndices_frame (all : ∀ unit ∈ units, Framed unit.2) :
    findNaluIndices (frame units) = units.map Prod.snd := by
  cases units with
  | nil => rfl
  | cons unit units =>
    have here : findStartCode (frame (unit :: units)) = some (0, (startCode unit.1).length) := by
      rw [frame, List.flatMap_cons, List.append_assoc, findStartCode_here]
    have rest : (frame (unit :: units)).drop (0 + (startCode unit.1).length) = unit.2 ++ frame units := by
      rw [Nat.zero_add, frame, List.flatMap_cons, List.append_assoc, List.drop_left]
      rfl
    rw [findNaluIndices, here]
    dsimp only
    rw [rest]
    exact nalusFrom_frame (all unit List.mem_cons_self) fun u mem => all u (List.mem_cons_of_mem _ mem)

/-! ### NAL units -/

theorem nalHeader_parts : ∀ (nalRefIdc : BitVec 2) (nalUnitType : BitVec 5),
    (nalHeader nalRefIdc nalUnitType).setWidth 5 = nalUnitType ∧
      (nalHeader nalRefIdc nalUnitType >>> 5).setWidth 2 = nalRefIdc ∧
      (nalUnitType ≠ 0 → nalHeader nalRefIdc nalUnitType ≠ 0) := by
  decide

theorem Payload.framed {header : List Bool} (p : Payload header) (nalRefIdc : BitVec 2) {nalUnitType : BitVec 5}
    (known : nalUnitType ≠ 0) : Framed (p.nal nalRefIdc nalUnitType) := by
  have some' := (nalHeader_parts nalRefIdc nalUnitType).2.2 known
  constructor
  · exact List.cons_ne_nil _ _
  · exact (escapeFrom_noCode _ 0 (Nat.zero_le 2)).cons some'
  · exact getLast_cons (escapeFrom_last _ 0) fun _ => some'

theorem Item.framed {sps : Sps} {pps : Pps} (item : Item sps pps) : Framed item.nal := by
  cases item with
  | sps nalRefIdc payload => exact payload.framed nalRefIdc (by decide)
  | pps nalRefIdc payload => exact payload.framed nalRefIdc (by decide)
  | slice nalRefIdc idr header payload => exact payload.framed nalRefIdc (by cases idr <;> decide)
  | other nal => exact ⟨List.cons_ne_nil _ _, nal.free, nal.final⟩

theorem bitsOf_append (a b : Bytes) : bitsOf (a ++ b) = bitsOf a ++ bitsOf b := List.flatMap_append

/-- The bits of a header are at the front of what the parser reads. -/
theorem Payload.written {header : List Bool} (p : Payload header) :
    ∃ tail, bitsOf (parseRbsp (escape (pack (header ++ p.others)))) = header ++ tail := by
  obtain ⟨rest, same⟩ := parseRbsp_escape (pack (header ++ p.others))
  refine ⟨p.others ++ bitsOf rest, ?_⟩
  rw [same, bitsOf_append, bitsOf_pack p.whole, List.append_assoc]

/-! ### The parser along a stream -/

section Parser

variable {sps : Sps} {pps : Pps} (p : H264BitstreamParser)

theorem parseNalu_sps (nalRefIdc : BitVec 2) (payload : Payload sps.bits) :
    p.parseNalu (payload.nal nalRefIdc 7) = .ok { p with sps := some sps.result } := by
  obtain ⟨tail, written⟩ := payload.written
  have kind := (nalHeader_parts nalRefIdc 7).1
  rw [Payload.nal, parseNalu, kind, if_pos rfl, parseSps_reads sps written]
  rfl

theorem parseNalu_pps (nalRefIdc : BitVec 2) (payload : Payload pps.bits) :
    p.parseNalu (payload.nal nalRefIdc 8) = .ok { p with pps := some pps.state } := by
  obtain ⟨tail, written⟩ := payload.written
  have kind := (nalHeader_parts nalRefIdc 8).1
  rw [Payload.nal, parseNalu, kind, if_neg (by decide), if_pos rfl, parsePps_reads pps written]
  rfl

theorem parseNalu_other (nal : Other) : p.parseNalu (nal.header :: nal.payload) = .ok p := by
  have kind := nal.kind
  simp only [List.mem_cons, List.not_mem_nil, or_false, not_or] at kind
  obtain ⟨one, five, seven, eight⟩ := kind
  have noSps : ¬ nal.header.setWidth 5 = (7 : BitVec 5) := seven
  have noPps : ¬ nal.header.setWidth 5 = (8 : BitVec 5) := eight
  have noSlice : ¬ (nal.header.setWidth 5 = (1 : BitVec 5) ∨ nal.header.setWidth 5 = (5 : BitVec 5)) :=
    not_or.mpr ⟨one, five⟩
  rw [parseNalu, if_neg noSps, if_neg noPps, if_neg noSlice]

theorem golomb_ne (v : Nat) : 0 < (golomb v).length := List.length_pos_iff.mpr (golomb_ne_nil v)

theorem Payload.nonempty {header : List Bool} (p : Payload header) (some : 0 < header.length) :
    escape (pack (header ++ p.others)) ≠ [] := by
  intro empty
  obtain ⟨tail, written⟩ := p.written
  rw [empty] at written
  have := congrArg List.length written
  simp [parseRbsp, bitsOf] at this
  omega

theorem sliceType_parts : ∀ idr : Bool, ¬ (if idr then 5 else 1 : BitVec 5) = 7 ∧
    ¬ (if idr then 5 else 1 : BitVec 5) = 8 ∧
    ((if idr then 5 else 1 : BitVec 5) = 1 ∨ (if idr then 5 else 1 : BitVec 5) = 5) := by
  decide

theorem parseNalu_slice (known : p.sps = some sps.result) (known' : p.pps = some pps.state)
    (refers : pps.spsId = sps.id) (nalRefIdc : BitVec 2) (idr : Bool) (header : SliceHeader pps)
    (payload : Payload (header.bits sps idr nalRefIdc)) (small : |header.sliceQpDelta.val| ≤ 51) :
    p.parseNalu (payload.nal nalRefIdc (if idr then 5 else 1)) =
      .ok { p with lastSliceQpDelta := some header.sliceQpDelta.val } := by
  obtain ⟨tail, written⟩ := payload.written
  obtain ⟨kind, reference, some'⟩ := nalHeader_parts nalRefIdc (if idr then 5 else 1)
  obtain ⟨width, height, size⟩ := sps.result_state
  have bits : 0 < (header.bits sps idr nalRefIdc).length := by
    rw [SliceHeader.bits, List.flatten_cons, List.length_append]
    have := golomb_ne header.firstMbInSlice.val
    omega
  have long : ¬ (payload.nal nalRefIdc (if idr then 5 else 1)).length ≤ 1 := by
    have := List.length_pos_iff.mpr (payload.nonempty bits)
    rw [Payload.nal, List.length_cons]
    omega
  have front : bitsOf (parseRbsp (payload.nal nalRefIdc (if idr then 5 else 1))) =
      word 8 (nalHeader nalRefIdc (if idr then 5 else 1)).toNat ++ header.bits sps idr nalRefIdc ++ tail := by
    rw [Payload.nal, parseRbsp_some _ (some' (by cases idr <;> decide)), bitsOf, List.flatMap_cons, List.append_assoc]
    exact congrArg _ written
  have slice : p.parseSlice (payload.nal nalRefIdc (if idr then 5 else 1)) (if idr then 5 else 1) =
      .ok { p with lastSliceQpDelta := some header.sliceQpDelta.val } := by
    have read := readSlice_reads header sps width height refers idr nalRefIdc
      (nalHeader nalRefIdc (if idr then 5 else 1)) small
    have result := read { data := parseRbsp (payload.nal nalRefIdc (if idr then 5 else 1)) } tail front
    have first : (byteAt (payload.nal nalRefIdc (if idr then 5 else 1)) 0 >>> 5).setWidth 2 = nalRefIdc := reference
    rw [parseSlice, known, known']
    dsimp only
    rw [if_neg long, first, size]
    rw [sliceNalType] at result
    rw [result]
    rfl
  obtain ⟨noSps, noPps, slices⟩ := sliceType_parts idr
  rw [← slice, Payload.nal, parseNalu, kind, if_neg noSps, if_neg noPps, if_pos slices]

/-- A slice leaves the parameter sets as they are, whatever its header is. -/
theorem parseNalu_slice_sets (nalRefIdc : BitVec 2) (idr : Bool) {header : List Bool} (payload : Payload header) :
    ∃ delta, p.parseNalu (payload.nal nalRefIdc (if idr then 5 else 1)) = .ok { p with lastSliceQpDelta := delta } := by
  have kind := (nalHeader_parts nalRefIdc (if idr then 5 else 1)).1
  obtain ⟨noSps, noPps, slices⟩ := sliceType_parts idr
  rw [Payload.nal, parseNalu, kind, if_neg noSps, if_neg noPps, if_pos slices]
  exact p.parseSlice_ok _ _

theorem parseNalus_append (first second : List Bytes) :
    p.parseNalus (first ++ second) = (p.parseNalus first).bind fun q => q.parseNalus second := by
  exact List.foldlM_append

/-- In front of the slices the parameter sets become known. -/
theorem parseNalus_front (items : List (Bool × Item sps pps)) (noSlice : ∀ item ∈ items, item.2.sliceHeader = none) :
    p.parseNalus (items.map fun item => item.2.nal) = .ok
      { p with
        sps := if items.any (fun item => item.2.isSps) then some sps.result else p.sps
        pps := if items.any (fun item => item.2.isPps) then some pps.state else p.pps } := by
  induction items using List.reverseRecOn with
  | nil => rfl
  | append_singleton items item ih =>
    have before := ih fun i mem => noSlice i (List.mem_append_left _ mem)
    rw [List.map_append, parseNalus_append, before, List.any_append, List.any_append, List.any_cons, List.any_cons,
      List.any_nil, List.any_nil, Bool.or_false, Bool.or_false]
    change ({ p with sps := _, pps := _ } : H264BitstreamParser).parseNalus [item.2.nal] = _
    rw [parseNalus, List.foldlM_cons]
    obtain ⟨long, item⟩ := item
    cases item with
    | sps nalRefIdc payload =>
      have isSps : (Item.sps nalRefIdc payload : Item sps pps).isSps = true := rfl
      have isPps : (Item.sps nalRefIdc payload : Item sps pps).isPps = false := rfl
      rw [Item.nal, parseNalu_sps, isSps, isPps, Bool.or_true, Bool.or_false, if_pos rfl]
      rfl
    | pps nalRefIdc payload =>
      have isSps : (Item.pps nalRefIdc payload : Item sps pps).isSps = false := rfl
      have isPps : (Item.pps nalRefIdc payload : Item sps pps).isPps = true := rfl
      rw [Item.nal, parseNalu_pps, isSps, isPps, Bool.or_true, Bool.or_false, if_pos rfl]
      rfl
    | slice nalRefIdc idr header payload =>
      have none := noSlice (long, .slice nalRefIdc idr header payload) (by simp)
      cases none
    | other nal =>
      have isSps : (Item.other nal : Item sps pps).isSps = false := rfl
      have isPps : (Item.other nal : Item sps pps).isPps = false := rfl
      rw [Item.nal, parseNalu_other, isSps, isPps, Bool.or_false, Bool.or_false]
      rfl

/-- The slices change only the delta, which is that of the last one. -/
theorem parseNalus_slices (known : p.sps = some sps.result) (known' : p.pps = some pps.state)
    (refers : pps.spsId = sps.id) (items : List (Bool × Item sps pps))
    (later : ∀ item ∈ items, item.2.isSps = false ∧ item.2.isPps = false) :
    ∃ delta, p.parseNalus (items.map fun item => item.2.nal) = .ok { p with lastSliceQpDelta := delta } ∧
      ∀ header, (items.filterMap fun item => item.2.sliceHeader).getLast? = some header →
        |header.sliceQpDelta.val| ≤ 51 → delta = some header.sliceQpDelta.val := by
  induction items using List.reverseRecOn with
  | nil => exact ⟨p.lastSliceQpDelta, rfl, fun header last => by cases last⟩
  | append_singleton items item ih =>
    obtain ⟨delta, before, lastBefore⟩ := ih fun i mem => later i (List.mem_append_left _ mem)
    have step : ∀ q, p.parseNalus ((items ++ [item]).map fun item => item.2.nal) = .ok q ↔
        ({ p with lastSliceQpDelta := delta } : H264BitstreamParser).parseNalu item.2.nal = .ok q := by
      intro q
      rw [List.map_append, parseNalus_append, before]
      change ({ p with lastSliceQpDelta := delta } : H264BitstreamParser).parseNalus [item.2.nal] = _ ↔ _
      rw [parseNalus, List.foldlM_cons]
      simp
    obtain ⟨long, item⟩ := item
    cases item with
    | sps nalRefIdc payload =>
      have none := (later (long, .sps nalRefIdc payload) (by simp)).1
      cases none
    | pps nalRefIdc payload =>
      have none := (later (long, .pps nalRefIdc payload) (by simp)).2
      cases none
    | other nal =>
      refine ⟨delta, (step _).mpr (parseNalu_other _ nal), fun header last small => ?_⟩
      refine lastBefore header ?_ small
      simpa [Item.sliceHeader] using last
    | slice nalRefIdc idr header payload =>
      obtain ⟨delta', parsed⟩ := parseNalu_slice_sets { p with lastSliceQpDelta := delta } nalRefIdc idr payload
      refine ⟨delta', (step _).mpr parsed, fun header' last small => ?_⟩
      have same : header = header' := by simpa [Item.sliceHeader] using last
      subst same
      have read := parseNalu_slice { p with lastSliceQpDelta := delta } known known' refers nalRefIdc idr header payload
        small
      have equal := Except.ok.inj (parsed.symm.trans read)
      exact congrArg H264BitstreamParser.lastSliceQpDelta equal

end Parser

/-- Every stream is read as it was written, and on any octets the parser ends without a read outside a payload. -/
theorem headers_read (parser : H264BitstreamParser) :
    (∀ bytes, ∃ p, parser.parseBitstream bytes = .ok p) ∧
    ∀ s : Stream, ∃ p, parser.parseBitstream s.bytes = .ok p ∧
      (∀ slice, s.lastSlice = some slice →
        0 ≤ 26 + s.pps.picInitQpMinus26.val + slice.sliceQpDelta.val →
        26 + s.pps.picInitQpMinus26.val + slice.sliceQpDelta.val ≤ 51 →
        p.getLastSliceQp = some (26 + s.pps.picInitQpMinus26.val + slice.sliceQpDelta.val)) ∧
      (s.sps.picWidthInMbsMinus1.val + 1 ≤ 512 → s.sps.picHeightInMapUnitsMinus1.val + 1 ≤ 512 →
        0 < s.sps.croppedWidth → s.sps.croppedWidth ≤ 8192 → 0 < s.sps.croppedHeight → s.sps.croppedHeight ≤ 8192 →
        p.getResolution = some (s.sps.croppedWidth, s.sps.croppedHeight)) := by
  refine ⟨parser.parseBitstream_ok, fun s => ?_⟩
  have units : findNaluIndices s.bytes = s.items.map fun item => item.2.nal := by
    have framed : ∀ unit ∈ s.items.map fun item => (item.1, item.2.nal), Framed unit.2 := by
      intro unit mem
      obtain ⟨item, -, rfl⟩ := List.mem_map.mp mem
      exact item.2.framed
    have found := findNaluIndices_frame framed
    rwa [frame, List.flatMap_map, List.map_map] at found
  have sps : (s.front.any fun item => item.2.isSps) = true := by
    obtain ⟨item, mem, isSps⟩ := List.countP_pos_iff.mp (by rw [s.oneSps]; exact Nat.one_pos)
    exact List.any_eq_true.mpr ⟨item, mem, isSps⟩
  have pps : (s.front.any fun item => item.2.isPps) = true := by
    obtain ⟨item, mem, isPps⟩ := List.countP_pos_iff.mp (by rw [s.onePps]; exact Nat.one_pos)
    exact List.any_eq_true.mpr ⟨item, mem, isPps⟩
  have front := parseNalus_front { parser with lastSliceQpDelta := none } s.front s.noSlice
  rw [if_pos sps, if_pos pps] at front
  obtain ⟨delta, slices, last⟩ := parseNalus_slices
    { sps := some s.sps.result, pps := some s.pps.state, lastSliceQpDelta := none } rfl rfl s.refers s.slices s.later
  refine ⟨{ sps := some s.sps.result, pps := some s.pps.state, lastSliceQpDelta := delta }, ?_, ?_, ?_⟩
  · rw [parseBitstream, units, Stream.items, List.map_append, parseNalus_append, front]
    exact slices
  · intro slice there low high
    have noSlice : (s.front.filterMap fun item => item.2.sliceHeader) = [] :=
      List.filterMap_eq_nil_iff.mpr s.noSlice
    rw [Stream.lastSlice, Stream.items, List.filterMap_append, noSlice, List.nil_append] at there
    have range := s.pps.picInitQpMinus26.property
    have read := last slice there (abs_le.mpr ⟨by omega, by omega⟩)
    have init : s.pps.state.picInitQpMinus26 = s.pps.picInitQpMinus26.val := rfl
    rw [read, getLastSliceQp]
    simp only [init, kMinQp, kMaxQp]
    rw [if_neg (by omega)]
  · intro wide high width width' height height'
    have size := s.sps.result_size (by omega) (by omega) ⟨width, width'⟩ ⟨height, height'⟩
    rw [getResolution, size]
    exact if_neg (not_or.mpr ⟨width.ne', height.ne'⟩)

/-- A stream of the baseline profile, 640 by 480, with one IDR slice. -/
theorem headers_read_baseline : ∃ s : Stream,
    s.bytes = [0, 0, 0, 1, 0x67, 66, 192, 30, 218, 2, 128, 246, 128, 0, 0, 0, 1, 0x68, 206, 9, 136,
      0, 0, 1, 0x65, 136, 132, 62] ∧
    ∃ p, ({} : H264BitstreamParser).parseBitstream s.bytes = .ok p ∧ p.getLastSliceQp = some 25 ∧
      p.getResolution = some (640, 480) := by
  refine ⟨
    { sps :=
        { profileIdc := 66
          constraintsAndLevel := 0xc01e
          id := 0
          highProfile := ⟨1, false, ⟨0, by decide⟩, ⟨0, by decide⟩, false, none⟩
          log2MaxFrameNumMinus4 := 0
          pictureOrder := .output
          maxNumRefFrames := ⟨1, by decide⟩
          gapsInFrameNumAllowed := false
          picWidthInMbsMinus1 := ⟨39, by decide⟩
          picHeightInMapUnitsMinus1 := ⟨29, by decide⟩
          frameMbsOnly := true
          mbAdaptiveFrameField := false
          direct8x8Inference := true
          cropping := none }
      pps :=
        { id := 0
          spsId := 0
          entropyCodingMode := false
          bottomFieldPicOrderInFramePresent := false
          numSliceGroupsMinus1 := 0
          sliceGroupMap := .dispersed
          numRefIdxL0DefaultActiveMinus1 := 0
          numRefIdxL1DefaultActiveMinus1 := 0
          weightedPred := false
          weightedBipredIdc := 0
          picInitQpMinus26 := ⟨2, by decide⟩
          picInitQsMinus26 := ⟨0, by decide⟩
          chromaQpIndexOffset := ⟨0, by decide⟩
          deblockingFilterControlPresent := false
          constrainedIntraPred := false
          redundantPicCntPresent := false }
      refers := rfl
      front := [(true, .sps 3 ⟨true :: List.replicate 7 false, by decide +kernel⟩),
        (true, .pps 3 ⟨true :: List.replicate 3 false, by decide +kernel⟩)]
      slices := [(false, .slice 3 true
        { firstMbInSlice := ⟨0, by decide⟩
          sliceType := ⟨7, by decide⟩
          colourPlaneId := 0
          frameNum := 0
          fieldPic := false
          bottomField := false
          idrPicId := ⟨0, by decide⟩
          picOrderCntLsb := 0
          deltaPicOrderCntBottom := ⟨0, by decide⟩
          deltaPicOrderCnt0 := ⟨0, by decide⟩
          deltaPicOrderCnt1 := ⟨0, by decide⟩
          redundantPicCnt := ⟨0, by decide⟩
          directSpatialMvPred := false
          override := none
          modificationsL0 := none
          modificationsL1 := none
          lumaLog2WeightDenom := ⟨0, by decide⟩
          chromaLog2WeightDenom := ⟨0, by decide⟩
          weightsL0 := [⟨none, none⟩]
          weightsL1 := [⟨none, none⟩]
          countL0 := rfl
          countL1 := rfl
          noOutputOfPriorPics := false
          longTermReference := false
          markings := none
          cabacInitIdc := ⟨0, by decide⟩
          sliceQpDelta := ⟨-3, by decide⟩ }
        ⟨[true, true, false], by decide +kernel⟩)]
      oneSps := rfl
      onePps := rfl
      noSlice := by decide +kernel
      later := by decide +kernel }, by decide +kernel, ?_⟩
  obtain ⟨p, parsed, qp, size⟩ := (headers_read {}).2 _
  exact ⟨p, parsed, qp _ rfl (by decide) (by decide),
    size (by decide) (by decide) (by decide) (by decide) (by decide) (by decide)⟩

end MiniRtc.Video.Syntax
