import MiniRtc.Video.HeaderReading

/-! What the parser reads from a slice header (`ParseSlice`). -/
namespace MiniRtc.Video.Syntax
open Wire BitWords Reading BitReader H264BitstreamParser

/-- A part whose presence is decided in another way. -/
theorem whenever_iff {c d : Prop} [Decidable c] [Decidable d] {p : Reader Unit} {bits : List Bool} (same : c ↔ d)
    (reads : c → Reads p bits ()) : Reads (whenever c p) (present d bits) () := by
  simp only [← same]
  exact whenever_reads reads

theorem whenever_yes {c : Prop} [Decidable c] {p : Reader Unit} {bits : List Bool} (holds : c)
    (reads : Reads p bits ()) : Reads (whenever c p) bits () := by
  rw [whenever, if_pos holds]
  exact reads

theorem whenever_no {c : Prop} [Decidable c] {p : Reader Unit} (fails : ¬c) : Reads (whenever c p) [] () := by
  rw [whenever, if_neg fails]
  exact .pure ()

theorem skipWord_reads (n v : Nat) : Reads (skipBits n) (word n v) () := by
  have reads := skipBits_reads (word n v)
  rwa [length_word] at reads

theorem golomb_ne_nil (v : Nat) : golomb v ≠ [] := by simp [golomb]

/-! ### Reference lists -/

theorem readModification_reads (m : Modification) :
    Reads readModification [golomb m.idc, golomb m.value.val].flatten true := by
  have value := skipUnsignedGolomb_reads m.value
  simp only [List.flatten_cons, List.flatten_nil]
  refine .bind (fin_reads m.idc (by decide)) ?_
  have more : (m.idc.val != 3) = true := by
    rw [bne_iff_ne]
    omega
  have last : Reads (pure (m.idc.val != 3) : Reader Bool) [] true := by
    rw [more]
    exact .pure true
  by_cases long : m.idc.val = 2
  · exact .after (whenever_no (by omega)) (.bind (whenever_yes long value) (.after (check_reads (by omega)) last))
  · exact .bind (whenever_yes (by omega) value) (.after (whenever_no long) (.after (check_reads (by omega)) last))

theorem endModification_reads : Reads readModification (golomb 3) false := by
  rw [← List.append_nil (golomb 3)]
  refine .bind (golomb_reads (by decide)) (.after (whenever_no (by decide)) (.after (whenever_no (by decide)) ?_))
  exact .after (check_reads (by decide)) (.pure _)

theorem skipModifications_reads (modifications : Option (List Modification)) :
    Reads skipModifications (modificationsBits modifications) () := by
  cases modifications with
  | none => exact (readBit_reads false).bind (.pure ())
  | some items =>
    refine (readBit_reads true).bind (whenever_yes rfl ?_)
    refine .doWhile items (fun m _ => ?_) (fun m _ => readModification_reads m) endModification_reads
    simp [golomb]

/-! ### Weights -/

theorem skipWeight_reads (w : Weight) :
    Reads (do skipSignedGolomb; skipSignedGolomb : Reader Unit) (weightBits w) () := by
  simp only [weightBits, List.flatten_cons, List.flatten_nil, List.append_nil]
  exact .bind (skipSignedGolomb_reads w.1) (skipSignedGolomb_reads w.2)

theorem skipWeights_reads (chromaArrayType : Nat) (w : Weights) :
    Reads (skipWeights chromaArrayType) (w.bits chromaArrayType) () := by
  simp only [Weights.bits, List.flatten_cons, List.flatten_nil, List.append_nil]
  refine .bind (readBit_reads _) (.bind (a := ()) ?_ (whenever_reads fun _ => .bind (readBit_reads _) ?_))
  · cases w.luma with
    | none => exact .pure ()
    | some luma => exact skipWeight_reads luma
  · cases w.chroma with
    | none => exact .pure ()
    | some chroma =>
      have both : [chroma.1, chroma.2].flatMap weightBits = weightBits chroma.1 ++ weightBits chroma.2 := by simp
      have each := Reads.times [chroma.1, chroma.2] fun w _ => skipWeight_reads w
      rw [both] at each
      exact each

theorem skipAllWeights_reads (chromaArrayType : Nat) {weights : List Weights} {n : Nat} (count : weights.length = n) :
    Reads (times n (skipWeights chromaArrayType)) (weights.flatMap (Weights.bits chromaArrayType)) () := by
  rw [← count]
  exact .times weights fun w _ => skipWeights_reads chromaArrayType w

/-! ### Marking -/

theorem readMarking_reads (m : Marking) : Reads readMarking m.bits true := by
  cases m with
  | unmarkShortTerm difference =>
    simp only [Marking.bits, List.flatten_cons, List.flatten_nil]
    refine .bind (golomb_reads (by decide)) (.after (check_reads (by decide)) ?_)
    refine .bind (whenever_yes (by decide) (skipUnsignedGolomb_reads difference)) (.after (whenever_no (by decide)) ?_)
    exact .after (whenever_no (by decide)) (.after (whenever_no (by decide)) (.pure _))
  | unmarkLongTerm num =>
    simp only [Marking.bits, List.flatten_cons, List.flatten_nil]
    refine .bind (golomb_reads (by decide)) (.after (check_reads (by decide)) (.after (whenever_no (by decide)) ?_))
    refine .bind (whenever_yes (by decide) (skipUnsignedGolomb_reads num)) (.after (whenever_no (by decide)) ?_)
    exact .after (whenever_no (by decide)) (.pure _)
  | assignLongTerm difference idx =>
    simp only [Marking.bits, List.flatten_cons, List.flatten_nil]
    refine .bind (golomb_reads (by decide)) (.after (check_reads (by decide)) ?_)
    refine .bind (whenever_yes (by decide) (skipUnsignedGolomb_reads difference)) (.after (whenever_no (by decide)) ?_)
    exact .bind (whenever_yes (by decide) (skipUnsignedGolomb_reads idx)) (.after (whenever_no (by decide)) (.pure _))
  | maxLongTerm most =>
    simp only [Marking.bits, List.flatten_cons, List.flatten_nil]
    refine .bind (golomb_reads (by decide)) (.after (check_reads (by decide)) (.after (whenever_no (by decide)) ?_))
    refine .after (whenever_no (by decide)) (.after (whenever_no (by decide)) ?_)
    exact .bind (whenever_yes (by decide) (skipUnsignedGolomb_reads most)) (.pure _)
  | unmarkAll =>
    rw [Marking.bits, ← List.append_nil (golomb 5)]
    refine .bind (golomb_reads (by decide)) (.after (check_reads (by decide)) (.after (whenever_no (by decide)) ?_))
    refine .after (whenever_no (by decide)) (.after (whenever_no (by decide)) ?_)
    exact .after (whenever_no (by decide)) (.pure _)
  | markCurrent idx =>
    simp only [Marking.bits, List.flatten_cons, List.flatten_nil]
    refine .bind (golomb_reads (by decide)) (.after (check_reads (by decide)) (.after (whenever_no (by decide)) ?_))
    refine .after (whenever_no (by decide)) ?_
    exact .bind (whenever_yes (by decide) (skipUnsignedGolomb_reads idx)) (.after (whenever_no (by decide)) (.pure _))

theorem endMarking_reads : Reads readMarking (golomb 0) false := by
  rw [← List.append_nil (golomb 0)]
  refine .bind (golomb_reads (by decide)) (.after (check_reads (by decide)) (.after (whenever_no (by decide)) ?_))
  refine .after (whenever_no (by decide)) (.after (whenever_no (by decide)) ?_)
  exact .after (whenever_no (by decide)) (.pure _)

theorem marking_ne_nil (m : Marking) : m.bits ≠ [] := by
  cases m <;> simp [Marking.bits, golomb]

theorem skipMarking_reads {pps : Pps} (h : SliceHeader pps) (idr : Bool) :
    Reads (skipMarking idr) (h.markingBits idr) () := by
  rw [SliceHeader.markingBits, skipMarking]
  cases idr with
  | true => exact skipBits_reads [_, _]
  | false =>
    cases h.markings with
    | none => exact (readBit_reads false).bind (.pure ())
    | some items =>
      refine (readBit_reads true).bind (whenever_yes rfl ?_)
      exact .doWhile items (fun m _ => marking_ne_nil m) (fun m _ => readMarking_reads m) endMarking_reads

/-! ### The kinds of slices -/

section Kinds

variable {pps : Pps} (h : SliceHeader pps)

theorem kind_numbers : (h.sliceType.val % 5 = kSliceP ↔ h.kind = .p) ∧ (h.sliceType.val % 5 = kSliceB ↔ h.kind = .b) ∧
    (h.sliceType.val % 5 = kSliceI ↔ h.kind = .i) ∧ (h.sliceType.val % 5 = kSliceSp ↔ h.kind = .sp) ∧
    (h.sliceType.val % 5 = kSliceSi ↔ h.kind = .si) := by
  rw [SliceHeader.kind]
  have few : h.sliceType.val % 5 < 5 := Nat.mod_lt _ (by decide)
  generalize h.sliceType.val % 5 = number at few
  interval_cases number <;> decide

theorem kind_b : h.sliceType.val % 5 = kSliceB ↔ h.kind = .b := (kind_numbers h).2.1

theorem inter_kinds : h.inter = true ↔ h.kind = .p ∨ h.kind = .b ∨ h.kind = .sp := by
  simp only [SliceHeader.inter, Bool.or_eq_true, decide_eq_true_eq]
  tauto

theorem inter_listed : (h.sliceType.val % 5 = kSliceP ∨ h.sliceType.val % 5 = kSliceB ∨ h.sliceType.val % 5 = kSliceSp) ↔
    h.inter = true := by
  obtain ⟨p, b, -, sp, -⟩ := kind_numbers h
  rw [inter_kinds, p, b, sp]

theorem inter_not_intra : (h.sliceType.val % 5 ≠ kSliceI ∧ h.sliceType.val % 5 ≠ kSliceSi) ↔ h.inter = true := by
  obtain ⟨-, -, i, -, si⟩ := kind_numbers h
  rw [inter_kinds, Ne, Ne, i, si]
  cases h.kind <;> simp

/-- A weight table is there. -/
theorem weighted_iff :
    (pps.state.weightedPredFlag = true ∧ (h.sliceType.val % 5 = kSliceP ∨ h.sliceType.val % 5 = kSliceSp)) ∨
      (pps.state.weightedBipredIdc = 1 ∧ h.sliceType.val % 5 = kSliceB) ↔
    (pps.weightedPred = true ∧ (h.kind = .p ∨ h.kind = .sp)) ∨ (pps.weightedBipredIdc = 1 ∧ h.kind = .b) := by
  obtain ⟨p, b, -, sp, -⟩ := kind_numbers h
  have idc : pps.state.weightedBipredIdc = 1 ↔ pps.weightedBipredIdc = 1 := by
    rw [Fin.ext_iff]
    rfl
  rw [p, sp, b, idc]
  rfl

theorem inter_of_weighted
    (weighted : (pps.weightedPred = true ∧ (h.kind = .p ∨ h.kind = .sp)) ∨ (pps.weightedBipredIdc = 1 ∧ h.kind = .b)) :
    h.inter = true := by
  rw [inter_kinds]
  tauto

/-- The greatest reference indices, by the override or the default. -/
def SliceHeader.indices : Nat × Nat :=
  if h.inter = true then
    (h.override.elim pps.numRefIdxL0DefaultActiveMinus1.val (·.l0Minus1.val),
      if h.kind = .b then h.override.elim pps.numRefIdxL1DefaultActiveMinus1.val (·.l1Minus1.val)
      else pps.numRefIdxL1DefaultActiveMinus1.val)
  else (pps.numRefIdxL0DefaultActiveMinus1.val, pps.numRefIdxL1DefaultActiveMinus1.val)

theorem readReferenceIndices_reads : Reads (readReferenceIndices pps.state (h.sliceType.val % 5))
    (present (h.inter = true) h.overrideBits) h.indices := by
  simp only [readReferenceIndices, inter_listed]
  simp only [kind_b]
  refine ite_reads (c := h.inter = true) ?_
  rw [SliceHeader.overrideBits]
  cases h.override with
  | none =>
    have same : (if h.kind = .b then pps.numRefIdxL1DefaultActiveMinus1.val else pps.numRefIdxL1DefaultActiveMinus1.val) =
        pps.numRefIdxL1DefaultActiveMinus1.val := ite_self _
    simp only [Option.elim, same]
    exact (readBit_reads false).bind (.pure _)
  | some counts =>
    simp only [Option.elim, List.flatten_cons, List.flatten_nil, List.append_nil]
    refine (readBit_reads true).bind (.bind (fin_reads counts.l0Minus1 (by decide)) (.after (check_reads ?_) ?_))
    · rw [kMaxReferenceIndex]
      omega
    · by_cases b : h.kind = .b
      · simp only [present, if_pos b]
        rw [← List.append_nil (golomb _)]
        refine .bind (fin_reads counts.l1Minus1 (by decide)) (.after (check_reads ?_) (.pure _))
        rw [kMaxReferenceIndex]
        omega
      · simp only [present, if_neg b]
        exact .pure _

end Kinds

/-! ### The whole header -/

section Header

variable {pps : Pps} (h : SliceHeader pps) (sps : Sps) (width height : Int)

theorem skipPicOrder_reads : Reads
    (skipPicOrder (sps.withSize width height) pps.state (if sps.frameMbsOnly = false then h.fieldPic else false))
    (h.pictureOrderBits sps) () := by
  have field : (if sps.frameMbsOnly = false then h.fieldPic else false) = (h.fieldPic && !sps.frameMbsOnly) := by
    cases sps.frameMbsOnly <;> simp
  rw [field, SliceHeader.pictureOrderBits, skipPicOrder, Sps.withSize, Sps.state]
  cases sps.pictureOrder with
  | lsb log2 =>
    simp only [List.flatten_cons, List.flatten_nil, List.append_nil]
    exact .bind (skipWord_reads _ _) (whenever_reads fun _ => skipSignedGolomb_reads h.deltaPicOrderCntBottom)
  | cycle alwaysZero nonRef topToBottom offsets short =>
    cases alwaysZero with
    | true => exact .pure ()
    | false =>
      simp only [List.flatten_cons, List.flatten_nil, List.append_nil]
      exact .bind (skipSignedGolomb_reads h.deltaPicOrderCnt0)
        (whenever_reads fun _ => skipSignedGolomb_reads h.deltaPicOrderCnt1)
  | output => exact .pure ()

theorem skipWeightTable_reads (inter : h.inter = true) : Reads
    (skipWeightTable (sps.withSize width height) (h.sliceType.val % 5) h.indices.1 h.indices.2)
    (h.weightTableBits sps) () := by
  have chroma : (sps.withSize width height).chroma = sps.chromaArrayType := sps.state_chroma
  have first : h.weightsL0.length = h.indices.1 + 1 := by
    rw [h.countL0, SliceHeader.indices, if_pos inter]
  simp only [skipWeightTable, chroma, SliceHeader.weightTableBits, List.flatten_cons, List.flatten_nil, List.append_nil]
  refine .bind (skipUnsignedGolomb_reads _) (.bind (whenever_iff (by rw [chroma]) fun _ => skipUnsignedGolomb_reads _) ?_)
  refine .bind (skipAllWeights_reads _ first) (whenever_iff (kind_b h) fun b => skipAllWeights_reads _ ?_)
  rw [h.countL1, SliceHeader.indices, if_pos inter, if_pos ((kind_b h).mp b)]

/-- `nal_unit_type` of a slice. -/
def sliceNalType (idr : Bool) : BitVec 5 := if idr then 5 else 1

theorem readSlice_reads (refers : pps.spsId = sps.id) (idr : Bool) (nalRefIdc : BitVec 2) (header : BitVec 8)
    (small : |h.sliceQpDelta.val| ≤ 51) :
    Reads (readSlice (sps.withSize width height) pps.state (sliceNalType idr) nalRefIdc)
      (word 8 header.toNat ++ h.bits sps idr nalRefIdc) h.sliceQpDelta.val := by
  simp only [SliceHeader.bits, List.flatten_cons, List.flatten_nil]
  have ids : pps.state.spsId = (sps.withSize width height).id := by
    change pps.spsId.val = sps.state.id
    rw [refers, Sps.state_id]
  have isIdr : (sliceNalType idr == 5) = idr := by cases idr <;> rfl
  refine .bind (skipWord_reads 8 _) (.bind (skipUnsignedGolomb_reads _) (.bind (golomb_reads h.sliceType.property) ?_))
  refine .bind (fin_reads pps.id (by decide)) (.after (check_reads rfl) (.after (check_reads ids) ?_))
  rw [readSliceRest, isIdr]
  refine .bind (whenever_iff ?_ fun _ => skipWord_reads 2 _) ?_
  · change sps.state.separateColourPlaneFlag = true ↔ _
    rw [Sps.state_separateColourPlaneFlag]
  have frameNum : Reads (skipBits (sps.withSize width height).log2MaxFrameNum)
      (word (sps.log2MaxFrameNumMinus4 + 4) h.frameNum) () := by
    change Reads (skipBits sps.state.log2MaxFrameNum) _ ()
    rw [Sps.state_log2MaxFrameNum]
    exact skipWord_reads _ _
  have bottom : sps.frameMbsOnly = false ∧ (if sps.frameMbsOnly = false then h.fieldPic else false) = true ↔
      sps.frameMbsOnly = false ∧ h.fieldPic = true := by
    cases sps.frameMbsOnly <;> simp
  have supported : sliceNalType idr ≠ 20 ∧ sliceNalType idr ≠ 21 := by cases idr <;> decide
  obtain ⟨p, b, i, sp, si⟩ := kind_numbers h
  refine .bind frameNum (.bind (ite_reads (c := sps.frameMbsOnly = false) (readBit_reads h.fieldPic)) ?_)
  refine .bind (whenever_iff bottom fun _ => skipBit_reads h.bottomField) ?_
  refine .bind (whenever_reads fun _ => skipUnsignedGolomb_reads h.idrPicId) ?_
  refine .bind (skipPicOrder_reads h sps width height) ?_
  refine .bind (whenever_reads fun _ => skipUnsignedGolomb_reads h.redundantPicCnt) ?_
  refine .bind (whenever_iff b fun _ => skipBit_reads h.directSpatialMvPred) ?_
  refine .bind (readReferenceIndices_reads h) (.after (.require supported) ?_)
  refine .bind (whenever_iff (inter_not_intra h) fun _ => skipModifications_reads h.modificationsL0) ?_
  refine .bind (whenever_iff b fun _ => skipModifications_reads h.modificationsL1) ?_
  refine .bind (whenever_iff (weighted_iff h) fun weighted => ?_) ?_
  · exact skipWeightTable_reads h sps width height (inter_of_weighted h ((weighted_iff h).mp weighted))
  refine .bind (whenever_reads fun _ => skipMarking_reads h idr) ?_
  refine .bind (whenever_iff ?_ fun _ => skipUnsignedGolomb_reads h.cabacInitIdc) ?_
  · rw [inter_not_intra]
    rfl
  · exact .bind (signedGolomb_reads h.sliceQpDelta.property) (.after (check_reads small) (.pure _))

end Header

end MiniRtc.Video.Syntax
