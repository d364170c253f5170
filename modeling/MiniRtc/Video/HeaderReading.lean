import MiniRtc.Video.HeaderSyntax

/-! What the parser reads from the parameter sets (`ParseSps`, `ParsePps`): each part of a header is read as its
value. -/
namespace MiniRtc.Video.Syntax
open Wire BitWords Reading BitReader H264BitstreamParser

theorem skipUnsignedGolomb_reads (c : Code) : Reads skipUnsignedGolomb (golomb c.val) () := by
  rw [← List.append_nil (golomb _)]
  exact (golomb_reads c.property).bind (.pure ())

theorem skipSignedGolomb_reads (c : SignedCode) : Reads skipSignedGolomb (signedGolomb c.val) () := by
  rw [← List.append_nil (signedGolomb _)]
  exact (signedGolomb_reads c.property).bind (.pure ())

/-- A number with a small bound. -/
theorem fin_reads {n : Nat} (v : Fin n) (small : n < 2 ^ 32 - 1) : Reads readUnsignedGolomb (golomb v) v :=
  golomb_reads (v.isLt.trans small)

theorem skipBit_reads (bit : Bool) : Reads (skipBits 1) [bit] () := skipBits_reads [bit]

theorem check_reads {c : Prop} [Decidable c] (holds : c) : Reads (check c) [] () := .require holds

theorem whenever_reads {c : Prop} [Decidable c] {p : Reader Unit} {bits : List Bool} (reads : c → Reads p bits ()) :
    Reads (whenever c p) (present c bits) () := .whenever reads

/-- A field that has a value also when it is not there. -/
theorem ite_reads {α : Type} {c : Prop} [Decidable c] {p : Reader α} {bits : List Bool} {a b : α}
    (reads : Reads p bits a) : Reads (if c then p else pure b) (present c bits) (if c then a else b) := by
  rw [present]
  split
  · exact reads
  · exact .pure b

/-! ### Sequence parameter sets -/

theorem skipScalingList_reads (deltas : List DeltaScale) (lastScale nextScale : Int) :
    Reads (skipScalingList deltas.length lastScale nextScale) (scalingListBits lastScale nextScale deltas) () := by
  induction deltas generalizing lastScale nextScale with
  | nil => exact .pure ()
  | cons delta rest ih =>
    by_cases zero : nextScale = 0
    · rw [List.length_cons, skipScalingList, scalingListBits, if_pos zero, if_neg (by simpa using zero)]
      exact ih lastScale nextScale
    · rw [List.length_cons, skipScalingList, scalingListBits, if_neg zero, if_pos zero]
      refine Reads.bind (signedGolomb_reads ?_) (.after (check_reads delta.property) ?_)
      · have := delta.property
        rw [abs_lt]
        omega
      · simp only [ite_not]
        exact ih _ _

theorem skipScalingLists_reads {i : Nat} {lists : List (Option (List DeltaScale))}
    (sizes : ∀ j deltas, lists[j]? = some (some deltas) → deltas.length = if i + j < 6 then 16 else 64) :
    Reads (skipScalingLists lists.length i) (scalingListsBits lists) () := by
  induction lists generalizing i with
  | nil => exact .pure ()
  | cons list rest ih =>
    have later := ih (i := i + 1) fun j deltas there => by
      have := sizes (j + 1) deltas there
      rwa [Nat.add_right_comm, Nat.add_assoc]
    cases list with
    | none => exact (readBit_reads false).bind (.after (.pure ()) later)
    | some deltas =>
      have first := skipScalingList_reads deltas 8 8
      rw [sizes 0 deltas rfl] at first
      exact (readBit_reads true).bind (first.bind later)

theorem readHighProfile_reads (sps : SpsState) (h : HighProfile) :
    Reads (readHighProfile sps) h.bits { sps with
      chromaFormatIdc := h.chromaFormatIdc
      separateColourPlaneFlag := if h.chromaFormatIdc.val = 3 then h.separateColourPlane else false } := by
  have three : h.chromaFormatIdc = 3 ↔ h.chromaFormatIdc.val = 3 := Fin.ext_iff
  have matrix : Reads (whenever (h.scalingMatrix.isSome = true)
      (skipScalingLists (if h.chromaFormatIdc.val = 3 then 12 else 8) 0))
      (h.scalingMatrix.elim [] fun matrix => scalingListsBits matrix.lists) () := by
    cases h.scalingMatrix with
    | none => exact .pure ()
    | some matrix =>
      have lists : Reads (skipScalingLists matrix.lists.length 0) (scalingListsBits matrix.lists) () :=
        skipScalingLists_reads (by simpa using matrix.sizes)
      simp only [matrix.count, three] at lists
      exact lists
  simp only [HighProfile.bits, List.flatten_cons, List.flatten_nil, three]
  refine .bind (fin_reads _ (by decide)) (.after (check_reads (by omega)) (.bind (ite_reads (readBit_reads _)) ?_))
  refine .bind (skipUnsignedGolomb_reads _) (.bind (skipUnsignedGolomb_reads _) (.bind (skipBit_reads _) ?_))
  exact .bind (readBit_reads _) (.bind matrix (.pure _))

/-- What the parser keeps of the picture order. -/
def PictureOrder.state (sps : SpsState) : PictureOrder → SpsState
  | .lsb log2MaxPicOrderCntLsbMinus4 =>
    { sps with picOrderCntType := 0, log2MaxPicOrderCntLsb := log2MaxPicOrderCntLsbMinus4 + 4 }
  | .cycle alwaysZero _ _ _ _ => { sps with picOrderCntType := 1, deltaPicOrderAlwaysZeroFlag := alwaysZero }
  | .output => { sps with picOrderCntType := 2 }

theorem readPicOrder_reads (sps : SpsState) (order : PictureOrder) :
    Reads (readPicOrder sps) order.bits (order.state sps) := by
  cases order with
  | lsb log2 =>
    simp only [PictureOrder.bits, List.flatten_cons, List.flatten_nil]
    refine .bind (golomb_reads (by decide)) (.after (check_reads (by decide)) ?_)
    refine .bind (fin_reads log2 (by decide)) (.after (check_reads ?_) (.pure _))
    rw [kMaxLog2Minus4]
    omega
  | cycle alwaysZero nonRef topToBottom offsets short =>
    simp only [PictureOrder.bits, List.flatten_cons, List.flatten_nil]
    refine .bind (golomb_reads (by decide)) (.after (check_reads (by decide)) ?_)
    refine .bind (readBit_reads _) (.bind (skipSignedGolomb_reads _) (.bind (skipSignedGolomb_reads _) ?_))
    refine .bind (golomb_reads (by omega)) (.after (check_reads short) ?_)
    exact .bind (.times offsets fun offset _ => skipSignedGolomb_reads offset) (.pure _)
  | output =>
    rw [PictureOrder.bits, ← List.append_nil (golomb 2)]
    exact .bind (golomb_reads (by decide)) (.after (check_reads (by decide)) (.pure _))

/-- What the parser keeps of a sequence parameter set, before the size. -/
def Sps.state (s : Sps) : SpsState :=
  let state : SpsState :=
    { id := s.id
      chromaFormatIdc := s.chromaFormatIdc
      separateColourPlaneFlag := s.separateColourPlane
      log2MaxFrameNum := s.log2MaxFrameNumMinus4 + 4 }
  { s.pictureOrder.state state with frameMbsOnlyFlag := s.frameMbsOnly }

theorem highProfile_reads (s : Sps) :
    Reads (if isHighProfile s.profileIdc.toNat = true then readHighProfile { id := s.id } else pure { id := s.id })
      (present (s.isHigh = true) s.highProfile.bits)
      { id := s.id, chromaFormatIdc := s.chromaFormatIdc, separateColourPlaneFlag := s.separateColourPlane } := by
  have three : s.highProfile.chromaFormatIdc = 3 ↔ s.highProfile.chromaFormatIdc.val = 3 := Fin.ext_iff
  have fields := ite_reads (c := s.isHigh = true) (b := { id := s.id }) (readHighProfile_reads { id := s.id } s.highProfile)
  have value : ({ id := s.id, chromaFormatIdc := s.chromaFormatIdc, separateColourPlaneFlag := s.separateColourPlane } :
      SpsState) = if s.isHigh = true then
        { id := s.id
          chromaFormatIdc := s.highProfile.chromaFormatIdc
          separateColourPlaneFlag :=
            if s.highProfile.chromaFormatIdc.val = 3 then s.highProfile.separateColourPlane else false }
      else { id := s.id } := by
    simp only [Sps.chromaFormatIdc, Sps.separateColourPlane, three]
    cases s.isHigh with
    | false => rfl
    | true => by_cases planes : s.highProfile.chromaFormatIdc.val = 3 <;> simp [planes]
  rw [value]
  exact fields

theorem readSps_reads (s : Sps) :
    Reads readSps s.frontBits (s.state, s.picWidthInMbsMinus1.val, s.picHeightInMapUnitsMinus1.val) := by
  simp only [Sps.frontBits, List.flatten_cons, List.flatten_nil]
  refine .bind (word_reads (by decide) s.profileIdc.isLt) ?_
  have flags := skipBits_reads (word 16 s.constraintsAndLevel.toNat)
  rw [length_word] at flags
  refine .bind flags (.bind (fin_reads s.id (by decide)) (.after (check_reads ?_) ?_))
  · rw [kMaxSpsId]
    omega
  refine .bind (highProfile_reads s) (.bind (fin_reads _ (by decide)) (.after (check_reads ?_) ?_))
  · rw [kMaxLog2Minus4]
    omega
  refine .bind (readPicOrder_reads _ s.pictureOrder) (.bind (skipUnsignedGolomb_reads _) ?_)
  refine .bind (skipBit_reads _) (.bind (golomb_reads s.picWidthInMbsMinus1.property) ?_)
  exact .bind (golomb_reads s.picHeightInMapUnitsMinus1.property) (.bind (readBit_reads _) (.pure _))

theorem readCropping_reads (s : Sps) : Reads (readCropping s.frameMbsOnly) s.croppingBits
    (s.cropping.elim (0, 0, 0, 0) fun c => (c.left.val, c.right.val, c.top.val, c.bottom.val)) := by
  simp only [Sps.croppingBits, List.flatten_cons, List.flatten_nil]
  refine .bind (whenever_reads fun _ => skipBit_reads _) (.bind (skipBit_reads _) (.bind (readBit_reads _) ?_))
  rw [List.append_nil]
  cases s.cropping with
  | none => exact .pure _
  | some c =>
    refine .bind (golomb_reads c.left.property) (.bind (golomb_reads c.right.property) ?_)
    exact .bind (golomb_reads c.top.property) (.bind (golomb_reads c.bottom.property) (.pure _))

section Fields

variable (s : Sps)

@[simp] theorem Sps.state_id : s.state.id = s.id := by
  rw [Sps.state]
  cases s.pictureOrder <;> rfl

@[simp] theorem Sps.state_chromaFormatIdc : s.state.chromaFormatIdc = s.chromaFormatIdc := by
  rw [Sps.state]
  cases s.pictureOrder <;> rfl

@[simp] theorem Sps.state_separateColourPlaneFlag : s.state.separateColourPlaneFlag = s.separateColourPlane := by
  rw [Sps.state]
  cases s.pictureOrder <;> rfl

@[simp] theorem Sps.state_log2MaxFrameNum : s.state.log2MaxFrameNum = s.log2MaxFrameNumMinus4 + 4 := by
  rw [Sps.state]
  cases s.pictureOrder <;> rfl

@[simp] theorem Sps.state_frameMbsOnlyFlag : s.state.frameMbsOnlyFlag = s.frameMbsOnly := rfl

theorem Sps.state_chroma : s.state.chroma = s.chromaArrayType := by
  rw [SpsState.chroma, Sps.state_separateColourPlaneFlag, Sps.state_chromaFormatIdc, Sps.chromaArrayType]

end Fields

/-- The state with any size. -/
def Sps.withSize (s : Sps) (width height : Int) : SpsState := { s.state with width := width, height := height }

theorem Sps.state_withSize (s : Sps) : s.state = s.withSize s.state.width s.state.height := rfl

/-- The size, where the parser takes one. -/
def Sps.result (s : Sps) : SpsState :=
  if 512 ≤ s.picWidthInMbsMinus1.val ∨ 512 ≤ s.picHeightInMapUnitsMinus1.val then s.state
  else
    let cropping := s.cropping.elim (0, 0, 0, 0) fun c => (c.left.val, c.right.val, c.top.val, c.bottom.val)
    SpsState.sized s.state s.picWidthInMbsMinus1.val s.picHeightInMapUnitsMinus1.val cropping.1 cropping.2.1 cropping.2.2.1
      cropping.2.2.2

theorem parseSps_reads (s : Sps) {data : Bytes} {tail : List Bool} (written : bitsOf (parseRbsp data) = s.bits ++ tail) :
    parseSps data = .ok s.result := by
  rw [Sps.bits, List.append_assoc] at written
  have front := readSps_reads s { data := parseRbsp data } _ written
  have next : Tape.rest (Tape.skip { data := parseRbsp data : BitReader } s.frontBits.length) =
      s.croppingBits ++ tail := by
    rw [Tape.rest_skip]
    change ((bitsOf (parseRbsp data)).drop 0).drop _ = _
    rw [List.drop_zero, written, List.drop_left]
  have cropping := readCropping_reads s _ _ next
  rw [parseSps, front, Sps.result]
  dsimp only
  split
  · rfl
  · rw [Sps.state_frameMbsOnlyFlag, cropping]
    rfl

theorem Sps.sized_state (s : Sps) (width height left right top bottom : Nat) :
    ∃ w h, SpsState.sized s.state width height left right top bottom = s.withSize w h := by
  rw [SpsState.sized]
  split
  · exact ⟨_, _, rfl⟩
  · exact ⟨_, _, s.state_withSize⟩

theorem Sps.result_state (s : Sps) : ∃ w h, s.result = s.withSize w h := by
  rw [Sps.result]
  split
  · exact ⟨_, _, s.state_withSize⟩
  · exact s.sized_state _ _ _ _ _ _

/-- A picture of at most 512 by 512 macroblocks that is not cropped away has its cropped size. -/
theorem Sps.result_size (s : Sps) (wide : s.picWidthInMbsMinus1.val < 512) (high : s.picHeightInMapUnitsMinus1.val < 512)
    (width : 0 < s.croppedWidth ∧ s.croppedWidth ≤ 8192) (height : 0 < s.croppedHeight ∧ s.croppedHeight ≤ 8192) :
    s.result = s.withSize s.croppedWidth s.croppedHeight := by
  have unitX : (if s.chromaArrayType = 1 ∨ s.chromaArrayType = 2 then 2 else 1 : Int) = s.cropUnitX := by
    rw [Sps.cropUnitX]
    rcases s.chromaArrayType with _ | _ | _ | n <;> simp
  have unitY : ((if s.chromaArrayType = 1 then 2 else 1) * (if s.frameMbsOnly = true then 1 else 2) : Int) =
      s.cropUnitY := by
    rw [Sps.cropUnitY]
    rcases s.chromaArrayType with _ | _ | n <;> simp
  rw [Sps.result, if_neg (by omega)]
  have across : ∀ cropping : Option Cropping, s.cropping = cropping →
      SpsState.croppedWidth s.state s.picWidthInMbsMinus1.val (cropping.elim 0 (·.left.val))
        (cropping.elim 0 (·.right.val)) = s.croppedWidth := by
    intro cropping here
    rw [SpsState.croppedWidth, Sps.croppedWidth, s.state_chroma, unitX, here]
    cases cropping <;> simp only [Option.elim] <;> push_cast <;> ring
  have down : ∀ cropping : Option Cropping, s.cropping = cropping →
      SpsState.croppedHeight s.state s.picHeightInMapUnitsMinus1.val (cropping.elim 0 (·.top.val))
        (cropping.elim 0 (·.bottom.val)) = s.croppedHeight := by
    intro cropping here
    rw [SpsState.croppedHeight, Sps.croppedHeight, s.state_chroma, Sps.state_frameMbsOnlyFlag, unitY, here]
    cases cropping <;> simp only [Option.elim] <;> push_cast <;> ring
  cases here : s.cropping with
  | none =>
    have across := across none here
    have down := down none here
    simp only [Option.elim] at across down ⊢
    rw [SpsState.sized, across, down, if_pos ⟨width.1, height.1, width.2, height.2⟩, Sps.withSize]
  | some c =>
    have across := across (some c) here
    have down := down (some c) here
    simp only [Option.elim] at across down ⊢
    rw [SpsState.sized, across, down, if_pos ⟨width.1, height.1, width.2, height.2⟩, Sps.withSize]

/-! ### Picture parameter sets -/

theorem ceilLog2From_eq {value left bits : Nat} (small : value ≤ 2 ^ 31) (all : bits + left = 32)
    (least : ∀ n < bits, 2 ^ n < value) : ceilLog2From value left bits (2 ^ bits) = Nat.clog 2 value := by
  induction left generalizing bits with
  | zero =>
    have := least 31 (by omega)
    omega
  | succ left ih =>
    rw [ceilLog2From]
    by_cases more : 2 ^ bits < value
    · have within : bits < 31 := (Nat.pow_lt_pow_iff_right (by decide)).mp (more.trans_le small)
      have next : 2 ^ bits <<< 1 % 2 ^ 32 = 2 ^ (bits + 1) := by
        rw [Nat.shiftLeft_eq, ← pow_add]
        exact Nat.mod_eq_of_lt (Nat.pow_lt_pow_right (by decide) (by omega))
      rw [if_pos more, next]
      refine ih (by omega) fun n before => ?_
      rcases Nat.lt_succ_iff_lt_or_eq.mp before with earlier | rfl
      · exact least n earlier
      · exact more
    · rw [if_neg more]
      refine le_antisymm ?_ (Nat.clog_le_of_le_pow (not_lt.mp more))
      cases bits with
      | zero => exact Nat.zero_le _
      | succ bits => exact (Nat.lt_clog_iff_pow_lt (by decide)).mpr (least bits (Nat.lt_succ_self bits))

theorem ceilLog2_eq {value : Nat} (small : value ≤ 2 ^ 31) : ceilLog2 value = Nat.clog 2 value :=
  ceilLog2From_eq small (show 0 + 32 = 32 from rfl) fun n before => absurd before (Nat.not_lt_zero n)

theorem length_words (n : Nat) (ids : List Nat) : (ids.flatMap (word n)).length = ids.length * n := by
  induction ids with
  | nil => simp
  | cons id ids ih =>
    rw [List.flatMap_cons, List.length_append, length_word, ih, List.length_cons]
    ring

theorem skipSliceGroups_reads {minus1 : Nat} (few : minus1 ≤ 7) (map : SliceGroupMap (minus1 + 1)) :
    Reads (skipSliceGroups minus1) map.bits () := by
  cases map with
  | interleaved runs count =>
    simp only [SliceGroupMap.bits, List.flatten_cons, List.flatten_nil, List.append_nil]
    refine .bind (golomb_reads (by decide)) (.after (check_reads (by decide)) ?_)
    have each := Reads.times runs fun run _ => skipUnsignedGolomb_reads run
    rwa [count] at each
  | dispersed =>
    rw [SliceGroupMap.bits, ← List.append_nil (golomb 1)]
    exact .bind (golomb_reads (by decide)) (.after (check_reads (by decide)) (.pure ()))
  | foreground corners count =>
    simp only [SliceGroupMap.bits, List.flatten_cons, List.flatten_nil, List.append_nil]
    refine .bind (golomb_reads (by decide)) (.after (check_reads (by decide)) ?_)
    rw [← Nat.succ.inj count]
    exact Reads.times corners fun corner _ =>
      .bind (skipUnsignedGolomb_reads corner.1) (skipUnsignedGolomb_reads corner.2)
  | changing mapType range direction rate =>
    simp only [SliceGroupMap.bits, List.flatten_cons, List.flatten_nil, List.append_nil]
    refine .bind (golomb_reads (by omega)) (.after (check_reads (by omega)) ?_)
    rw [if_neg (by omega), if_neg (by omega), if_pos range]
    exact .bind (skipBit_reads direction) (skipUnsignedGolomb_reads rate)
  | explicit picSize ids count =>
    have size := picSize.property
    have bits : Nat.clog 2 (minus1 + 1) ≤ 3 := Nat.clog_le_of_le_pow (by omega)
    have total : (picSize.val + 1) * Nat.clog 2 (minus1 + 1) ≤ 2 ^ 32 * 3 := Nat.mul_le_mul (by omega) bits
    simp only [SliceGroupMap.bits, List.flatten_cons, List.flatten_nil, List.append_nil]
    refine .bind (golomb_reads (by decide)) (.after (check_reads (by decide)) (.bind (golomb_reads size) ?_))
    rw [ceilLog2_eq (by omega)]
    refine .after (check_reads (by omega)) ?_
    have skips := skipBits_reads (ids.flatMap (word (Nat.clog 2 (minus1 + 1))))
    rwa [length_words, count] at skips

/-- What the parser keeps of a picture parameter set. -/
def Pps.state (p : Pps) : PpsState where
  id := p.id
  spsId := p.spsId
  entropyCodingModeFlag := p.entropyCodingMode
  bottomFieldPicOrderInFramePresentFlag := p.bottomFieldPicOrderInFramePresent
  numRefIdxL0DefaultActiveMinus1 := p.numRefIdxL0DefaultActiveMinus1
  numRefIdxL1DefaultActiveMinus1 := p.numRefIdxL1DefaultActiveMinus1
  weightedPredFlag := p.weightedPred
  weightedBipredIdc := p.weightedBipredIdc
  picInitQpMinus26 := p.picInitQpMinus26
  redundantPicCntPresentFlag := p.redundantPicCntPresent

theorem readPps_reads (p : Pps) : Reads readPps p.bits p.state := by
  have qp := p.picInitQpMinus26.property
  simp only [Pps.bits, List.flatten_cons, List.flatten_nil]
  refine .bind (fin_reads p.id (by decide)) (.bind (fin_reads p.spsId (by decide)) ?_)
  refine .after (check_reads ?_) (.after (check_reads ?_) ?_)
  · rw [kMaxPpsId]
    omega
  · rw [kMaxSpsId]
    omega
  refine .bind (readBit_reads _) (.bind (readBit_reads _) (.bind (fin_reads p.numSliceGroupsMinus1 (by decide)) ?_))
  refine .after (check_reads (by omega)) ?_
  refine .bind (whenever_reads fun _ => skipSliceGroups_reads (by omega) p.sliceGroupMap) ?_
  refine .bind (fin_reads p.numRefIdxL0DefaultActiveMinus1 (by decide)) ?_
  refine .bind (fin_reads p.numRefIdxL1DefaultActiveMinus1 (by decide)) ?_
  refine .after (check_reads ?_) (.after (check_reads ?_) ?_)
  · rw [kMaxReferenceIndex]
    omega
  · rw [kMaxReferenceIndex]
    omega
  refine .bind (readBit_reads _) (.bind (word_reads (by decide) p.weightedBipredIdc.isLt) ?_)
  refine .bind (signedGolomb_reads ?_) (.after (check_reads qp) ?_)
  · rw [abs_lt]
    omega
  refine .bind (skipSignedGolomb_reads _) (.bind (skipSignedGolomb_reads _) ?_)
  exact .bind (skipBits_reads [_, _]) (.bind (readBit_reads _) (.pure _))

theorem parsePps_reads (p : Pps) {data : Bytes} {tail : List Bool} (written : bitsOf (parseRbsp data) = p.bits ++ tail) :
    parsePps data = .ok p.state := by
  rw [parsePps, readPps_reads p { data := parseRbsp data } _ written]
  rfl

end MiniRtc.Video.Syntax
