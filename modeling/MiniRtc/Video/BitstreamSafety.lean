import MiniRtc.Video.BitstreamParser

/-! `ParseBitstream` on any octets (h264_bitstream_parser.cpp): it ends, and no bit outside the payload of a NAL unit is
read. -/
namespace MiniRtc.Video.H264BitstreamParser
open Wire Reading BitReader

theorem check_safe (c : Prop) [Decidable c] : Safe Fault 0 (check c) := .require good_invalid c

theorem skipUnsignedGolomb_safe : Safe Fault 1 skipUnsignedGolomb := readUnsignedGolomb_safe.first fun _ => .pure ()

theorem skipSignedGolomb_safe : Safe Fault 1 skipSignedGolomb := readSignedGolomb_safe.first fun _ => .pure ()

theorem unsigned_safe (c : Prop) [Decidable c] : Safe Fault 0 (whenever c skipUnsignedGolomb) :=
  .whenever (skipUnsignedGolomb_safe.weaken (Nat.zero_le 1)) c

theorem signed_safe (c : Prop) [Decidable c] : Safe Fault 0 (whenever c skipSignedGolomb) :=
  .whenever (skipSignedGolomb_safe.weaken (Nat.zero_le 1)) c

/-- A flag that is there in one case only. -/
theorem flag_safe (c : Prop) [Decidable c] : Safe Fault 0 (if c then readBit else pure false : Reader Bool) :=
  .ite (readBit_safe.weaken (Nat.zero_le 1)) (.pure false)

/-! ### Parameter sets -/

theorem skipScalingList_safe (left : Nat) (lastScale nextScale : Int) :
    Safe Fault 0 (skipScalingList left lastScale nextScale) := by
  induction left generalizing lastScale nextScale with
  | zero => exact .pure ()
  | succ left ih =>
    exact .ite (.step readSignedGolomb_safe fun _ => .step (check_safe _) fun _ => ih _ _) (ih _ _)

theorem skipScalingLists_safe (left i : Nat) : Safe Fault 0 (skipScalingLists left i) := by
  induction left generalizing i with
  | zero => exact .pure ()
  | succ left ih =>
    exact .step readBit_safe fun _ => .step (.whenever (skipScalingList_safe _ _ _) _) fun _ => ih (i + 1)

theorem readHighProfile_safe (sps : SpsState) : Safe Fault 0 (readHighProfile sps) := by
  refine .step readUnsignedGolomb_safe fun _ => .step (check_safe _) fun _ => .step (flag_safe _) fun _ => ?_
  refine .step skipUnsignedGolomb_safe fun _ => .step skipUnsignedGolomb_safe fun _ => ?_
  refine .step (skipBits_safe 1) fun _ => .step readBit_safe fun _ => ?_
  exact .step (.whenever (skipScalingLists_safe _ _) _) fun _ => .pure _

theorem readPicOrder_safe (sps : SpsState) : Safe Fault 0 (readPicOrder sps) := by
  refine .step readUnsignedGolomb_safe fun _ => .step (check_safe _) fun _ => .ite ?_ (.ite ?_ (.pure _))
  · exact .step readUnsignedGolomb_safe fun _ => .step (check_safe _) fun _ => .pure _
  · refine .step readBit_safe fun _ => .step skipSignedGolomb_safe fun _ => .step skipSignedGolomb_safe fun _ => ?_
    refine .step readUnsignedGolomb_safe fun _ => .step (check_safe _) fun _ => ?_
    exact .step (.times (skipSignedGolomb_safe.weaken (Nat.zero_le 1)) _) fun _ => .pure _

theorem readSps_safe : Safe Fault 0 readSps := by
  refine .step (readBits_safe 8) fun _ => .step (skipBits_safe 16) fun _ => .step readUnsignedGolomb_safe fun _ => ?_
  refine .step (check_safe _) fun _ => .step (.ite (readHighProfile_safe _) (.pure _)) fun _ => ?_
  refine .step readUnsignedGolomb_safe fun _ => .step (check_safe _) fun _ => .step (readPicOrder_safe _) fun _ => ?_
  refine .step skipUnsignedGolomb_safe fun _ => .step (skipBits_safe 1) fun _ => ?_
  exact .step readUnsignedGolomb_safe fun _ => .step readUnsignedGolomb_safe fun _ => .step readBit_safe fun _ => .pure _

theorem readCropping_safe (frameMbsOnlyFlag : Bool) : Safe Fault 0 (readCropping frameMbsOnlyFlag) := by
  refine .step (.whenever (skipBits_safe 1) _) fun _ => .step (skipBits_safe 1) fun _ => ?_
  refine .step readBit_safe fun _ => .ite ?_ (.pure _)
  refine .step readUnsignedGolomb_safe fun _ => .step readUnsignedGolomb_safe fun _ => ?_
  exact .step readUnsignedGolomb_safe fun _ => .step readUnsignedGolomb_safe fun _ => .pure _

theorem skipSliceGroups_safe (numSliceGroupsMinus1 : Nat) : Safe Fault 0 (skipSliceGroups numSliceGroupsMinus1) := by
  have code : Safe Fault 0 skipUnsignedGolomb := skipUnsignedGolomb_safe.weaken (Nat.zero_le 1)
  refine .step readUnsignedGolomb_safe fun _ => .step (check_safe _) fun _ => .ite (.times code _) ?_
  refine .ite (.times (.step code fun _ => code) _) (.ite (.step (skipBits_safe 1) fun _ => code) (.ite ?_ (.pure ())))
  exact .step readUnsignedGolomb_safe fun _ => .step (check_safe _) fun _ => skipBits_safe _

theorem readPps_safe : Safe Fault 0 readPps := by
  refine .step readUnsignedGolomb_safe fun _ => .step readUnsignedGolomb_safe fun _ => ?_
  refine .step (check_safe _) fun _ => .step (check_safe _) fun _ => .step readBit_safe fun _ => ?_
  refine .step readBit_safe fun _ => .step readUnsignedGolomb_safe fun _ => .step (check_safe _) fun _ => ?_
  refine .step (.whenever (skipSliceGroups_safe _) _) fun _ => .step readUnsignedGolomb_safe fun _ => ?_
  refine .step readUnsignedGolomb_safe fun _ => .step (check_safe _) fun _ => .step (check_safe _) fun _ => ?_
  refine .step readBit_safe fun _ => .step (readBits_safe 2) fun _ => .step readSignedGolomb_safe fun _ => ?_
  refine .step (check_safe _) fun _ => .step skipSignedGolomb_safe fun _ => .step skipSignedGolomb_safe fun _ => ?_
  exact .step (skipBits_safe 2) fun _ => .step readBit_safe fun _ => .pure _

/-! ### Slices -/

theorem skipPicOrder_safe (sps : SpsState) (pps : PpsState) (fieldPicFlag : Bool) :
    Safe Fault 0 (skipPicOrder sps pps fieldPicFlag) := by
  refine .ite (.step (skipBits_safe _) fun _ => signed_safe _) (.ite ?_ (.pure ()))
  exact .step skipSignedGolomb_safe fun _ => signed_safe _

theorem readReferenceIndices_safe (pps : PpsState) (sliceType : Nat) :
    Safe Fault 0 (readReferenceIndices pps sliceType) := by
  refine .ite (.step readBit_safe fun _ => .ite ?_ (.pure _)) (.pure _)
  refine .step readUnsignedGolomb_safe fun _ => .step (check_safe _) fun _ => .ite ?_ (.pure _)
  exact .step readUnsignedGolomb_safe fun _ => .step (check_safe _) fun _ => .pure _

theorem readModification_safe : Safe Fault 1 readModification := by
  refine readUnsignedGolomb_safe.first fun _ => .step (unsigned_safe _) fun _ => .step (unsigned_safe _) fun _ => ?_
  exact .step (check_safe _) fun _ => .pure _

theorem skipModifications_safe : Safe Fault 0 skipModifications :=
  .step readBit_safe fun _ => .whenever (.doWhile readModification_safe) _

theorem skipWeights_safe (chromaArrayType : Nat) : Safe Fault 0 (skipWeights chromaArrayType) := by
  have weight : Safe Fault 0 (do skipSignedGolomb; skipSignedGolomb : Reader Unit) :=
    .step skipSignedGolomb_safe fun _ => skipSignedGolomb_safe.weaken (Nat.zero_le 1)
  refine .step readBit_safe fun _ => .step (.whenever weight _) fun _ => .whenever (.step readBit_safe fun _ => ?_) _
  exact .whenever (.times weight 2) _

theorem skipWeightTable_safe (sps : SpsState) (sliceType l0 l1 : Nat) :
    Safe Fault 0 (skipWeightTable sps sliceType l0 l1) := by
  refine .step skipUnsignedGolomb_safe fun _ => .step (unsigned_safe _) fun _ => ?_
  exact .step (.times (skipWeights_safe _) _) fun _ => .whenever (.times (skipWeights_safe _) _) _

theorem readMarking_safe : Safe Fault 1 readMarking := by
  refine readUnsignedGolomb_safe.first fun _ => .step (check_safe _) fun _ => .step (unsigned_safe _) fun _ => ?_
  refine .step (unsigned_safe _) fun _ => .step (unsigned_safe _) fun _ => .step (unsigned_safe _) fun _ => .pure _

theorem skipMarking_safe (isIdr : Bool) : Safe Fault 0 (skipMarking isIdr) :=
  .ite (skipBits_safe 2) (.step readBit_safe fun _ => .whenever (.doWhile readMarking_safe) _)

theorem readSliceRest_safe (sps : SpsState) (pps : PpsState) (naluType : BitVec 5) (nalRefIdc : BitVec 2)
    (sliceType : Nat) : Safe Fault 0 (readSliceRest sps pps naluType nalRefIdc sliceType) := by
  have unsupported : ¬Fault .unsupportedStream := by simp [Fault]
  refine .step (.whenever (skipBits_safe 2) _) fun _ => .step (skipBits_safe _) fun _ => .step (flag_safe _) fun _ => ?_
  refine .step (.whenever (skipBits_safe 1) _) fun _ => .step (unsigned_safe _) fun _ => ?_
  refine .step (skipPicOrder_safe _ _ _) fun _ => .step (unsigned_safe _) fun _ => ?_
  refine .step (.whenever (skipBits_safe 1) _) fun _ => .step (readReferenceIndices_safe _ _) fun _ => ?_
  refine .step (.require unsupported _) fun _ => .step (.whenever skipModifications_safe _) fun _ => ?_
  refine .step (.whenever skipModifications_safe _) fun _ => .step (.whenever (skipWeightTable_safe _ _ _ _) _) fun _ => ?_
  refine .step (.whenever (skipMarking_safe _) _) fun _ => .step (unsigned_safe _) fun _ => ?_
  exact .step readSignedGolomb_safe fun _ => .step (check_safe _) fun _ => .pure _

theorem readSlice_safe (sps : SpsState) (pps : PpsState) (naluType : BitVec 5) (nalRefIdc : BitVec 2) :
    Safe Fault 0 (readSlice sps pps naluType nalRefIdc) := by
  refine .step (skipBits_safe 8) fun _ => .step skipUnsignedGolomb_safe fun _ => .step readUnsignedGolomb_safe fun _ => ?_
  refine .step readUnsignedGolomb_safe fun _ => .step (check_safe _) fun _ => .step (check_safe _) fun _ => ?_
  exact readSliceRest_safe _ _ _ _ _

/-! ### The stream -/

theorem attempt_ok {α : Type} {x : Except Stop α} (safe : ∀ e, x = .error e → ¬Fault e) : ∃ value, attempt x = .ok value := by
  cases x with
  | ok value => exact ⟨some value, rfl⟩
  | error e =>
    cases e with
    | invalidStream => exact ⟨none, rfl⟩
    | unsupportedStream => exact ⟨none, rfl⟩
    | outside => exact absurd (.inl rfl) (safe _ rfl)
    | endless => exact absurd (.inr rfl) (safe _ rfl)

theorem parseSps_safe (data : Bytes) (e : Stop) (fails : parseSps data = .error e) : ¬Fault e := by
  rw [parseSps] at fails
  split at fails
  · rename_i e' stops
    obtain rfl := Except.error.inj fails
    exact readSps_safe.refuses _ _ stops
  · split at fails
    · cases fails
    · rename_i sps widthMbs heightMbs reader _ _
      obtain ⟨result, cropping⟩ := attempt_ok fun e stops =>
        (readCropping_safe sps.frameMbsOnlyFlag).refuses reader e stops
      rw [cropping] at fails
      cases fails

theorem parsePps_safe (data : Bytes) (e : Stop) (fails : parsePps data = .error e) : ¬Fault e := by
  rw [parsePps] at fails
  cases reads : readPps.run { data := parseRbsp data } with
  | ok result =>
    rw [reads] at fails
    cases fails
  | error e' =>
    rw [reads] at fails
    obtain rfl := Except.error.inj fails
    exact readPps_safe.refuses _ _ reads

variable (p : H264BitstreamParser)

/-- A slice does not change the parameter sets. -/
theorem parseSlice_ok (data : Bytes) (naluType : BitVec 5) :
    ∃ delta, p.parseSlice data naluType = .ok { p with lastSliceQpDelta := delta } := by
  rw [parseSlice]
  split
  · rename_i sps pps _ _
    split
    · exact ⟨p.lastSliceQpDelta, rfl⟩
    · obtain ⟨result, read⟩ := attempt_ok fun e stops =>
        (readSlice_safe sps pps naluType ((byteAt data 0 >>> 5).setWidth 2)).refuses { data := parseRbsp data } e stops
      refine ⟨result.map Prod.fst, ?_⟩
      dsimp only
      rw [read]
      rfl
  · exact ⟨p.lastSliceQpDelta, rfl⟩

theorem parseNalu_ok (nalu : Bytes) : ∃ q, p.parseNalu nalu = .ok q := by
  cases nalu with
  | nil => exact ⟨p, rfl⟩
  | cons header payload =>
    dsimp only [parseNalu]
    split
    · obtain ⟨sps, read⟩ := attempt_ok (parseSps_safe payload)
      exact ⟨{ p with sps := sps }, by rw [read]; rfl⟩
    · split
      · obtain ⟨pps, read⟩ := attempt_ok (parsePps_safe payload)
        exact ⟨{ p with pps := pps }, by rw [read]; rfl⟩
      · split
        · obtain ⟨delta, read⟩ := p.parseSlice_ok (header :: payload) (header.setWidth 5)
          exact ⟨_, read⟩
        · exact ⟨p, rfl⟩

theorem parseNalus_ok (nalus : List Bytes) : ∃ q, p.parseNalus nalus = .ok q := by
  induction nalus generalizing p with
  | nil => exact ⟨p, rfl⟩
  | cons nalu nalus ih =>
    obtain ⟨q, first⟩ := p.parseNalu_ok nalu
    obtain ⟨r, rest⟩ := ih q
    refine ⟨r, ?_⟩
    rw [parseNalus, List.foldlM_cons, first]
    exact rest

/-- On any octets the parser ends, without a read outside a payload. -/
theorem parseBitstream_ok (bitstream : Bytes) : ∃ q, p.parseBitstream bitstream = .ok q :=
  parseNalus_ok { p with lastSliceQpDelta := none } (findNaluIndices bitstream)

end MiniRtc.Video.H264BitstreamParser
