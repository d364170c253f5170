import MiniRtc.Video.BitstreamParser

/-! The headers of H.264 and how they are written, independent of the parser: parameter sets, slice headers, NAL units
and Annex B streams. Every field carries the range that the parser accepts. What follows a header that is read is
any bits. -/
namespace MiniRtc.Video.Syntax
open Wire BitWords

/-- A number with an unsigned code of at most 63 bits. -/
abbrev Code := { v : Nat // v < 2 ^ 32 - 1 }

abbrev SignedCode := { v : Int // |v| < 2 ^ 31 }

/-- What is there in one case only. -/
def present (c : Prop) [Decidable c] (bits : List Bool) : List Bool := if c then bits else []

/-! ### Sequence parameter sets -/

abbrev DeltaScale := { v : Int // -128 ≤ v ∧ v ≤ 127 }

/-- The differences of a scaling list. After a next scale of zero no more of them are written. -/
def scalingListBits : Int → Int → List DeltaScale → List Bool
  | _, _, [] => []
  | lastScale, nextScale, delta :: rest =>
    if nextScale = 0 then scalingListBits lastScale nextScale rest
    else
      let next := (lastScale + delta.val + 256) % 256
      signedGolomb delta.val ++ scalingListBits (if next = 0 then lastScale else next) next rest

/-- The lists, of which the first six have 16 entries and the others 64. -/
structure ScalingMatrix (chromaFormatIdc : Fin 4) where
  lists : List (Option (List DeltaScale))
  count : lists.length = if chromaFormatIdc = 3 then 12 else 8
  sizes : ∀ i deltas, lists[i]? = some (some deltas) → deltas.length = if i < 6 then 16 else 64

def scalingListsBits (lists : List (Option (List DeltaScale))) : List Bool :=
  lists.flatMap fun
    | none => [false]
    | some deltas => true :: scalingListBits 8 8 deltas

/-- The fields that only the high profiles have. -/
structure HighProfile where
  chromaFormatIdc : Fin 4
  separateColourPlane : Bool
  bitDepthLumaMinus8 : Code
  bitDepthChromaMinus8 : Code
  qpprimeYZeroTransformBypass : Bool
  scalingMatrix : Option (ScalingMatrix chromaFormatIdc)

def HighProfile.bits (h : HighProfile) : List Bool :=
  [golomb h.chromaFormatIdc, present (h.chromaFormatIdc = 3) [h.separateColourPlane],
    golomb h.bitDepthLumaMinus8.val, golomb h.bitDepthChromaMinus8.val, [h.qpprimeYZeroTransformBypass],
    [h.scalingMatrix.isSome], (h.scalingMatrix.elim [] fun matrix => scalingListsBits matrix.lists)].flatten

inductive PictureOrder where
  | lsb (log2MaxPicOrderCntLsbMinus4 : Fin 13)
  | cycle (deltaPicOrderAlwaysZero : Bool) (offsetForNonRefPic offsetForTopToBottomField : SignedCode)
      (offsetsForRefFrame : List SignedCode) (short : offsetsForRefFrame.length ≤ 255)
  | output

def PictureOrder.bits : PictureOrder → List Bool
  | .lsb log2MaxPicOrderCntLsbMinus4 => [golomb 0, golomb log2MaxPicOrderCntLsbMinus4].flatten
  | .cycle alwaysZero nonRef topToBottom offsets _ =>
    [golomb 1, [alwaysZero], signedGolomb nonRef.val, signedGolomb topToBottom.val, golomb offsets.length,
      offsets.flatMap fun offset => signedGolomb offset.val].flatten
  | .output => golomb 2

structure Cropping where
  left : Code
  right : Code
  top : Code
  bottom : Code

structure Sps where
  profileIdc : BitVec 8
  constraintsAndLevel : BitVec 16
  id : Fin 32
  highProfile : HighProfile
  log2MaxFrameNumMinus4 : Fin 13
  pictureOrder : PictureOrder
  maxNumRefFrames : Code
  gapsInFrameNumAllowed : Bool
  picWidthInMbsMinus1 : Code
  picHeightInMapUnitsMinus1 : Code
  frameMbsOnly : Bool
  mbAdaptiveFrameField : Bool
  direct8x8Inference : Bool
  cropping : Option Cropping

namespace Sps

variable (s : Sps)

def isHigh : Bool := isHighProfile s.profileIdc.toNat

/-- To `frame_mbs_only_flag`. -/
def frontBits : List Bool :=
  [word 8 s.profileIdc.toNat, word 16 s.constraintsAndLevel.toNat, golomb s.id,
    present (s.isHigh = true) s.highProfile.bits, golomb s.log2MaxFrameNumMinus4, s.pictureOrder.bits,
    golomb s.maxNumRefFrames.val, [s.gapsInFrameNumAllowed], golomb s.picWidthInMbsMinus1.val,
    golomb s.picHeightInMapUnitsMinus1.val, [s.frameMbsOnly]].flatten

/-- To the cropping. -/
def croppingBits : List Bool :=
  [present (s.frameMbsOnly = false) [s.mbAdaptiveFrameField], [s.direct8x8Inference], [s.cropping.isSome],
    s.cropping.elim [] fun c =>
      [golomb c.left.val, golomb c.right.val, golomb c.top.val, golomb c.bottom.val].flatten].flatten

def bits : List Bool := s.frontBits ++ s.croppingBits

/-- 4:2:0 when it is not written. -/
def chromaFormatIdc : Nat := if s.isHigh then s.highProfile.chromaFormatIdc else 1

def separateColourPlane : Bool := s.isHigh && s.highProfile.chromaFormatIdc = 3 && s.highProfile.separateColourPlane

def chromaArrayType : Nat := if s.separateColourPlane then 0 else s.chromaFormatIdc

/-- The size of the units of the cropping in luma samples, by the subsampling of the chroma. -/
def cropUnitX : Int :=
  match s.chromaArrayType with
  | 1 => 2
  | 2 => 2
  | _ => 1

def cropUnitY : Int :=
  (match s.chromaArrayType with
    | 1 => 2
    | _ => 1) * (if s.frameMbsOnly then 1 else 2)

def croppedWidth : Int :=
  16 * (s.picWidthInMbsMinus1.val + 1) - s.cropUnitX * s.cropping.elim 0 fun c => c.left.val + c.right.val

def croppedHeight : Int :=
  16 * ((s.picHeightInMapUnitsMinus1.val + 1) * (if s.frameMbsOnly then 1 else 2)) -
    s.cropUnitY * s.cropping.elim 0 fun c => c.top.val + c.bottom.val

end Sps

/-! ### Picture parameter sets -/

inductive SliceGroupMap (groups : Nat) where
  | interleaved (runLengthsMinus1 : List Code) (count : runLengthsMinus1.length = groups)
  | dispersed
  | foreground (corners : List (Code × Code)) (count : corners.length + 1 = groups)
  | changing (mapType : Nat) (range : 3 ≤ mapType ∧ mapType ≤ 5) (direction : Bool) (changeRateMinus1 : Code)
  | explicit (picSizeInMapUnitsMinus1 : Code) (ids : List Nat) (count : ids.length = picSizeInMapUnitsMinus1.val + 1)

def SliceGroupMap.bits {groups : Nat} : SliceGroupMap groups → List Bool
  | .interleaved runs _ => [golomb 0, runs.flatMap fun run => golomb run.val].flatten
  | .dispersed => golomb 1
  | .foreground corners _ =>
    [golomb 2, corners.flatMap fun corner => [golomb corner.1.val, golomb corner.2.val].flatten].flatten
  | .changing mapType _ direction rate => [golomb mapType, [direction], golomb rate.val].flatten
  | .explicit picSize ids _ => [golomb 6, golomb picSize.val, ids.flatMap (word (Nat.clog 2 groups))].flatten

structure Pps where
  id : Fin 256
  spsId : Fin 32
  entropyCodingMode : Bool
  bottomFieldPicOrderInFramePresent : Bool
  numSliceGroupsMinus1 : Fin 8
  sliceGroupMap : SliceGroupMap (numSliceGroupsMinus1 + 1)
  numRefIdxL0DefaultActiveMinus1 : Fin 32
  numRefIdxL1DefaultActiveMinus1 : Fin 32
  weightedPred : Bool
  weightedBipredIdc : Fin 4
  picInitQpMinus26 : { v : Int // -26 ≤ v ∧ v ≤ 25 }
  picInitQsMinus26 : SignedCode
  chromaQpIndexOffset : SignedCode
  deblockingFilterControlPresent : Bool
  constrainedIntraPred : Bool
  redundantPicCntPresent : Bool

def Pps.bits (p : Pps) : List Bool :=
  [golomb p.id, golomb p.spsId, [p.entropyCodingMode], [p.bottomFieldPicOrderInFramePresent],
    golomb p.numSliceGroupsMinus1, present (0 < p.numSliceGroupsMinus1.val) p.sliceGroupMap.bits,
    golomb p.numRefIdxL0DefaultActiveMinus1, golomb p.numRefIdxL1DefaultActiveMinus1, [p.weightedPred],
    word 2 p.weightedBipredIdc, signedGolomb p.picInitQpMinus26.val, signedGolomb p.picInitQsMinus26.val,
    signedGolomb p.chromaQpIndexOffset.val, [p.deblockingFilterControlPresent, p.constrainedIntraPred],
    [p.redundantPicCntPresent]].flatten

/-! ### Slice headers -/

/-- A change of a reference list: `abs_diff_pic_num_minus1` or `long_term_pic_num`. -/
structure Modification where
  idc : Fin 3
  value : Code

def modificationsBits (modifications : Option (List Modification)) : List Bool :=
  modifications.elim [false] fun items =>
    true :: ((items.flatMap fun m => [golomb m.idc, golomb m.value.val].flatten) ++ golomb 3)

/-- An explicit weight with its offset. -/
abbrev Weight := SignedCode × SignedCode

def weightBits (w : Weight) : List Bool := [signedGolomb w.1.val, signedGolomb w.2.val].flatten

/-- The weights for one reference picture. -/
structure Weights where
  luma : Option Weight
  chroma : Option (Weight × Weight)

def Weights.bits (chromaArrayType : Nat) (w : Weights) : List Bool :=
  [[w.luma.isSome], w.luma.elim [] weightBits,
    present (chromaArrayType ≠ 0)
      [[w.chroma.isSome], w.chroma.elim [] fun c => [weightBits c.1, weightBits c.2].flatten].flatten].flatten

/-- A memory management control operation. -/
inductive Marking where
  | unmarkShortTerm (differenceOfPicNumsMinus1 : Code)
  | unmarkLongTerm (longTermPicNum : Code)
  | assignLongTerm (differenceOfPicNumsMinus1 longTermFrameIdx : Code)
  | maxLongTerm (maxLongTermFrameIdxPlus1 : Code)
  | unmarkAll
  | markCurrent (longTermFrameIdx : Code)

def Marking.bits : Marking → List Bool
  | .unmarkShortTerm difference => [golomb 1, golomb difference.val].flatten
  | .unmarkLongTerm num => [golomb 2, golomb num.val].flatten
  | .assignLongTerm difference idx => [golomb 3, golomb difference.val, golomb idx.val].flatten
  | .maxLongTerm most => [golomb 4, golomb most.val].flatten
  | .unmarkAll => golomb 5
  | .markCurrent idx => [golomb 6, golomb idx.val].flatten

def markingsBits (markings : Option (List Marking)) : List Bool :=
  markings.elim [false] fun items => true :: (items.flatMap Marking.bits ++ golomb 0)

/-- The two greatest reference indices of a slice that overrides them, of which a B slice alone has the second. -/
structure ReferenceCounts where
  l0Minus1 : Fin 32
  l1Minus1 : Fin 32

structure SliceHeader (pps : Pps) where
  firstMbInSlice : Code
  sliceType : Code
  colourPlaneId : Nat
  frameNum : Nat
  fieldPic : Bool
  bottomField : Bool
  idrPicId : Code
  picOrderCntLsb : Nat
  deltaPicOrderCntBottom : SignedCode
  deltaPicOrderCnt0 : SignedCode
  deltaPicOrderCnt1 : SignedCode
  redundantPicCnt : Code
  directSpatialMvPred : Bool
  override : Option ReferenceCounts
  modificationsL0 : Option (List Modification)
  modificationsL1 : Option (List Modification)
  lumaLog2WeightDenom : Code
  chromaLog2WeightDenom : Code
  weightsL0 : List Weights
  weightsL1 : List Weights
  countL0 : weightsL0.length = override.elim pps.numRefIdxL0DefaultActiveMinus1.val (·.l0Minus1.val) + 1
  countL1 : weightsL1.length = override.elim pps.numRefIdxL1DefaultActiveMinus1.val (·.l1Minus1.val) + 1
  noOutputOfPriorPics : Bool
  longTermReference : Bool
  markings : Option (List Marking)
  cabacInitIdc : Code
  sliceQpDelta : SignedCode

namespace SliceHeader

/-- The kinds of slices; each has two numbers. -/
inductive Kind where
  | p
  | b
  | i
  | sp
  | si
deriving DecidableEq

variable {pps : Pps} (h : SliceHeader pps) (sps : Sps) (idr : Bool)

def kind : Kind :=
  match h.sliceType.val % 5 with
  | 0 => .p
  | 1 => .b
  | 2 => .i
  | 3 => .sp
  | _ => .si

/-- The slice is predicted from other pictures. -/
def inter : Bool := h.kind = .p || h.kind = .sp || h.kind = .b

def pictureOrderBits : List Bool :=
  match sps.pictureOrder with
  | .lsb log2MaxPicOrderCntLsbMinus4 =>
    [word (log2MaxPicOrderCntLsbMinus4 + 4) h.picOrderCntLsb,
      present (pps.bottomFieldPicOrderInFramePresent = true ∧ (h.fieldPic && !sps.frameMbsOnly) = false)
        (signedGolomb h.deltaPicOrderCntBottom.val)].flatten
  | .cycle alwaysZero _ _ _ _ =>
    present (alwaysZero = false)
      [signedGolomb h.deltaPicOrderCnt0.val,
        present (pps.bottomFieldPicOrderInFramePresent = true ∧ (h.fieldPic && !sps.frameMbsOnly) = false)
          (signedGolomb h.deltaPicOrderCnt1.val)].flatten
  | .output => []

def overrideBits : List Bool :=
  h.override.elim [false] fun counts =>
    true :: [golomb counts.l0Minus1, present (h.kind = .b) (golomb counts.l1Minus1)].flatten

def weightTableBits : List Bool :=
  [golomb h.lumaLog2WeightDenom.val, present (sps.chromaArrayType ≠ 0) (golomb h.chromaLog2WeightDenom.val),
    h.weightsL0.flatMap (Weights.bits sps.chromaArrayType),
    present (h.kind = .b) (h.weightsL1.flatMap (Weights.bits sps.chromaArrayType))].flatten

def markingBits : List Bool :=
  if idr then [h.noOutputOfPriorPics, h.longTermReference] else markingsBits h.markings

/-- To `slice_qp_delta`. -/
def bits (nalRefIdc : BitVec 2) : List Bool :=
  [golomb h.firstMbInSlice.val, golomb h.sliceType.val, golomb pps.id,
    present (sps.separateColourPlane = true) (word 2 h.colourPlaneId), word (sps.log2MaxFrameNumMinus4 + 4) h.frameNum,
    present (sps.frameMbsOnly = false) [h.fieldPic],
    present (sps.frameMbsOnly = false ∧ h.fieldPic = true) [h.bottomField],
    present (idr = true) (golomb h.idrPicId.val), h.pictureOrderBits sps,
    present (pps.redundantPicCntPresent = true) (golomb h.redundantPicCnt.val),
    present (h.kind = .b) [h.directSpatialMvPred], present (h.inter = true) h.overrideBits,
    present (h.inter = true) (modificationsBits h.modificationsL0),
    present (h.kind = .b) (modificationsBits h.modificationsL1),
    present ((pps.weightedPred = true ∧ (h.kind = .p ∨ h.kind = .sp)) ∨ (pps.weightedBipredIdc = 1 ∧ h.kind = .b))
      (h.weightTableBits sps),
    present (nalRefIdc ≠ 0) (h.markingBits idr),
    present (pps.entropyCodingMode = true ∧ h.inter = true) (golomb h.cabacInitIdc.val),
    signedGolomb h.sliceQpDelta.val].flatten

end SliceHeader

/-! ### NAL units and streams -/

/-- Emulation prevention, after so many zeros: a 3 before an octet that is at most 3, and at the end behind a zero. -/
def escapeFrom : Nat → Bytes → Bytes
  | zeros, [] => if 0 < zeros then [3] else []
  | zeros, b :: rest =>
    if 2 ≤ zeros ∧ b.toNat ≤ 3 then 3 :: b :: escapeFrom (if b = 0 then 1 else 0) rest
    else b :: escapeFrom (if b = 0 then zeros + 1 else 0) rest

def escape (rbsp : Bytes) : Bytes := escapeFrom 0 rbsp

/-- `forbidden_zero_bit`, `nal_ref_idc` and `nal_unit_type`. -/
def nalHeader (nalRefIdc : BitVec 2) (nalUnitType : BitVec 5) : Byte := (0#1 ++ nalRefIdc ++ nalUnitType).cast rfl

/-- A header, then any bits to a whole number of octets. -/
structure Payload (header : List Bool) where
  others : List Bool
  whole : 8 ∣ (header ++ others).length

def Payload.nal {header : List Bool} (p : Payload header) (nalRefIdc : BitVec 2) (nalUnitType : BitVec 5) : Bytes :=
  nalHeader nalRefIdc nalUnitType :: escape (pack (header ++ p.others))

/-- A NAL unit that the parser does not look at. No start code is in it, and it does not end in a zero. -/
structure Other where
  header : Byte
  payload : Bytes
  kind : header.setWidth 5 ∉ [1#5, 5#5, 7#5, 8#5]
  free : ∀ before after, header :: payload ≠ before ++ 0 :: 0 :: 1 :: after
  final : (header :: payload).getLast? ≠ some 0

/-- What stands in a stream: NAL units, each behind a start code of three or four octets. -/
inductive Item (sps : Sps) (pps : Pps) where
  | sps (nalRefIdc : BitVec 2) (payload : Payload sps.bits)
  | pps (nalRefIdc : BitVec 2) (payload : Payload pps.bits)
  | slice (nalRefIdc : BitVec 2) (idr : Bool) (header : SliceHeader pps) (payload : Payload (header.bits sps idr nalRefIdc))
  | other (nal : Other)

namespace Item

variable {sps : Sps} {pps : Pps}

def nal : Item sps pps → Bytes
  | .sps nalRefIdc payload => payload.nal nalRefIdc 7
  | .pps nalRefIdc payload => payload.nal nalRefIdc 8
  | .slice nalRefIdc idr _ payload => payload.nal nalRefIdc (if idr then 5 else 1)
  | .other nal => nal.header :: nal.payload

def isSps : Item sps pps → Bool
  | .sps _ _ => true
  | _ => false

def isPps : Item sps pps → Bool
  | .pps _ _ => true
  | _ => false

def sliceHeader : Item sps pps → Option (SliceHeader pps)
  | .slice _ _ header _ => some header
  | _ => none

end Item

def startCode (long : Bool) : Bytes := if long then [0, 0, 0, 1] else [0, 0, 1]

/-- One sequence and one picture parameter set, slices that refer to them, and other NAL units anywhere. -/
structure Stream where
  sps : Sps
  pps : Pps
  refers : pps.spsId = sps.id
  front : List (Bool × Item sps pps)
  slices : List (Bool × Item sps pps)
  oneSps : front.countP (fun item => item.2.isSps) = 1
  onePps : front.countP (fun item => item.2.isPps) = 1
  noSlice : ∀ item ∈ front, item.2.sliceHeader = none
  later : ∀ item ∈ slices, item.2.isSps = false ∧ item.2.isPps = false

namespace Stream

variable (s : Stream)

def items : List (Bool × Item s.sps s.pps) := s.front ++ s.slices

def bytes : Bytes := s.items.flatMap fun item => startCode item.1 ++ item.2.nal

def lastSlice : Option (SliceHeader s.pps) := (s.items.filterMap fun item => item.2.sliceHeader).getLast?

end Stream

end MiniRtc.Video.Syntax
