import MiniRtc.Video.BitReader

/-! `H264BitstreamParser` (h264_bitstream_parser.cpp): the QP of the last slice and the size of the picture, from the
headers of an Annex B stream. -/
namespace MiniRtc.Video
open Wire Reading BitReader

/-! ### NAL units -/

/-- The start code at the front. -/
def startCodeLength (data : Bytes) : Option Nat :=
  if data.take 4 = [0, 0, 0, 1] then some 4 else if data.take 3 = [0, 0, 1] then some 3 else none

/-- Its offset and length. -/
def findStartCode : Bytes → Option (Nat × Nat)
  | [] => none
  | b :: rest =>
    match startCodeLength (b :: rest) with
    | some length => some (0, length)
    | none => (findStartCode rest).map fun found => (found.1 + 1, found.2)

theorem startCodeLength_bounds {data : Bytes} {length : Nat} (found : startCodeLength data = some length) :
    3 ≤ length ∧ length ≤ data.length := by
  rw [startCodeLength] at found
  split at found
  · rename_i long
    have := congrArg List.length long
    obtain rfl := Option.some.inj found
    simp only [List.length_take, List.length_cons, List.length_nil] at this
    omega
  · split at found
    · rename_i short
      have := congrArg List.length short
      obtain rfl := Option.some.inj found
      simp only [List.length_take, List.length_cons, List.length_nil] at this
      omega
    · cases found

theorem findStartCode_bounds {data : Bytes} {found : Nat × Nat} (some : findStartCode data = some found) :
    3 ≤ found.2 ∧ found.1 + found.2 ≤ data.length := by
  induction data generalizing found with
  | nil => cases some
  | cons b rest ih =>
    rw [findStartCode] at some
    split at some
    · rename_i length here
      obtain rfl := Option.some.inj some
      have := startCodeLength_bounds here
      exact ⟨this.1, by simpa using this.2⟩
    · obtain ⟨later, there, rfl⟩ := Option.map_eq_some_iff.mp some
      have := ih there
      simp only [List.length_cons]
      omega

/-- The loop of `FindNaluIndices`, from behind a start code. An empty unit is left out. -/
def nalusFrom (data : Bytes) : List Bytes :=
  match _next : findStartCode data with
  | none => if data = [] then [] else [data]
  | some found =>
    (if 0 < found.1 then [data.take found.1] else []) ++ nalusFrom (data.drop (found.1 + found.2))
termination_by data.length
decreasing_by
  have := findStartCode_bounds _next
  rw [List.length_drop]
  omega

def findNaluIndices (data : Bytes) : List Bytes :=
  match findStartCode data with
  | none => []
  | some found => nalusFrom (data.drop (found.1 + found.2))

/-- Without the emulation prevention bytes. -/
def parseRbsp : Bytes → Bytes
  | a :: b :: c :: rest =>
    if a = 0 ∧ b = 0 ∧ c = 3 then a :: b :: parseRbsp rest else a :: parseRbsp (b :: c :: rest)
  | [a, b] => [a, b]
  | [a] => [a]
  | [] => []

def isHighProfile (profileIdc : Nat) : Bool :=
  profileIdc ∈ [44, 83, 86, 100, 110, 118, 122, 128, 134, 138, 139, 244]

/-- The doubling of the limit, at most 32 times. -/
def ceilLog2From (value : Nat) : Nat → Nat → Nat → Nat
  | 0, bits, _ => bits
  | left + 1, bits, limit => if limit < value then ceilLog2From value left (bits + 1) (limit <<< 1 % 2 ^ 32) else bits

def ceilLog2 (value : Nat) : Nat := ceilLog2From value 32 0 1

/-! ### The state -/

def kMaxSpsId : Nat := 31
def kMaxPpsId : Nat := 255
def kMaxReferenceIndex : Nat := 31
def kMaxLog2Minus4 : Nat := 12
def kMaxPicOrderCycleLength : Nat := 255
def kMinPicInitQpMinus26 : Int := -26
def kMaxPicInitQpMinus26 : Int := 25
def kMaxAbsQpDelta : Int := 51
def kMinQp : Int := 0
def kMaxQp : Int := 51

def kSliceP : Nat := 0
def kSliceB : Nat := 1
def kSliceI : Nat := 2
def kSliceSp : Nat := 3
def kSliceSi : Nat := 4

structure SpsState where
  id : Nat := 0
  width : Int := 0
  height : Int := 0
  chromaFormatIdc : Nat := 1
  separateColourPlaneFlag : Bool := false
  log2MaxFrameNum : Nat := 4
  picOrderCntType : Nat := 0
  log2MaxPicOrderCntLsb : Nat := 4
  deltaPicOrderAlwaysZeroFlag : Bool := false
  frameMbsOnlyFlag : Bool := true
deriving DecidableEq

namespace SpsState

variable (sps : SpsState) (widthMbs heightMbs left right top bottom : Nat)

/-- `chroma` of `ParseSps` and `chroma_array_type` of `ParseSlice`. -/
def chroma : Nat := if sps.separateColourPlaneFlag then 0 else sps.chromaFormatIdc

def croppedWidth : Int :=
  ((widthMbs : Int) + 1) * 16 - ((left : Int) + right) * (if sps.chroma = 1 ∨ sps.chroma = 2 then 2 else 1)

def croppedHeight : Int :=
  ((heightMbs : Int) + 1) * 16 * (if sps.frameMbsOnlyFlag then 1 else 2) -
    ((top : Int) + bottom) * ((if sps.chroma = 1 then 2 else 1) * (if sps.frameMbsOnlyFlag then 1 else 2))

def sized : SpsState :=
  if 0 < sps.croppedWidth widthMbs left right ∧ 0 < sps.croppedHeight heightMbs top bottom ∧
      sps.croppedWidth widthMbs left right ≤ 8192 ∧ sps.croppedHeight heightMbs top bottom ≤ 8192 then
    { sps with
      width := sps.croppedWidth widthMbs left right
      height := sps.croppedHeight heightMbs top bottom }
  else sps

end SpsState

structure PpsState where
  id : Nat := 0
  spsId : Nat := 0
  entropyCodingModeFlag : Bool := false
  bottomFieldPicOrderInFramePresentFlag : Bool := false
  numRefIdxL0DefaultActiveMinus1 : Nat := 0
  numRefIdxL1DefaultActiveMinus1 : Nat := 0
  weightedPredFlag : Bool := false
  weightedBipredIdc : Nat := 0
  picInitQpMinus26 : Int := 0
  redundantPicCntPresentFlag : Bool := false
deriving DecidableEq

structure H264BitstreamParser where
  sps : Option SpsState := none
  pps : Option PpsState := none
  lastSliceQpDelta : Option Int := none
deriving DecidableEq

namespace H264BitstreamParser

/-- A header that is not valid gives nothing. -/
def attempt {α : Type} : Except Stop α → Except Stop (Option α)
  | .ok value => .ok (some value)
  | .error .invalidStream => .ok none
  | .error .unsupportedStream => .ok none
  | .error e => .error e

/-- A condition that a header must meet. -/
def check (c : Prop) [Decidable c] : Reader Unit := require .invalidStream c

/-- A value that is not used. -/
def skipUnsignedGolomb : Reader Unit := do
  let _ ← readUnsignedGolomb

def skipSignedGolomb : Reader Unit := do
  let _ ← readSignedGolomb

/-! ### Sequence parameter sets -/

def skipScalingList : Nat → Int → Int → Reader Unit
  | 0, _, _ => pure ()
  | left + 1, lastScale, nextScale =>
    if nextScale ≠ 0 then do
      let deltaScale ← readSignedGolomb
      check (-128 ≤ deltaScale ∧ deltaScale ≤ 127)
      let next := (lastScale + deltaScale + 256) % 256
      skipScalingList left (if next ≠ 0 then next else lastScale) next
    else skipScalingList left lastScale nextScale

/-- So many lists from the `i`-th on. -/
def skipScalingLists : Nat → Nat → Reader Unit
  | 0, _ => pure ()
  | left + 1, i => do
    let scalingListPresent ← readBit
    whenever (scalingListPresent = true) (skipScalingList (if i < 6 then 16 else 64) 8 8)
    skipScalingLists left (i + 1)

/-- The fields of the high profiles. -/
def readHighProfile (sps : SpsState) : Reader SpsState := do
  let chromaFormatIdc ← readUnsignedGolomb
  check (chromaFormatIdc ≤ 3)
  let separate ← (if chromaFormatIdc = 3 then readBit else pure false)
  skipUnsignedGolomb
  skipUnsignedGolomb
  skipBits 1
  let scalingMatrixPresent ← readBit
  whenever (scalingMatrixPresent = true) (skipScalingLists (if chromaFormatIdc = 3 then 12 else 8) 0)
  pure { sps with chromaFormatIdc := chromaFormatIdc, separateColourPlaneFlag := separate }

def readPicOrder (sps : SpsState) : Reader SpsState := do
  let picOrderCntType ← readUnsignedGolomb
  check (picOrderCntType ≤ 2)
  if picOrderCntType = 0 then do
    let log2MaxPicOrderCntLsbMinus4 ← readUnsignedGolomb
    check (log2MaxPicOrderCntLsbMinus4 ≤ kMaxLog2Minus4)
    pure { sps with
      picOrderCntType := picOrderCntType
      log2MaxPicOrderCntLsb := log2MaxPicOrderCntLsbMinus4 + 4 }
  else if picOrderCntType = 1 then do
    let deltaPicOrderAlwaysZeroFlag ← readBit
    skipSignedGolomb
    skipSignedGolomb
    let cycleLength ← readUnsignedGolomb
    check (cycleLength ≤ kMaxPicOrderCycleLength)
    times cycleLength skipSignedGolomb
    pure { sps with
      picOrderCntType := picOrderCntType
      deltaPicOrderAlwaysZeroFlag := deltaPicOrderAlwaysZeroFlag }
  else pure { sps with picOrderCntType := picOrderCntType }

/-- What must be there: the state, and the size in macroblocks and map units less one. -/
def readSps : Reader (SpsState × Nat × Nat) := do
  let profileIdc ← readBits 8
  skipBits 16
  let id ← readUnsignedGolomb
  check (id ≤ kMaxSpsId)
  let sps : SpsState := { id := id }
  let sps ← (if isHighProfile profileIdc then readHighProfile sps else pure sps)
  let log2MaxFrameNumMinus4 ← readUnsignedGolomb
  check (log2MaxFrameNumMinus4 ≤ kMaxLog2Minus4)
  let sps ← readPicOrder { sps with log2MaxFrameNum := log2MaxFrameNumMinus4 + 4 }
  skipUnsignedGolomb
  skipBits 1
  let widthMbs ← readUnsignedGolomb
  let heightMbs ← readUnsignedGolomb
  let frameMbsOnlyFlag ← readBit
  pure ({ sps with frameMbsOnlyFlag := frameMbsOnlyFlag }, widthMbs, heightMbs)

/-- The cropping: left, right, top and bottom. -/
def readCropping (frameMbsOnlyFlag : Bool) : Reader (Nat × Nat × Nat × Nat) := do
  whenever (frameMbsOnlyFlag = false) (skipBits 1)
  skipBits 1
  let cropped ← readBit
  if cropped then do
    let left ← readUnsignedGolomb
    let right ← readUnsignedGolomb
    let top ← readUnsignedGolomb
    let bottom ← readUnsignedGolomb
    pure (left, right, top, bottom)
  else pure (0, 0, 0, 0)

/-- Without a size when the rest of the header is not there. -/
def parseSps (data : Bytes) : Except Stop SpsState :=
  match readSps.run { data := parseRbsp data } with
  | .error e => .error e
  | .ok ((sps, widthMbs, heightMbs), reader) =>
    if 512 ≤ widthMbs ∨ 512 ≤ heightMbs then .ok sps
    else
      (attempt ((readCropping sps.frameMbsOnlyFlag).run reader)).map fun
        | none => sps
        | some ((left, right, top, bottom), _) => SpsState.sized sps widthMbs heightMbs left right top bottom

/-- The size, when it is known. -/
def getResolution (p : H264BitstreamParser) : Option (Int × Int) :=
  match p.sps with
  | none => none
  | some sps => if sps.width = 0 ∨ sps.height = 0 then none else some (sps.width, sps.height)

/-! ### Picture parameter sets -/

def skipSliceGroups (numSliceGroupsMinus1 : Nat) : Reader Unit := do
  let mapType ← readUnsignedGolomb
  check (mapType ≤ 6)
  if mapType = 0 then times (numSliceGroupsMinus1 + 1) skipUnsignedGolomb
  else if mapType = 2 then
    times numSliceGroupsMinus1 do
      skipUnsignedGolomb
      skipUnsignedGolomb
  else if 3 ≤ mapType ∧ mapType ≤ 5 then do
    skipBits 1
    skipUnsignedGolomb
  else if mapType = 6 then do
    let picSizeInMapUnitsMinus1 ← readUnsignedGolomb
    let bitsToSkip := (picSizeInMapUnitsMinus1 + 1) * ceilLog2 (numSliceGroupsMinus1 + 1)
    check (bitsToSkip ≤ 2 ^ 64 - 1)
    skipBits bitsToSkip
  else pure ()

def readPps : Reader PpsState := do
  let id ← readUnsignedGolomb
  let spsId ← readUnsignedGolomb
  check (id ≤ kMaxPpsId)
  check (spsId ≤ kMaxSpsId)
  let entropyCodingModeFlag ← readBit
  let bottomFieldPicOrder ← readBit
  let numSliceGroupsMinus1 ← readUnsignedGolomb
  check (numSliceGroupsMinus1 ≤ 7)
  whenever (0 < numSliceGroupsMinus1) (skipSliceGroups numSliceGroupsMinus1)
  let numRefIdxL0 ← readUnsignedGolomb
  let numRefIdxL1 ← readUnsignedGolomb
  check (numRefIdxL0 ≤ kMaxReferenceIndex)
  check (numRefIdxL1 ≤ kMaxReferenceIndex)
  let weightedPredFlag ← readBit
  let weightedBipredIdc ← readBits 2
  let picInitQpMinus26 ← readSignedGolomb
  check (kMinPicInitQpMinus26 ≤ picInitQpMinus26 ∧ picInitQpMinus26 ≤ kMaxPicInitQpMinus26)
  skipSignedGolomb
  skipSignedGolomb
  skipBits 2
  let redundantPicCntPresentFlag ← readBit
  pure
    { id := id
      spsId := spsId
      entropyCodingModeFlag := entropyCodingModeFlag
      bottomFieldPicOrderInFramePresentFlag := bottomFieldPicOrder
      numRefIdxL0DefaultActiveMinus1 := numRefIdxL0
      numRefIdxL1DefaultActiveMinus1 := numRefIdxL1
      weightedPredFlag := weightedPredFlag
      weightedBipredIdc := weightedBipredIdc
      picInitQpMinus26 := picInitQpMinus26
      redundantPicCntPresentFlag := redundantPicCntPresentFlag }

def parsePps (data : Bytes) : Except Stop PpsState := (readPps.run { data := parseRbsp data }).map Prod.fst

/-! ### Slices -/

section Slice

variable (sps : SpsState) (pps : PpsState) (sliceType : Nat)

def skipPicOrder (fieldPicFlag : Bool) : Reader Unit :=
  if sps.picOrderCntType = 0 then do
    skipBits sps.log2MaxPicOrderCntLsb
    whenever (pps.bottomFieldPicOrderInFramePresentFlag = true ∧ fieldPicFlag = false) skipSignedGolomb
  else if sps.picOrderCntType = 1 ∧ sps.deltaPicOrderAlwaysZeroFlag = false then do
    skipSignedGolomb
    whenever (pps.bottomFieldPicOrderInFramePresentFlag = true ∧ fieldPicFlag = false) skipSignedGolomb
  else pure ()

/-- The greatest indices of the two lists. -/
def readReferenceIndices : Reader (Nat × Nat) := do
  let default := (pps.numRefIdxL0DefaultActiveMinus1, pps.numRefIdxL1DefaultActiveMinus1)
  if sliceType = kSliceP ∨ sliceType = kSliceB ∨ sliceType = kSliceSp then do
    let overrideFlag ← readBit
    if overrideFlag then do
      let l0 ← readUnsignedGolomb
      check (l0 ≤ kMaxReferenceIndex)
      if sliceType = kSliceB then do
        let l1 ← readUnsignedGolomb
        check (l1 ≤ kMaxReferenceIndex)
        pure (l0, l1)
      else pure (l0, default.2)
    else pure default
  else pure default

/-- One turn of the loop over the modifications of a list. -/
def readModification : Reader Bool := do
  let modificationIdc ← readUnsignedGolomb
  whenever (modificationIdc = 0 ∨ modificationIdc = 1) skipUnsignedGolomb
  whenever (modificationIdc = 2) skipUnsignedGolomb
  check (modificationIdc ≤ 3)
  pure (modificationIdc != 3)

def skipModifications : Reader Unit := do
  let modificationFlag ← readBit
  whenever (modificationFlag = true) (doWhile .endless readModification)

/-- The weights of one reference. -/
def skipWeights (chromaArrayType : Nat) : Reader Unit := do
  let flag ← readBit
  whenever (flag = true) do
    skipSignedGolomb
    skipSignedGolomb
  whenever (chromaArrayType ≠ 0) do
    let flag ← readBit
    whenever (flag = true) do
      times 2 do
        skipSignedGolomb
        skipSignedGolomb

def skipWeightTable (l0 l1 : Nat) : Reader Unit := do
  skipUnsignedGolomb
  whenever (sps.chroma ≠ 0) skipUnsignedGolomb
  times (l0 + 1) (skipWeights sps.chroma)
  whenever (sliceType = kSliceB) (times (l1 + 1) (skipWeights sps.chroma))

/-- One turn of the loop over the marking operations. -/
def readMarking : Reader Bool := do
  let operation ← readUnsignedGolomb
  check (operation ≤ 6)
  whenever (operation = 1 ∨ operation = 3) skipUnsignedGolomb
  whenever (operation = 2) skipUnsignedGolomb
  whenever (operation = 3 ∨ operation = 6) skipUnsignedGolomb
  whenever (operation = 4) skipUnsignedGolomb
  pure (operation != 0)

def skipMarking (isIdr : Bool) : Reader Unit :=
  if isIdr then skipBits 2
  else do
    let adaptiveMarking ← readBit
    whenever (adaptiveMarking = true) (doWhile .endless readMarking)

end Slice

/-- What follows the slice type, to `slice_qp_delta`. -/
def readSliceRest (sps : SpsState) (pps : PpsState) (naluType : BitVec 5) (nalRefIdc : BitVec 2) (sliceType : Nat) :
    Reader Int := do
  let isIdr := naluType == 5
  whenever (sps.separateColourPlaneFlag = true) (skipBits 2)
  skipBits sps.log2MaxFrameNum
  let fieldPicFlag ← (if sps.frameMbsOnlyFlag = false then readBit else pure false)
  whenever (sps.frameMbsOnlyFlag = false ∧ fieldPicFlag = true) (skipBits 1)
  whenever (isIdr = true) skipUnsignedGolomb
  skipPicOrder sps pps fieldPicFlag
  whenever (pps.redundantPicCntPresentFlag = true) skipUnsignedGolomb
  whenever (sliceType = kSliceB) (skipBits 1)
  let indices ← readReferenceIndices pps sliceType
  require .unsupportedStream (naluType ≠ 20 ∧ naluType ≠ 21)
  whenever (sliceType ≠ kSliceI ∧ sliceType ≠ kSliceSi) skipModifications
  whenever (sliceType = kSliceB) skipModifications
  whenever ((pps.weightedPredFlag = true ∧ (sliceType = kSliceP ∨ sliceType = kSliceSp)) ∨
      (pps.weightedBipredIdc = 1 ∧ sliceType = kSliceB)) (skipWeightTable sps sliceType indices.1 indices.2)
  whenever (nalRefIdc ≠ 0) (skipMarking isIdr)
  whenever (pps.entropyCodingModeFlag = true ∧ sliceType ≠ kSliceI ∧ sliceType ≠ kSliceSi) skipUnsignedGolomb
  let sliceQpDelta ← readSignedGolomb
  check (|sliceQpDelta| ≤ kMaxAbsQpDelta)
  pure sliceQpDelta

def readSlice (sps : SpsState) (pps : PpsState) (naluType : BitVec 5) (nalRefIdc : BitVec 2) : Reader Int := do
  skipBits 8
  skipUnsignedGolomb
  let sliceType ← readUnsignedGolomb
  let ppsId ← readUnsignedGolomb
  check (ppsId = pps.id)
  check (pps.spsId = sps.id)
  readSliceRest sps pps naluType nalRefIdc (sliceType % 5)

/-- Nothing is done before both parameter sets are known. -/
def parseSlice (p : H264BitstreamParser) (data : Bytes) (naluType : BitVec 5) : Except Stop H264BitstreamParser :=
  match p.sps, p.pps with
  | some sps, some pps =>
    if data.length ≤ 1 then .ok p
    else
      let nalRefIdc : BitVec 2 := (byteAt data 0 >>> 5).setWidth 2
      (attempt ((readSlice sps pps naluType nalRefIdc).run { data := parseRbsp data })).map fun result =>
        { p with lastSliceQpDelta := result.map Prod.fst }
  | _, _ => .ok p

/-! ### The stream -/

/-- A parameter set that is not valid is forgotten. -/
def parseNalu (p : H264BitstreamParser) (nalu : Bytes) : Except Stop H264BitstreamParser :=
  match nalu with
  | [] => .ok p
  | header :: payload =>
    let naluType : BitVec 5 := header.setWidth 5
    if naluType = 7 then (attempt (parseSps payload)).map fun sps => { p with sps := sps }
    else if naluType = 8 then (attempt (parsePps payload)).map fun pps => { p with pps := pps }
    else if naluType = 1 ∨ naluType = 5 then p.parseSlice nalu naluType
    else .ok p

def parseNalus (p : H264BitstreamParser) (nalus : List Bytes) : Except Stop H264BitstreamParser :=
  nalus.foldlM parseNalu p

def parseBitstream (p : H264BitstreamParser) (bitstream : Bytes) : Except Stop H264BitstreamParser :=
  parseNalus { p with lastSliceQpDelta := none } (findNaluIndices bitstream)

def getLastSliceQp (p : H264BitstreamParser) : Option Int :=
  match p.pps, p.lastSliceQpDelta with
  | some pps, some delta =>
    let qp := 26 + pps.picInitQpMinus26 + delta
    if qp < kMinQp ∨ kMaxQp < qp then none else some qp
  | _, _ => none

end H264BitstreamParser

end MiniRtc.Video
