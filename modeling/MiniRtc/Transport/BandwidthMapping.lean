import MiniRtc.Lib.Runs
import MiniRtc.Lib.WindowMin

/-! How a stream confirms the ceiling that its bandwidth supports (the controller update of
ice_transport_controller.cpp). What the update does before it, and how it applies a confirmed ceiling
to the encoder, are left out; their results are fields of a tick. -/
namespace MiniRtc.Transport
open WindowMin

namespace VideoAdaptationPolicy

def kBandwidthMappingStabilityMs : Int := 2000
def kBandwidthMappingIncreaseStabilityMs : Int := 500

def isBandwidthMappingStable (nowMs candidateSinceMs : Int) : Bool :=
  0 < candidateSinceMs ∧ candidateSinceMs ≤ nowMs ∧
    kBandwidthMappingStabilityMs ≤ nowMs - candidateSinceMs

end VideoAdaptationPolicy

structure Size where
  width : Int
  height : Int
deriving DecidableEq, Repr

def Size.area (s : Size) : Int := s.width * s.height

/-- The fields of a `StreamContext` that belong to the mapping. -/
structure MappingContext where
  mappedTargetWidth : Option Int := none
  mappedTargetHeight : Option Int := none
  pendingMappedWidth : Option Int := none
  pendingMappedHeight : Option Int := none
  mappingStabilityCount : Int := 0
  pendingMappedSinceMs : Int := 0
  pendingMappedCandidates : List (Sample Size Int) := []
deriving DecidableEq, Repr

/-- An update of the controller that gets to the mapping of a stream: the time, the size that the
resolution adapter finds for the bandwidth, and what the mapping reads of the stream. -/
structure Tick where
  nowMs : Int
  target : Size
  source : Size
  contextTargetWidth : Option Int := none
  contextTargetHeight : Option Int := none
  resolutionUpgradeNetworkBlocked : Bool := false
  allowSpatialDowngrade : Bool := false
  wasFrozen : Bool := false
  freezeResolution : Bool := false
  staticContentCandidate : Bool := false
deriving DecidableEq, Repr

namespace MappingContext

def resetPendingBandwidthMapping (c : MappingContext) : MappingContext :=
  { c with
    pendingMappedWidth := none
    pendingMappedHeight := none
    mappingStabilityCount := 0
    pendingMappedSinceMs := 0
    pendingMappedCandidates := [] }

/-- The end of a static-content hold. -/
def leaveStaticHold (c : MappingContext) (t : Tick) : MappingContext :=
  if t.wasFrozen && !t.freezeResolution then
    { c.resetPendingBandwidthMapping with
      mappedTargetWidth := some (t.contextTargetWidth.getD t.source.width)
      mappedTargetHeight := some (t.contextTargetHeight.getD t.source.height) }
  else c

def ceilingArea (c : MappingContext) (t : Tick) : Int :=
  c.mappedTargetWidth.getD (t.contextTargetWidth.getD t.source.width) *
    c.mappedTargetHeight.getD (t.contextTargetHeight.getD t.source.height)

def raisingCeiling (c : MappingContext) (t : Tick) : Bool := c.ceilingArea t < t.target.area

def pendingArea (c : MappingContext) : Int :=
  c.pendingMappedWidth.getD 0 * c.pendingMappedHeight.getD 0

def candidateSupported (c : MappingContext) (t : Tick) : Bool :=
  0 < c.pendingArea ∧
    if c.raisingCeiling t then c.ceilingArea t < c.pendingArea ∧ c.pendingArea ≤ t.target.area
    else c.pendingMappedWidth = some t.target.width ∧ c.pendingMappedHeight = some t.target.height

/-- A new confirmation. -/
def startPending (c : MappingContext) (t : Tick) : MappingContext :=
  { c.resetPendingBandwidthMapping with
    pendingMappedWidth := some t.target.width
    pendingMappedHeight := some t.target.height
    mappingStabilityCount := 1
    pendingMappedSinceMs := t.nowMs
    pendingMappedCandidates := if c.raisingCeiling t then [⟨t.target, t.nowMs⟩] else [] }

/-- The candidates with that of a tick: larger ones are gone, and so are older ones that the hold
window does not need. -/
def confirmCandidates (candidates : List (Sample Size Int)) (t : Tick) : List (Sample Size Int) :=
  expire (t.nowMs - VideoAdaptationPolicy.kBandwidthMappingIncreaseStabilityMs)
    (push Size.area t.target t.nowMs candidates)

/-- The size that is supported, unless the latest is larger and may still be confirmed. -/
def supportedSize (c : MappingContext) (t : Tick) : Option Size :=
  match c.pendingMappedCandidates with
  | [] => none
  | supported :: _ =>
    if supported.size.area < t.target.area ∧
        t.nowMs - c.pendingMappedSinceMs < VideoAdaptationPolicy.kBandwidthMappingStabilityMs +
          VideoAdaptationPolicy.kBandwidthMappingIncreaseStabilityMs then none
    else some supported.size

def commit (c : MappingContext) (size : Size) : MappingContext :=
  { c with
    mappedTargetWidth := some size.width
    mappedTargetHeight := some size.height }.resetPendingBandwidthMapping

/-- The mapping of an update: the ceiling that it commits, if it does. -/
def mapBandwidth (c : MappingContext) (t : Tick) : MappingContext × Option Size :=
  let c := c.leaveStaticHold t
  let raisingCeiling := c.raisingCeiling t
  if raisingCeiling && t.resolutionUpgradeNetworkBlocked then (c.resetPendingBandwidthMapping, none)
  else if t.allowSpatialDowngrade && (t.freezeResolution || t.staticContentCandidate) &&
      !raisingCeiling then (c.resetPendingBandwidthMapping, none)
  else if !c.candidateSupported t then (c.startPending t, none)
  else
    let c :=
      if raisingCeiling then
        { c with pendingMappedCandidates := confirmCandidates c.pendingMappedCandidates t }
      else c
    let c := { c with mappingStabilityCount := c.mappingStabilityCount + 1 }
    if !VideoAdaptationPolicy.isBandwidthMappingStable t.nowMs c.pendingMappedSinceMs then (c, none)
    else
      let committed :=
        if raisingCeiling then c.supportedSize t
        else some ⟨c.pendingMappedWidth.getD 0, c.pendingMappedHeight.getD 0⟩
      match committed with
      | none => (c, none)
      | some size => (c.commit size, some size)

end MappingContext

end MiniRtc.Transport
