import MiniRtc.Fec.Adaptation

/-! How the bitrate of a transport is divided (ice_transport_controller.cpp, UpdateFecProtection):
audio and data are reserved, each active video stream gets an equal share of the rest, and a share
is divided between retransmissions, media and repairs. -/
namespace MiniRtc.Transport.FecBudget

open MiniRtc.Fec

inductive StreamType where
  | audio | video | data
deriving DecidableEq, Repr

/-- A stream that is sent. A video stream is made together with its transceiver. -/
structure StreamContext where
  ssrc : Option (BitVec 32)
  rtxSsrc : Option (BitVec 32)
  type : StreamType
  lastActiveTime : Option Int := none
  lastCaptureTime : Option Int := none
  transceiver : Bool
  codec : Bool
  fecController : FecAdaptationController := {}
  fecProtection : FecProtectionConfig := {}
  fecLastActiveMs : Int := -1
  rtxBitrateEwma : ℚ := 0
  sends : type = .video → transceiver = true

/-- The part of the controller of a transport that divides its bitrate; an entry may be null. -/
structure Controller where
  streamSenders : List (Option StreamContext)
  paced : Bool
  targetBitrate : Int
  videoBitrateLimitBps : Int := 0
  videoFecEnabled : Bool
  fecMode : FecMode
  isCongested : Bool
  mediaTransportReady : Bool
  fecFeedbackSnapshots : BitVec 32 → Option FecFeedbackSnapshot := fun _ => none
  fecSnapshotMs : Int := -1
  fecConfigVersion : Nat := 0
  videoTransportBitrateBps : Int := 0

/-- What an update reads of the clock, the network estimate, the feedback adapter and the pacer. -/
structure Reading where
  nowMs : Int
  roundTripMs : Option Int
  fecFeedback : (nowMs rttMs : Int) → BitVec 32 → Option FecFeedbackSnapshot
  expectedQueueMs : Int
  oldestWaitMs : Int

def StreamContext.active (c : StreamContext) (nowMs : Int) : Bool :=
  c.lastActiveTime.any (nowMs - · < 100) || c.type = .video && c.lastCaptureTime.any (nowMs - · < 100)

namespace Controller

def mode (s : Controller) : FecMode := if s.videoFecEnabled then s.fecMode else .off

def count (s : Controller) (nowMs : Int) (kind : StreamContext → Bool) : Nat :=
  s.streamSenders.countP fun c => c.any fun c => c.active nowMs && kind c

def videos (s : Controller) (nowMs : Int) : Nat := s.count nowMs fun c => c.type = .video && c.codec

def other (s : Controller) (nowMs : Int) : Int :=
  s.count nowMs (·.type = .audio) * 64000 +
    if s.count nowMs (·.type = .data) ≠ 0 then s.targetBitrate.tdiv 10 else 0

def videoBudget (s : Controller) (nowMs : Int) : Int :=
  let budget := max 0 (s.targetBitrate - s.other nowMs)
  if 0 < s.videoBitrateLimitBps then min budget s.videoBitrateLimitBps else budget

def share (s : Controller) (nowMs : Int) : Int := (s.videoBudget nowMs).tdiv (max 1 (s.videos nowMs))

def newSnapshot (s : Controller) (r : Reading) : Bool := s.fecSnapshotMs < 0 || 200 ≤ r.nowMs - s.fecSnapshotMs

end Controller

def Reading.rttMs (r : Reading) : Int := (r.roundTripMs.map (clamp · 0 2000)).getD 0

namespace StreamContext

/-- The bitrate of the retransmissions rises at once and falls slowly. -/
def retransmitted (c : StreamContext) (s : Controller) : ℚ :=
  let auxiliary := s.fecFeedbackSnapshots (c.rtxSsrc.getD 0)
  let actualRtx := (auxiliary.map (·.sentBps .rtx)).getD 0
  max actualRtx (c.rtxBitrateEwma * (4 / 5))

def network (c : StreamContext) (s : Controller) (r : Reading) : FecNetworkSnapshot where
  feedback := (s.fecFeedbackSnapshots (c.ssrc.getD 0)).getD {}
  nowMs := r.nowMs
  rttMs := r.rttMs
  queueMs := max r.expectedQueueMs r.oldestWaitMs
  transportBps := s.targetBitrate
  congested := s.isCongested || !s.mediaTransportReady

/-- The protection of a video stream; the snapshots are those of this update. -/
def protect (s : Controller) (r : Reading) (newSnapshot : Bool) (c : StreamContext) : StreamContext :=
  if c.type ≠ .video ∨ c.transceiver = false then c
  else
    let c := if newSnapshot then { c with rtxBitrateEwma := c.retransmitted s } else c
    if c.active r.nowMs then
      let network := c.network s r
      let (config, fecController) := c.fecController.update s.mode network
      let config := allocateFecBudget config (s.share r.nowMs - truncate c.rtxBitrateEwma)
        (some network.feedback.payloadFraction)
      { c with
        fecLastActiveMs := r.nowMs
        fecController
        fecProtection := { config with version := s.fecConfigVersion } }
    else
      let c := if 0 ≤ c.fecLastActiveMs ∧ 1000 < r.nowMs - c.fecLastActiveMs then
          { c with fecController := {}, rtxBitrateEwma := 0, fecLastActiveMs := -1 }
        else c
      { c with fecProtection := {
          sourceRatio := some 0, fecBitrateBps := 0, version := s.fecConfigVersion } }

end StreamContext

namespace Controller

def activeVideos (s : Controller) (nowMs : Int) : List StreamContext :=
  s.streamSenders.reduceOption.filter fun c => c.type = .video && c.active nowMs

/-- The media of a stream that is about to start. -/
def startup (s : Controller) (nowMs : Int) : Int :=
  let sourceRatio := match s.mode with
    | .off => 0
    | .fixed => 1 / 4
    | .adaptive => 1 / 10
  (allocateFecBudget { sourceRatio := some sourceRatio } (s.videoBudget nowMs) (some (47 / 50))).mediaBitrateBps

def updateFecProtection (s : Controller) (r : Reading) : Controller :=
  if s.paced = false then s
  else
    let newSnapshot := s.newSnapshot r
    let s := { s with fecConfigVersion := s.fecConfigVersion + 1 }
    let s := if newSnapshot then
        { s with fecFeedbackSnapshots := r.fecFeedback r.nowMs r.rttMs, fecSnapshotMs := r.nowMs }
      else s
    let streamSenders := s.streamSenders.map (Option.map (·.protect s r newSnapshot))
    let s := { s with streamSenders }
    let media := (s.activeVideos r.nowMs).map (·.fecProtection.mediaBitrateBps)
    { s with videoTransportBitrateBps := if s.videos r.nowMs = 0 then s.startup r.nowMs else media.sum }

end Controller

/-! ### One stream -/

namespace StreamContext

variable (s : Controller) (r : Reading) (newSnapshot : Bool) (c : StreamContext)

/-- An update does not touch what makes a stream active. -/
theorem protect_keeps : (c.protect s r newSnapshot).type = c.type ∧
    (c.protect s r newSnapshot).lastActiveTime = c.lastActiveTime ∧
    (c.protect s r newSnapshot).lastCaptureTime = c.lastCaptureTime ∧
    (c.protect s r newSnapshot).codec = c.codec := by
  unfold protect
  split
  · exact ⟨rfl, rfl, rfl, rfl⟩
  cases newSnapshot
  · simp only [Bool.false_eq_true, if_false]
    split_ifs
    all_goals exact ⟨rfl, rfl, rfl, rfl⟩
  · simp only [if_true]
    split_ifs
    all_goals exact ⟨rfl, rfl, rfl, rfl⟩

theorem protect_active : (c.protect s r newSnapshot).active r.nowMs = c.active r.nowMs := by
  obtain ⟨type, active, capture, -⟩ := c.protect_keeps s r newSnapshot
  rw [StreamContext.active, type, active, capture]
  rfl

/-- The share of an active stream is divided, after its retransmissions are reserved. -/
theorem protect_allocated {c : StreamContext} (video : c.type = .video) (active : c.active r.nowMs = true) :
    ∃ ratio, Allocated ratio (s.share r.nowMs - truncate (c.protect s r newSnapshot).rtxBitrateEwma)
      (c.protect s r newSnapshot).fecProtection := by
  have sends : ¬ (c.type ≠ .video ∨ c.transceiver = false) := by simp [video, c.sends video]
  unfold protect
  rw [if_neg sends]
  cases newSnapshot
  · simp only [Bool.false_eq_true, if_false]
    rw [if_pos active]
    obtain ⟨positive, most, repairs⟩ := allocateFecBudget_allocated
      (c.fecController.update s.mode (c.network s r)).1 (s.share r.nowMs - truncate c.rtxBitrateEwma)
      (some (c.network s r).feedback.payloadFraction)
    exact ⟨_, positive, most, repairs⟩
  · simp only [if_true]
    rw [if_pos (show ({ c with rtxBitrateEwma := c.retransmitted s } : StreamContext).active r.nowMs = true from active)]
    obtain ⟨positive, most, repairs⟩ := allocateFecBudget_allocated
      (c.fecController.update s.mode (c.network s r)).1 (s.share r.nowMs - truncate (c.retransmitted s))
      (some (c.network s r).feedback.payloadFraction)
    exact ⟨_, positive, most, repairs⟩

/-- A stream that is not active gets nothing. -/
theorem protect_idle {c : StreamContext} (video : c.type = .video) (idle : c.active r.nowMs = false) :
    (c.protect s r newSnapshot).fecProtection.fecBitrateBps = 0 ∧
      (c.protect s r newSnapshot).fecProtection.mediaBitrateBps = 0 := by
  have sends : ¬ (c.type ≠ .video ∨ c.transceiver = false) := by simp [video, c.sends video]
  unfold protect
  rw [if_neg sends]
  cases newSnapshot
  · simp only [Bool.false_eq_true, if_false]
    rw [if_neg (by simp [idle])]
    exact ⟨rfl, rfl⟩
  · simp only [if_true]
    have still : ({ c with rtxBitrateEwma := c.retransmitted s } : StreamContext).active r.nowMs = false := idle
    rw [if_neg (by simp [still])]
    exact ⟨rfl, rfl⟩

/-- What a stream takes of the bitrate, with whole retransmissions. -/
def taken (share : Int) (c : StreamContext) : Int :=
  c.fecProtection.mediaBitrateBps + c.fecProtection.fecBitrateBps + min (truncate c.rtxBitrateEwma) share

/-- What a stream takes of the bitrate. -/
def exactlyTaken (share : Int) (c : StreamContext) : ℚ :=
  c.fecProtection.mediaBitrateBps + c.fecProtection.fecBitrateBps + min c.rtxBitrateEwma share

theorem taken_le {share : Int} {ratio : ℚ} {c : StreamContext}
    (allocated : Allocated ratio (share - truncate c.rtxBitrateEwma) c.fecProtection) : c.taken share ≤ share := by
  have most := allocated.most
  unfold taken
  rcases le_total (truncate c.rtxBitrateEwma) share with below | above
  · rw [max_eq_right (by linarith)] at most
    rw [min_eq_left below]
    linarith
  · rw [max_eq_left (by linarith)] at most
    rw [min_eq_right above]
    linarith

theorem lt_truncate (q : ℚ) : q < truncate q + 1 := by
  unfold truncate
  split
  · exact lt_of_le_of_lt (Int.le_ceil q) (lt_add_one _)
  · exact Int.lt_floor_add_one q

theorem exactlyTaken_le (share : Int) (c : StreamContext) : c.exactlyTaken share ≤ c.taken share + 1 := by
  have above := lt_truncate c.rtxBitrateEwma
  have least : min c.rtxBitrateEwma share ≤ min (truncate c.rtxBitrateEwma : ℚ) share + 1 := by
    rcases le_total (truncate c.rtxBitrateEwma : ℚ) share with below | below
    · rw [min_eq_left below]
      exact (min_le_left _ _).trans above.le
    · rw [min_eq_right below]
      exact (min_le_right _ _).trans (lt_add_one _).le
  unfold exactlyTaken taken
  push_cast
  linarith

end StreamContext

/-! ### All streams -/

namespace Controller

/-- The streams after an update, in terms of the state in which they are divided. -/
theorem updateFecProtection_streams {s : Controller} (paced : s.paced = true) (r : Reading) :
    ∃ (d : Controller), d.share r.nowMs = s.share r.nowMs ∧
      (s.updateFecProtection r).streamSenders =
        s.streamSenders.map (Option.map (·.protect d r (s.newSnapshot r))) := by
  unfold updateFecProtection
  rw [if_neg (by simp [paced])]
  cases s.newSnapshot r
  · exact ⟨{ s with fecConfigVersion := s.fecConfigVersion + 1 }, rfl, rfl⟩
  · exact ⟨{ s with
      fecConfigVersion := s.fecConfigVersion + 1
      fecFeedbackSnapshots := r.fecFeedback r.nowMs r.rttMs
      fecSnapshotMs := r.nowMs }, rfl, rfl⟩

theorem count_eq (s : Controller) (nowMs : Int) (kind : StreamContext → Bool) :
    s.count nowMs kind = s.streamSenders.reduceOption.countP fun c => c.active nowMs && kind c := by
  unfold count
  induction s.streamSenders with
  | nil => rfl
  | cons c rest ih =>
    cases c with
    | none => simpa [List.countP_cons] using ih
    | some c => simp [List.countP_cons, ih]

/-- Every active video stream has an encoder. -/
def Encoding (s : Controller) (nowMs : Int) : Prop := ∀ c ∈ s.activeVideos nowMs, c.codec = true

theorem length_activeVideos {s : Controller} {nowMs : Int} (encoding : s.Encoding nowMs) :
    (s.activeVideos nowMs).length = s.videos nowMs := by
  rw [videos, count_eq, activeVideos, ← List.countP_eq_length_filter]
  refine List.countP_congr fun c member => ?_
  have codec : (decide (c.type = .video) && c.active nowMs) = true → c.codec = true := fun here =>
    encoding c (List.mem_filter.mpr ⟨member, here⟩)
  cases video : decide (c.type = .video)
  · simp
  · cases active : c.active nowMs
    · simp
    · have there := codec (by simp [video, active])
      simp [there]

theorem videoBudget_nonneg (s : Controller) (nowMs : Int) : 0 ≤ s.videoBudget nowMs := by
  unfold videoBudget
  simp only
  split
  · rename_i limited
    exact le_min (le_max_left _ _) limited.le
  · exact le_max_left _ _

theorem videoBudget_le (s : Controller) (nowMs : Int) :
    s.videoBudget nowMs ≤ max 0 (s.targetBitrate - s.other nowMs) ∧
      (0 < s.videoBitrateLimitBps → s.videoBudget nowMs ≤ s.videoBitrateLimitBps) := by
  unfold videoBudget
  simp only
  split
  · exact ⟨min_le_left _ _, fun _ => min_le_right _ _⟩
  · rename_i unlimited
    exact ⟨le_rfl, fun limited => absurd limited unlimited⟩

theorem share_nonneg (s : Controller) (nowMs : Int) : 0 ≤ s.share nowMs :=
  Int.tdiv_nonneg (s.videoBudget_nonneg nowMs) (by positivity)

theorem shares_le (s : Controller) (nowMs : Int) : s.videos nowMs * s.share nowMs ≤ s.videoBudget nowMs := by
  have budget := s.videoBudget_nonneg nowMs
  have share := s.share_nonneg nowMs
  have shared : max 1 (s.videos nowMs : Int) * s.share nowMs ≤ s.videoBudget nowMs := by
    unfold Controller.share
    rw [Int.tdiv_eq_ediv_of_nonneg budget]
    exact Int.mul_ediv_self_le (by positivity)
  exact (mul_le_mul_of_nonneg_right (le_max_right _ _) share).trans shared

/-- The bitrates after an update. -/
structure Conserved (s s' : Controller) (nowMs : Int) : Prop where
  positive : ∀ c ∈ s'.streamSenders.reduceOption, c.type = .video →
    0 ≤ c.fecProtection.mediaBitrateBps ∧ 0 ≤ c.fecProtection.fecBitrateBps
  most : ((s'.activeVideos nowMs).map (·.taken (s.share nowMs))).sum ≤ max 0 (s.targetBitrate - s.other nowMs)
  limit : 0 < s.videoBitrateLimitBps →
    ((s'.activeVideos nowMs).map (·.taken (s.share nowMs))).sum ≤ s.videoBitrateLimitBps
  exact : ((s'.activeVideos nowMs).map (·.exactlyTaken (s.share nowMs))).sum ≤
    ((s'.activeVideos nowMs).map (·.taken (s.share nowMs))).sum + s.videos nowMs
  idle : ∀ c ∈ s'.streamSenders.reduceOption, c.type = .video → c.active nowMs = false →
    c.fecProtection.fecBitrateBps = 0

/-- The bitrates of all streams stay within the budget of the transport, and an allocation within its rate. -/
theorem updateFecProtection_conserved (s : Controller) (r : Reading) (paced : s.paced = true)
    (encoding : s.Encoding r.nowMs) :
    Conserved s (s.updateFecProtection r) r.nowMs ∧
      ∀ c bps fraction, Allocated c.allocated bps (allocateFecBudget c bps fraction) := by
  refine ⟨?_, allocateFecBudget_allocated⟩
  obtain ⟨d, share, after⟩ := updateFecProtection_streams paced r
  have all : (s.updateFecProtection r).streamSenders.reduceOption =
      s.streamSenders.reduceOption.map (·.protect d r (s.newSnapshot r)) := by
    rw [after, List.reduceOption_map]
  have active : (s.updateFecProtection r).activeVideos r.nowMs =
      (s.activeVideos r.nowMs).map (·.protect d r (s.newSnapshot r)) := by
    rw [activeVideos, all, List.filter_map, activeVideos]
    refine congrArg _ (List.filter_congr fun c _ => ?_)
    rw [Function.comp_apply, c.protect_active d r, (c.protect_keeps d r _).1]
  have each : ∀ c ∈ (s.updateFecProtection r).activeVideos r.nowMs, c.taken (s.share r.nowMs) ≤ s.share r.nowMs := by
    intro c member
    rw [active] at member
    obtain ⟨old, there, rfl⟩ := List.mem_map.mp member
    obtain ⟨_, kind⟩ := List.mem_filter.mp there
    simp only [Bool.and_eq_true, decide_eq_true_eq] at kind
    obtain ⟨ratio, allocated⟩ := StreamContext.protect_allocated d r (s.newSnapshot r) kind.1 kind.2
    rw [share] at allocated
    exact StreamContext.taken_le allocated
  have length : ((s.updateFecProtection r).activeVideos r.nowMs).length = s.videos r.nowMs := by
    rw [active, List.length_map, length_activeVideos encoding]
  have total : (((s.updateFecProtection r).activeVideos r.nowMs).map (·.taken (s.share r.nowMs))).sum ≤
      s.videoBudget r.nowMs := by
    have bound := List.sum_le_card_nsmul _ (s.share r.nowMs) (List.forall_mem_map.mpr each)
    rw [List.length_map, length, nsmul_eq_mul] at bound
    exact bound.trans (s.shares_le r.nowMs)
  refine ⟨?_, total.trans (s.videoBudget_le r.nowMs).1, fun limited => total.trans ((s.videoBudget_le r.nowMs).2 limited),
    ?_, ?_⟩
  · intro c member video
    rw [all] at member
    obtain ⟨old, there, rfl⟩ := List.mem_map.mp member
    have video' : old.type = .video := (old.protect_keeps d r _).1.symm.trans video
    cases live : old.active r.nowMs with
    | true =>
      obtain ⟨ratio, allocated⟩ := StreamContext.protect_allocated d r (s.newSnapshot r) video' live
      exact allocated.positive
    | false =>
      obtain ⟨repairs, media⟩ := StreamContext.protect_idle d r (s.newSnapshot r) video' live
      exact ⟨media.ge, repairs.ge⟩
  · rw [← length]
    induction (s.updateFecProtection r).activeVideos r.nowMs with
    | nil => simp
    | cons c rest ih =>
      have here := c.exactlyTaken_le (s.share r.nowMs)
      simp only [List.map_cons, List.sum_cons, List.length_cons]
      rw [Int.cast_add, Nat.cast_succ]
      linarith
  · intro c member video idle
    rw [all] at member
    obtain ⟨old, there, rfl⟩ := List.mem_map.mp member
    have video' : old.type = .video := (old.protect_keeps d r _).1.symm.trans video
    rw [old.protect_active d r] at idle
    exact (StreamContext.protect_idle d r (s.newSnapshot r) video' idle).1

/-- One stream is active, with a limit of 109 bits a second and retransmissions of 136. -/
def narrow : Controller where
  streamSenders := [some {
    ssrc := some 1, rtxSsrc := some 2, type := .video, lastActiveTime := some 1000, transceiver := true, codec := true
    rtxBitrateEwma := 136, sends := fun _ => rfl }]
  paced := true
  targetBitrate := 1000000
  videoBitrateLimitBps := 109
  videoFecEnabled := true
  fecMode := .fixed
  isCongested := false
  mediaTransportReady := true

def quiet : Reading where
  nowMs := 1000
  roundTripMs := some 20
  fecFeedback := fun _ _ _ => none
  expectedQueueMs := 0
  oldestWaitMs := 0

theorem updateFecProtection_conserved_narrow :
    Conserved narrow (narrow.updateFecProtection quiet) quiet.nowMs ∧
      ∀ c bps fraction, Allocated c.allocated bps (allocateFecBudget c bps fraction) := by
  refine updateFecProtection_conserved narrow quiet rfl fun c member => ?_
  rw [show narrow.activeVideos quiet.nowMs = narrow.streamSenders.reduceOption from rfl] at member
  obtain rfl := List.mem_singleton.mp member
  rfl

/-- With the fraction of its retransmissions the stream takes more than the limit. -/
theorem exceeds_limit_narrow :
    ¬ ∀ (s : Controller) (r : Reading), s.paced = true → s.Encoding r.nowMs → 0 < s.videoBitrateLimitBps →
      (((s.updateFecProtection r).activeVideos r.nowMs).map (·.exactlyTaken (s.share r.nowMs))).sum ≤
        s.videoBitrateLimitBps := by
  intro claim
  have encoding : narrow.Encoding quiet.nowMs := by
    intro c member
    rw [show narrow.activeVideos quiet.nowMs = narrow.streamSenders.reduceOption from rfl] at member
    obtain rfl := List.mem_singleton.mp member
    rfl
  have most := claim narrow quiet rfl encoding (by decide)
  have sum : (((narrow.updateFecProtection quiet).activeVideos quiet.nowMs).map
      (·.exactlyTaken (narrow.share quiet.nowMs))).sum = 1098 / 10 := by decide +kernel
  have limit : narrow.videoBitrateLimitBps = 109 := rfl
  rw [sum, limit] at most
  norm_num at most

end Controller

end MiniRtc.Transport.FecBudget
