import MiniRtc.Transport.VideoSender

/-! What the regions of the video sender do to the streams and to the set of requests. Each
lemma says everything that the proofs about runs need of its region. -/
namespace MiniRtc.Transport

namespace IceTransportController

/-- The settings generation of a stream that is there. -/
def generation (s : IceTransportController) (channelName : String) : Option Nat :=
  (s.streamSenders.find channelName).map StreamContext.videoSettingsGeneration

/-- A region that leaves the streams, their generations and the state of the sender alone. -/
structure SameStreams (s s' : IceTransportController) : Prop where
  generations : ∀ channelName, s'.generation channelName = s.generation channelName
  paused : s'.videoSendPaused = s.videoSendPaused
  running : s'.isRunning = s.isRunning

theorem SameStreams.refl (s : IceTransportController) : SameStreams s s :=
  ⟨fun _ => rfl, rfl, rfl⟩

theorem SameStreams.trans {s t u : IceTransportController} (first : SameStreams s t)
    (second : SameStreams t u) : SameStreams s u :=
  ⟨fun name => (second.generations name).trans (first.generations name),
    second.paused.trans first.paused, second.running.trans first.running⟩

theorem generation_setContext {s : IceTransportController} {channelName : String} {c d : StreamContext}
    (found : s.streamSenders.find channelName = some c) (name : String) :
    (s.setContext channelName d).generation name =
      if name = channelName then some d.videoSettingsGeneration else s.generation name := by
  unfold generation setContext
  rw [SortedMap.find_update, found]
  by_cases same : name = channelName <;> simp [same]

theorem SameStreams.setContext {s : IceTransportController} {channelName : String}
    {c d : StreamContext} (found : s.streamSenders.find channelName = some c)
    (same : d.videoSettingsGeneration = c.videoSettingsGeneration) :
    SameStreams s (s.setContext channelName d) := by
  refine ⟨fun name => ?_, rfl, rfl⟩
  rw [generation_setContext found, same]
  split
  · rename_i this
    rw [this, generation, found]
    rfl
  · rfl

theorem find_setContext {s : IceTransportController} {channelName : String} {c d : StreamContext}
    (found : s.streamSenders.find channelName = some c) :
    (s.setContext channelName d).streamSenders.find channelName = some d := by
  simp [IceTransportController.setContext, SortedMap.find_update, found]

/-! ### What the regions do to the generations -/

theorem prepareStartupKeyframe_kept (r : Resolutions) (config : MediaCodecConfig)
    (c : StreamContext) (frameBitrate nowMs : Int) (force : Bool) :
    (prepareStartupKeyframe r config c frameBitrate nowMs force).2.1.videoSettingsGeneration =
      c.videoSettingsGeneration ∧
    (force = true → (prepareStartupKeyframe r config c frameBitrate nowMs force).2.2 = true) := by
  simp only [prepareStartupKeyframe]
  split
  · split
    · exact ⟨rfl, fun _ => rfl⟩
    · split <;> exact ⟨rfl, fun _ => rfl⟩
  · split
    · exact ⟨rfl, id⟩
    · split
      · exact ⟨rfl, fun _ => rfl⟩
      · exact ⟨rfl, id⟩

theorem limitKeyframe_kept (r : Resolutions) (s : IceTransportController)
    (channelName : String) (c : StreamContext) (nowMs : Int) (force : Bool) :
    (limitKeyframe r s channelName c nowMs force).1.videoSettingsGeneration =
      c.videoSettingsGeneration ∧
    (force = true → (limitKeyframe r s channelName c nowMs force).2.1 = true) := by
  simp only [limitKeyframe]
  split
  · split
    · split
      · exact prepareStartupKeyframe_kept r _ c _ _ _
      · exact prepareStartupKeyframe_kept r _ c _ _ _
    · exact prepareStartupKeyframe_kept r _ c _ _ _
  · exact prepareStartupKeyframe_kept r _ c _ _ _

theorem changeSource_generation (c : StreamContext) (width height : Int) :
    (changeSource c width height).videoSettingsGeneration = c.videoSettingsGeneration := by
  simp only [changeSource]
  split
  · split <;> rfl
  · rfl

/-- What an admission does: it returns before it takes the request, or it posts a task of the
current generation that carries the request. -/
structure Admits (s : IceTransportController) (channelName : String) (task : EncodeTask)
    (s' : IceTransportController) : Prop where
  same : SameStreams s s'
  stream : s.generation channelName = some task.settingsGeneration
  name : task.channelName = channelName
  requests : s'.forceIFrameStreams = s.forceIFrameStreams.erase channelName
  carries : channelName ∈ s.forceIFrameStreams → task.forceIFrame = true

theorem admitFrame_admits (r : Resolutions) {s : IceTransportController} {channelName : String}
    {c : StreamContext} (found : s.streamSenders.find channelName = some c) (a : Admission) :
    Admits s channelName (admitFrame r s channelName c a).1 (admitFrame r s channelName c a).2.2 := by
  have kept : ∀ d : StreamContext, d.videoSettingsGeneration = c.videoSettingsGeneration →
      SameStreams s (({ s with
        bForceIFrame := false
        forceIFrameStreams := s.forceIFrameStreams.erase channelName } :
          IceTransportController).setContext channelName d) :=
    fun d same => ⟨(SameStreams.setContext (s := { s with
      bForceIFrame := false
      forceIFrameStreams := s.forceIFrameStreams.erase channelName }) found same).generations, rfl, rfl⟩
  have stream : ∀ g, g = c.videoSettingsGeneration → s.generation channelName = some g := by
    intro g same
    rw [generation, found, same]
    rfl
  simp only [admitFrame]
  split
  · refine ⟨kept _ ?_, stream _ ?_, rfl, rfl, ?_⟩
    · exact (limitKeyframe_kept r _ _ _ _ _).1.trans (changeSource_generation c _ _)
    · exact (limitKeyframe_kept r _ _ _ _ _).1.trans (changeSource_generation c _ _)
    · intro requested
      simp only [requested, decide_true, Bool.or_true]
      exact (limitKeyframe_kept r _ _ _ _ _).2 rfl
  · refine ⟨kept _ (changeSource_generation c _ _), stream _ (changeSource_generation c _ _), rfl, rfl, ?_⟩
    intro requested
    simp [requested]

/-- What `SendVideo` comes to: it returns before it takes a request, or it admits the frame. -/
def Sends (s : IceTransportController) (channelName : String) : Admitted × IceTransportController → Prop
  | (.refused _, s') => SameStreams s s' ∧ s'.forceIFrameStreams = s.forceIFrameStreams
  | (.posted task _, s') => Admits s channelName task s'

theorem sendVideo_sends (r : Resolutions) (s : IceTransportController) (channelName : String)
    (a : Admission) (pendingTasks : Nat) :
    Sends s channelName (sendVideo r s channelName a pendingTasks) := by
  simp only [sendVideo]
  split
  · exact ⟨.refl s, rfl⟩
  · split
    · exact ⟨.refl s, rfl⟩
    · rename_i c found
      have seen : SameStreams s (s.setContext channelName { c with lastCaptureTime := some a.nowMs }) :=
        .setContext found rfl
      split
      · exact ⟨.refl s, rfl⟩
      · split
        · exact ⟨.refl s, rfl⟩
        · split
          · exact ⟨seen, rfl⟩
          · split
            · exact ⟨seen, rfl⟩
            · split
              · exact ⟨seen, rfl⟩
              · split
                · exact ⟨seen, rfl⟩
                · split
                  · exact ⟨seen, rfl⟩
                  · obtain ⟨same, stream, name, requests, carries⟩ :=
                      admitFrame_admits r (find_setContext found) a
                    exact ⟨seen.trans same, (seen.generations _).symm.trans stream, name, requests, carries⟩

/-! ### Encoder output -/

theorem expireStartup_generation (c : StreamContext) (nowMs : Int) :
    (expireStartup c nowMs).videoSettingsGeneration = c.videoSettingsGeneration := by
  simp only [expireStartup]
  split <;> rfl

theorem acceptKeyframe_generation (c : StreamContext) :
    (acceptKeyframe c).videoSettingsGeneration = c.videoSettingsGeneration := by
  simp only [acceptKeyframe]
  split <;> rfl

theorem discardKeyframe_generation (r : Resolutions) (config : MediaCodecConfig) (c : StreamContext)
    (frame : EncodedFrame) (nowMs : Int) :
    (discardKeyframe r config c frame nowMs).videoSettingsGeneration = c.videoSettingsGeneration := by
  simp only [discardKeyframe]
  split <;> split <;> (try split) <;> rfl

/-- The check of an encoded frame keeps the streams, and requests what it says. -/
structure Checks (s : IceTransportController) (channelName : String)
    (result : Checked × IceTransportController) : Prop where
  same : SameStreams s result.2
  requests : s.forceIFrameStreams ⊆ result.2.forceIFrameStreams
  discarded : result.1 = .discarded → channelName ∈ result.2.forceIFrameStreams
  unreferenced : result.1 = .unreferenced → channelName ∈ result.2.forceIFrameStreams

theorem checkEncoded_checks (r : Resolutions) (s : IceTransportController) (channelName : String)
    (frame : EncodedFrame) (settingsGeneration : Nat) (nowMs : Int) :
    Checks s channelName (checkEncoded r s channelName frame settingsGeneration nowMs) := by
  have refused : ∀ code, Checks s channelName (.refused code, s) := fun code =>
    ⟨.refl s, Finset.Subset.refl _, by simp, by simp⟩
  have requested : ∀ {c d : StreamContext} (result : Checked),
      s.streamSenders.find channelName = some c →
      d.videoSettingsGeneration = c.videoSettingsGeneration →
      Checks s channelName (result, (s.setContext channelName d).requestChannel channelName) := by
    intro c d result found same
    have kept := SameStreams.setContext found same
    exact ⟨⟨kept.generations, rfl, rfl⟩, Finset.subset_insert _ _,
      fun _ => Finset.mem_insert_self _ _, fun _ => Finset.mem_insert_self _ _⟩
  simp only [checkEncoded]
  split
  · exact refused 0
  · split
    · exact refused (-1)
    · rename_i c found
      have expired := expireStartup_generation c nowMs
      split
      · exact refused (-1)
      · split
        · exact refused 0
        · split
          · exact requested _ found ((discardKeyframe_generation r _ _ frame nowMs).trans expired)
          · split
            · exact requested _ found expired
            · refine ⟨.setContext found ?_, Finset.Subset.refl _, by simp, by simp⟩
              split
              · exact (acceptKeyframe_generation _).trans expired
              · exact expired

/-! ### Settings -/

theorem mem_channelNames {s : IceTransportController} {name : String} :
    name ∈ s.channelNames ↔ s.generation name ≠ none := by
  simp [channelNames, generation, SortedMap.find_eq_none]

/-- The streams of one state are those of the other. -/
def SameNames (s s' : IceTransportController) : Prop :=
  ∀ name, s'.generation name = none ↔ s.generation name = none

theorem SameNames.mapValues (s : IceTransportController) (f : String → StreamContext → StreamContext) :
    SameNames s { s with streamSenders := s.streamSenders.mapValues f } := by
  intro name
  simp [generation, SortedMap.find_mapValues]

theorem SameNames.mem_channelNames {s s' : IceTransportController} (same : SameNames s s')
    {name : String} : name ∈ s'.channelNames ↔ name ∈ s.channelNames := by
  rw [IceTransportController.mem_channelNames, IceTransportController.mem_channelNames, ne_eq, ne_eq,
    same name]

/-- Pausing puts the tasks of all streams out of date, and resuming requests all streams. -/
structure Pauses (s s' : IceTransportController) (paused : Bool) : Prop where
  names : SameNames s s'
  running : s'.isRunning = s.isRunning
  before : s.videoSendPaused = !paused
  after : s'.videoSendPaused = paused
  requests : s.forceIFrameStreams ⊆ s'.forceIFrameStreams
  resumed : paused = false → ∀ name ∈ s.channelNames, name ∈ s'.forceIFrameStreams

theorem setVideoSendPaused_pauses (s : IceTransportController) (paused posted : Bool) :
    (s.setVideoSendPaused paused posted).2 = s ∨
      Pauses s (s.setVideoSendPaused paused posted).2 paused := by
  simp only [setVideoSendPaused]
  split
  · exact .inl rfl
  · split
    · exact .inl rfl
    · rename_i change
      split
      · exact .inl rfl
      · have names := SameNames.mapValues s fun _ c => { c with
          videoSettingsGeneration := c.videoSettingsGeneration + 1
          adaptation := if paused then c.adaptation else c.adaptation.resetTracking }
        refine .inr ?_
        cases paused with
        | true => exact ⟨names, rfl, by simpa using change, rfl, Finset.Subset.refl _, by simp⟩
        | false =>
          refine ⟨names, rfl, by simpa using change, rfl, Finset.subset_union_left, ?_⟩
          intro _ name member
          exact Finset.mem_union_right _ (List.mem_toFinset.mpr (names.mem_channelNames.mpr member))

/-- Another bound of the size requests all streams. -/
structure Resizes (s s' : IceTransportController) : Prop where
  names : SameNames s s'
  running : s'.isRunning = s.isRunning
  paused : s'.videoSendPaused = s.videoSendPaused
  requests : s.forceIFrameStreams ⊆ s'.forceIFrameStreams
  requested : ∀ name ∈ s.channelNames, name ∈ s'.forceIFrameStreams

theorem updateVideoResolution_resizes (s : IceTransportController) (width height : Int) :
    ((s.updateVideoResolution width height).1 ≠ 0 ∧ (s.updateVideoResolution width height).2 = s) ∨
      Resizes s (s.updateVideoResolution width height).2 := by
  simp only [updateVideoResolution]
  split
  · exact .inl ⟨by simp, rfl⟩
  · refine .inr ⟨?_, rfl, rfl, Finset.subset_union_left, ?_⟩
    · exact SameNames.mapValues s _
    · intro name member
      exact Finset.mem_union_right _ (List.mem_toFinset.mpr member)

/-- The streams that got a new encoder are requested, and the others are as before. -/
structure Installs (s s' : IceTransportController) (prepared : List PreparedEncoder) : Prop where
  names : SameNames s s'
  running : s'.isRunning = s.isRunning
  paused : s'.videoSendPaused = s.videoSendPaused
  requests : s.forceIFrameStreams ⊆ s'.forceIFrameStreams
  others : ∀ name, name ∉ prepared.map PreparedEncoder.name → s'.generation name = s.generation name
  requested : ∀ p ∈ prepared, s.generation p.name ≠ none → p.name ∈ s'.forceIFrameStreams

theorem installEncoders_installs (s : IceTransportController) (nowMs : Int)
    (prepared : List PreparedEncoder) : Installs s (s.installEncoders nowMs prepared) prepared := by
  induction prepared generalizing s with
  | nil => exact ⟨fun _ => Iff.rfl, rfl, rfl, Finset.Subset.refl _, fun _ _ => rfl, by simp⟩
  | cons p rest ih =>
    simp only [installEncoders]
    cases found : s.streamSenders.find p.name with
    | none =>
      obtain ⟨names, running, paused, requests, others, requested⟩ := ih s
      refine ⟨names, running, paused, requests, ?_, ?_⟩
      · intro name other
        exact others name fun member => other (List.mem_cons_of_mem _ member)
      · intro q member there
        rcases List.mem_cons.mp member with rfl | later
        · simp [generation, found] at there
        · exact requested q later there
    | some c =>
      obtain ⟨names, running, paused, requests, others, requested⟩ :=
        ih ((s.setContext p.name (installEncoder c p nowMs)).requestChannel p.name)
      have one : ∀ name, ((s.setContext p.name (installEncoder c p nowMs)).requestChannel
          p.name).generation name = if name = p.name then
            some (installEncoder c p nowMs).videoSettingsGeneration else s.generation name :=
        generation_setContext found
      refine ⟨?_, running, paused, (Finset.subset_insert _ _).trans requests, ?_, ?_⟩
      · intro name
        rw [names name, one]
        split
        · rename_i this
          simp [this, generation, found]
        · exact Iff.rfl
      · intro name other
        simp only [List.map_cons, List.mem_cons, not_or] at other
        rw [others name other.2, one, if_neg other.1]
      · intro q member there
        rcases List.mem_cons.mp member with rfl | later
        · exact requests (Finset.mem_insert_self _ _)
        · refine requested q later ?_
          rw [one]
          split
          · simp
          · exact there

end IceTransportController

end MiniRtc.Transport
