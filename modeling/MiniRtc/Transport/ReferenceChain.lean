import MiniRtc.Lib.Runs
import MiniRtc.Transport.EncodeQueue
import MiniRtc.Transport.SenderRegions

/-! The frames of a stream that the viewer can decode: what the check of `OnVideoEncoded` lets
through after a key frame was discarded for its size. Two fields of a stream carry the argument,
the flag that waits for a key frame and the capture time of the discarded ones. -/
namespace MiniRtc.Transport

namespace IceTransportController

def awaiting (s : IceTransportController) (channelName : String) : Bool :=
  (s.streamSenders.find channelName).any StreamContext.awaitingBudgetKeyframe

/-- No frame that was captured until then is sent any more. -/
def discardedUntil (s : IceTransportController) (channelName : String) : Int :=
  ((s.streamSenders.find channelName).map StreamContext.discardedKeyframeCaptureUs).getD 0

/-- A region that forgets neither that a stream waits nor what was discarded. -/
structure Remembers (s s' : IceTransportController) : Prop where
  awaits : ∀ name, s.awaiting name = true → s'.awaiting name = true
  until' : ∀ name, s.discardedUntil name ≤ s'.discardedUntil name

theorem Remembers.refl (s : IceTransportController) : Remembers s s :=
  ⟨fun _ => id, fun _ => le_rfl⟩

theorem Remembers.trans {s t u : IceTransportController} (first : Remembers s t)
    (second : Remembers t u) : Remembers s u :=
  ⟨fun name => second.awaits name ∘ first.awaits name,
    fun name => (first.until' name).trans (second.until' name)⟩

section SetContext

variable {s : IceTransportController} {channelName : String} {c d : StreamContext}

theorem awaiting_of_find (found : s.streamSenders.find channelName = some c) :
    s.awaiting channelName = c.awaitingBudgetKeyframe := by
  simp [awaiting, found]

theorem discardedUntil_of_find (found : s.streamSenders.find channelName = some c) :
    s.discardedUntil channelName = c.discardedKeyframeCaptureUs := by
  simp [discardedUntil, found]

theorem awaiting_setContext (found : s.streamSenders.find channelName = some c) (name : String) :
    (s.setContext channelName d).awaiting name =
      if name = channelName then d.awaitingBudgetKeyframe else s.awaiting name := by
  unfold awaiting setContext
  rw [SortedMap.find_update, found]
  by_cases same : name = channelName <;> simp [same]

theorem discardedUntil_setContext (found : s.streamSenders.find channelName = some c) (name : String) :
    (s.setContext channelName d).discardedUntil name =
      if name = channelName then d.discardedKeyframeCaptureUs else s.discardedUntil name := by
  unfold discardedUntil setContext
  rw [SortedMap.find_update, found]
  by_cases same : name = channelName <;> simp [same]

theorem Remembers.setContext (found : s.streamSenders.find channelName = some c)
    (awaits : c.awaitingBudgetKeyframe = true → d.awaitingBudgetKeyframe = true)
    (later : c.discardedKeyframeCaptureUs ≤ d.discardedKeyframeCaptureUs) :
    Remembers s (s.setContext channelName d) := by
  refine ⟨fun name => ?_, fun name => ?_⟩
  · rw [awaiting_setContext found]
    split
    · rename_i this
      rw [this, awaiting_of_find found]
      exact awaits
    · exact id
  · rw [discardedUntil_setContext found]
    split
    · rename_i this
      rw [this, discardedUntil_of_find found]
      exact later
    · exact le_rfl

end SetContext

/-- What a region does to the context of the stream that it is about. -/
structure Waits (c d : StreamContext) : Prop where
  awaits : c.awaitingBudgetKeyframe = true → d.awaitingBudgetKeyframe = true
  until' : d.discardedKeyframeCaptureUs = c.discardedKeyframeCaptureUs

theorem Waits.trans {c d e : StreamContext} (first : Waits c d) (second : Waits d e) : Waits c e :=
  ⟨second.awaits ∘ first.awaits, second.until'.trans first.until'⟩

theorem Remembers.mapValues {s s' : IceTransportController} {f : String → StreamContext → StreamContext}
    (streams : s'.streamSenders = s.streamSenders.mapValues f) (waits : ∀ name c, Waits c (f name c)) :
    Remembers s s' := by
  refine ⟨fun name now => ?_, fun name => le_of_eq ?_⟩
  · cases found : s.streamSenders.find name with
    | none => simp [awaiting, found] at now
    | some c =>
      rw [awaiting_of_find found] at now
      simpa [awaiting, streams, SortedMap.find_mapValues, found] using (waits name c).awaits now
  · cases found : s.streamSenders.find name with
    | none => simp [discardedUntil, streams, SortedMap.find_mapValues, found]
    | some c =>
      simpa [discardedUntil, streams, SortedMap.find_mapValues, found] using (waits name c).until'.symm

/-! ### Admissions -/

theorem prepareStartupKeyframe_awaits (r : Resolutions) (config : MediaCodecConfig)
    (c : StreamContext) (frameBitrate nowMs : Int) (force : Bool)
    (waits : c.awaitingBudgetKeyframe = true) :
    (prepareStartupKeyframe r config c frameBitrate nowMs force).2.1.awaitingBudgetKeyframe = true := by
  simp only [prepareStartupKeyframe, StreamContext.finishStartupKeyframe]
  split <;> split <;> (try split) <;> first | rfl | exact waits

theorem prepareStartupKeyframe_until (r : Resolutions) (config : MediaCodecConfig)
    (c : StreamContext) (frameBitrate nowMs : Int) (force : Bool) :
    (prepareStartupKeyframe r config c frameBitrate nowMs force).2.1.discardedKeyframeCaptureUs =
      c.discardedKeyframeCaptureUs := by
  simp only [prepareStartupKeyframe, StreamContext.finishStartupKeyframe]
  split <;> split <;> (try split) <;> rfl

theorem limitKeyframe_waits (r : Resolutions) (s : IceTransportController) (channelName : String)
    (c : StreamContext) (nowMs : Int) (force : Bool) :
    Waits c (limitKeyframe r s channelName c nowMs force).1 ∧
      ((limitKeyframe r s channelName c nowMs force).2.2 = true →
        (limitKeyframe r s channelName c nowMs force).1.awaitingBudgetKeyframe = true) := by
  simp only [limitKeyframe]
  split
  · split
    · split
      · exact ⟨⟨fun _ => rfl, prepareStartupKeyframe_until r _ c _ _ _⟩, fun _ => rfl⟩
      · exact ⟨⟨prepareStartupKeyframe_awaits r _ c _ _ _, prepareStartupKeyframe_until r _ c _ _ _⟩,
          by simp⟩
    · exact ⟨⟨prepareStartupKeyframe_awaits r _ c _ _ _, prepareStartupKeyframe_until r _ c _ _ _⟩,
        by simp⟩
  · exact ⟨⟨prepareStartupKeyframe_awaits r _ c _ _ _, prepareStartupKeyframe_until r _ c _ _ _⟩,
      by simp⟩

theorem changeSource_waits (c : StreamContext) (width height : Int) :
    Waits c (changeSource c width height) := by
  simp only [changeSource, StreamContext.finishStartupKeyframe]
  split
  · split <;> exact ⟨id, rfl⟩
  · exact ⟨id, rfl⟩

/-- A frame that `NoteKeyframeBudgetFailure` was called for leaves its stream waiting. -/
theorem admitFrame_remembers (r : Resolutions) {s : IceTransportController} {channelName : String}
    {c : StreamContext} (found : s.streamSenders.find channelName = some c) (a : Admission) :
    Remembers s (admitFrame r s channelName c a).2.2 ∧
      ((admitFrame r s channelName c a).2.1 = true →
        (admitFrame r s channelName c a).2.2.awaiting channelName = true) := by
  let taken : IceTransportController := { s with
    bForceIFrame := false
    forceIFrameStreams := s.forceIFrameStreams.erase channelName }
  have there : taken.streamSenders.find channelName = some c := found
  have remembers : ∀ {d : StreamContext}, Waits c d → Remembers s (taken.setContext channelName d) := by
    intro d waits
    have kept := Remembers.setContext there waits.awaits (le_of_eq waits.until'.symm)
    exact ⟨kept.awaits, kept.until'⟩
  simp only [admitFrame]
  split
  · refine ⟨remembers ((changeSource_waits c _ _).trans (limitKeyframe_waits r taken _ _ _ _).1), ?_⟩
    intro marked
    refine (awaiting_setContext there channelName).trans ?_
    rw [if_pos rfl]
    exact (limitKeyframe_waits r taken channelName _ _ _).2 marked
  · exact ⟨remembers (changeSource_waits c _ _), by simp⟩

/-- What `SendVideo` comes to for the streams that wait. -/
def Marks (s : IceTransportController) (channelName : String) :
    Admitted × IceTransportController → Prop
  | (.refused _, s') => Remembers s s'
  | (.posted _ budgetFailure, s') =>
    Remembers s s' ∧ (budgetFailure = true → s'.awaiting channelName = true)

theorem sendVideo_marks (r : Resolutions) (s : IceTransportController) (channelName : String)
    (a : Admission) (pendingTasks : Nat) :
    Marks s channelName (sendVideo r s channelName a pendingTasks) := by
  simp only [sendVideo]
  split
  · exact .refl s
  · split
    · exact .refl s
    · rename_i c found
      have seen : Remembers s (s.setContext channelName { c with lastCaptureTime := some a.nowMs }) :=
        .setContext found id le_rfl
      split
      · exact .refl s
      · split
        · exact .refl s
        · split
          · exact seen
          · split
            · exact seen
            · split
              · exact seen
              · split
                · exact seen
                · split
                  · exact seen
                  · refine ⟨seen.trans ?_, ?_⟩
                    · exact (admitFrame_remembers r (find_setContext found) a).1
                    · exact (admitFrame_remembers r (find_setContext found) a).2

/-! ### Encoder output -/

theorem expireStartup_waits (c : StreamContext) (nowMs : Int) : Waits c (expireStartup c nowMs) := by
  simp only [expireStartup, StreamContext.finishStartupKeyframe]
  split <;> exact ⟨id, rfl⟩

theorem expireStartup_awaiting (c : StreamContext) (nowMs : Int) :
    (expireStartup c nowMs).awaitingBudgetKeyframe = c.awaitingBudgetKeyframe := by
  simp only [expireStartup, StreamContext.finishStartupKeyframe]
  split <;> rfl

theorem acceptKeyframe_until (c : StreamContext) :
    (acceptKeyframe c).discardedKeyframeCaptureUs = c.discardedKeyframeCaptureUs := by
  simp only [acceptKeyframe, StreamContext.finishStartupKeyframe]
  split <;> rfl

/-- A stream whose key frame was discarded waits for the next one. -/
theorem discardKeyframe_waits (r : Resolutions) (config : MediaCodecConfig) (c : StreamContext)
    (frame : EncodedFrame) (nowMs : Int) :
    (discardKeyframe r config c frame nowMs).awaitingBudgetKeyframe = true ∧
      (discardKeyframe r config c frame nowMs).discardedKeyframeCaptureUs =
        max c.discardedKeyframeCaptureUs frame.capturedTimestamp := by
  simp only [discardKeyframe, StreamContext.finishStartupKeyframe, noteKeyframeBudgetFailure]
  split <;> split <;> (try split) <;> exact ⟨rfl, rfl⟩

/-- What the check of an encoded frame lets through, and what it remembers of the others. -/
inductive Verdict (s : IceTransportController) (channelName : String) (frame : EncodedFrame) :
    Checked → IceTransportController → Prop where
  | refused {code : Int} {s' : IceTransportController} : Remembers s s' →
      Verdict s channelName frame (.refused code) s'
  | unreferenced {s' : IceTransportController} : Remembers s s' →
      Verdict s channelName frame .unreferenced s'
  | discarded {s' : IceTransportController} : Remembers s s' → s'.awaiting channelName = true →
      frame.capturedTimestamp ≤ s'.discardedUntil channelName →
      channelName ∈ s'.forceIFrameStreams → Verdict s channelName frame .discarded s'
  | delta {budget : Nat} {s' : IceTransportController} : frame.key = false →
      s.awaiting channelName = false → Remembers s s' →
      (0 < s.discardedUntil channelName → 0 < frame.capturedTimestamp →
        s.discardedUntil channelName < frame.capturedTimestamp) →
      Verdict s channelName frame (.accepted budget) s'
  | key {budget : Nat} {s' : IceTransportController} : frame.key = true →
      (0 < budget → frame.size ≤ budget) →
      (∀ name, name ≠ channelName → s'.awaiting name = s.awaiting name) →
      (∀ name, s'.discardedUntil name = s.discardedUntil name) →
      (0 < s.discardedUntil channelName → 0 < frame.capturedTimestamp →
        s.discardedUntil channelName < frame.capturedTimestamp) →
      Verdict s channelName frame (.accepted budget) s'

theorem checkEncoded_verdict (r : Resolutions) (s : IceTransportController) (channelName : String)
    (frame : EncodedFrame) (settingsGeneration : Nat) (nowMs : Int) :
    Verdict s channelName frame (checkEncoded r s channelName frame settingsGeneration nowMs).1
      (checkEncoded r s channelName frame settingsGeneration nowMs).2 := by
  simp only [checkEncoded]
  split
  · exact .refused (.refl s)
  · split
    · exact .refused (.refl s)
    · rename_i c found
      have expired := expireStartup_waits c nowMs
      split
      · exact .refused (.refl s)
      · split
        · exact .refused (.refl s)
        · rename_i newer
          have newer : 0 < s.discardedUntil channelName → 0 < frame.capturedTimestamp →
              s.discardedUntil channelName < frame.capturedTimestamp := by
            rw [discardedUntil_of_find found]
            omega
          split
          · obtain ⟨waits, until'⟩ :=
              discardKeyframe_waits r s.mediaConfig (expireStartup c nowMs) frame nowMs
            have remembers := Remembers.setContext found (fun _ => waits)
              (by rw [until', expired.until']; exact le_max_left _ _)
            refine .discarded ⟨remembers.awaits, remembers.until'⟩ ?_ ?_ (Finset.mem_insert_self _ _)
            · exact (awaiting_setContext found channelName).trans ((if_pos rfl).trans waits)
            · refine le_of_le_of_eq ?_ (discardedUntil_setContext found channelName).symm
              rw [if_pos rfl, until']
              exact le_max_right _ _
          · rename_i fits
            have remembers := Remembers.setContext found expired.awaits (le_of_eq expired.until'.symm)
            split
            · exact .unreferenced ⟨remembers.awaits, remembers.until'⟩
            · rename_i referenced
              cases key : frame.key with
              | false =>
                refine .delta key ?_ remembers newer
                rw [awaiting_of_find found, ← expireStartup_awaiting c nowMs]
                simpa [key] using referenced
              | true =>
                refine .key key ?_ ?_ ?_ newer
                · intro positive
                  simpa [key, positive] using fits
                · intro name other
                  rw [if_pos rfl, awaiting_setContext found, if_neg other]
                · intro name
                  rw [if_pos rfl, discardedUntil_setContext found]
                  split
                  · rename_i this
                    rw [this, discardedUntil_of_find found, acceptKeyframe_until, expired.until']
                  · rfl

/-! ### Settings -/

theorem setVideoSendPaused_remembers (s : IceTransportController) (paused posted : Bool) :
    Remembers s (s.setVideoSendPaused paused posted).2 := by
  simp only [setVideoSendPaused]
  split
  · exact .refl s
  · split
    · exact .refl s
    · split
      · exact .refl s
      · have waits : ∀ (name : String) (c : StreamContext), Waits c { c with
            videoSettingsGeneration := c.videoSettingsGeneration + 1
            adaptation := if paused then c.adaptation else c.adaptation.resetTracking } :=
          fun _ _ => ⟨id, rfl⟩
        cases paused with
        | true => exact .mapValues rfl waits
        | false => exact .mapValues rfl waits

theorem updateVideoResolution_remembers (s : IceTransportController) (width height : Int) :
    Remembers s (s.updateVideoResolution width height).2 := by
  simp only [updateVideoResolution]
  split
  · exact .refl s
  · have waits : ∀ (changed : Bool) (_ : String) (c : StreamContext), Waits c (if changed then { c with
          videoSettingsGeneration := c.videoSettingsGeneration + 1
          sourceWidth := 0
          sourceHeight := 0
          targetWidth := none
          targetHeight := none }
        else c) := by
      intro changed _ c
      cases changed with
      | true => exact ⟨id, rfl⟩
      | false => exact ⟨id, rfl⟩
    exact .mapValues rfl (waits _)

/-- The streams without a new encoder are as before. -/
theorem installEncoders_others (s : IceTransportController) (nowMs : Int)
    (prepared : List PreparedEncoder) {name : String} (other : name ∉ prepared.map PreparedEncoder.name) :
    (s.installEncoders nowMs prepared).awaiting name = s.awaiting name ∧
      (s.installEncoders nowMs prepared).discardedUntil name = s.discardedUntil name := by
  induction prepared generalizing s with
  | nil => exact ⟨rfl, rfl⟩
  | cons p rest ih =>
    simp only [List.map_cons, List.mem_cons, not_or] at other
    simp only [installEncoders]
    cases found : s.streamSenders.find p.name with
    | none => exact ih s other.2
    | some c =>
      obtain ⟨awaits, until'⟩ :=
        ih ((s.setContext p.name (installEncoder c p nowMs)).requestChannel p.name) other.2
      have awaiting := awaiting_setContext found (d := installEncoder c p nowMs) name
      have discarded := discardedUntil_setContext found (d := installEncoder c p nowMs) name
      rw [if_neg other.1] at awaiting discarded
      exact ⟨awaits.trans awaiting, until'.trans discarded⟩

end IceTransportController

namespace VideoWorld
open IceTransportController

/-- A key frame of the stream was discarded, or `NoteKeyframeBudgetFailure` marked it, and since
then neither a key frame was let through nor a new encoder installed. -/
def Broken (channelName : String) : List Entry → Prop
  | [] => False
  | .discarded name _ _ :: log => name = channelName ∨ Broken channelName log
  | .marked name :: log => name = channelName ∨ Broken channelName log
  | .accepted name frame _ :: log => ¬ (name = channelName ∧ frame.key = true) ∧ Broken channelName log
  | .installed name :: log => name ≠ channelName ∧ Broken channelName log
  | _ :: log => Broken channelName log

instance decidableBroken (channelName : String) : DecidablePred (Broken channelName)
  | [] => instDecidableFalse
  | .discarded name _ _ :: log =>
    have := decidableBroken channelName log
    inferInstanceAs (Decidable (name = channelName ∨ Broken channelName log))
  | .marked name :: log =>
    have := decidableBroken channelName log
    inferInstanceAs (Decidable (name = channelName ∨ Broken channelName log))
  | .accepted name frame _ :: log =>
    have := decidableBroken channelName log
    inferInstanceAs (Decidable (¬ (name = channelName ∧ frame.key = true) ∧ Broken channelName log))
  | .installed name :: log =>
    have := decidableBroken channelName log
    inferInstanceAs (Decidable (name ≠ channelName ∧ Broken channelName log))
  | .requested _ :: log => decidableBroken channelName log
  | .forced _ :: log => decidableBroken channelName log
  | .passed _ _ :: log => decidableBroken channelName log

/-- The capture times of the key frames that the present encoder made and that were discarded. -/
def discardedCaptures (channelName : String) : List Entry → List Int
  | [] => []
  | .discarded name frame _ :: log =>
    if name = channelName then frame.capturedTimestamp :: discardedCaptures channelName log
    else discardedCaptures channelName log
  | .installed name :: log => if name = channelName then [] else discardedCaptures channelName log
  | _ :: log => discardedCaptures channelName log

/-- What holds of a frame that the check lets through, with the budget in force. -/
structure Allowed (channelName : String) (frame : EncodedFrame) (budget : Nat) (log : List Entry) :
    Prop where
  fits : frame.key = true → 0 < budget → frame.size ≤ budget
  referenced : frame.key = false → ¬ Broken channelName log
  newer : 0 < frame.capturedTimestamp →
    ∀ time ∈ discardedCaptures channelName log, time < frame.capturedTimestamp

/-- Every frame was allowed when it was checked, only such frames are passed to the transceiver,
and every discard has requested the stream. -/
def Sound : List Entry → Prop
  | [] => True
  | .accepted name frame budget :: log => Allowed name frame budget log ∧ Sound log
  | .passed name frame :: log => (∃ budget, .accepted name frame budget ∈ log) ∧ Sound log
  | .discarded _ _ requested :: log => requested = true ∧ Sound log
  | _ :: log => Sound log

/-- The same, judged when the frames are passed, and of all capture times. -/
def Unbroken : List Entry → Prop
  | [] => True
  | .passed name frame :: log =>
    (∃ budget, .accepted name frame budget ∈ log ∧
      (frame.key = true → 0 < budget → frame.size ≤ budget)) ∧
    (frame.key = false → ¬ Broken name log) ∧
    (∀ time ∈ discardedCaptures name log, time < frame.capturedTimestamp) ∧ Unbroken log
  | .discarded _ _ requested :: log => requested = true ∧ Unbroken log
  | _ :: log => Unbroken log

/-- No region of another call lies between the check of a frame and its passing, and the frames
that are passed have a capture time. -/
def Uninterrupted : List Entry → Prop
  | [] => True
  | .passed name frame :: log =>
    0 < frame.capturedTimestamp ∧ (∃ budget earlier, log = .accepted name frame budget :: earlier) ∧
      Uninterrupted log
  | _ :: log => Uninterrupted log

theorem Sound.unbroken {log : List Entry} (sound : Sound log) (direct : Uninterrupted log) :
    Unbroken log := by
  induction log with
  | nil => trivial
  | cons entry log ih =>
    cases entry with
    | passed name frame =>
      obtain ⟨known, ⟨budget, earlier, rfl⟩, direct⟩ := direct
      have allowed : Allowed name frame budget earlier := sound.2.1
      refine ⟨⟨budget, List.mem_cons_self, allowed.fits⟩, ?_, allowed.newer known, ih sound.2 direct⟩
      intro delta broken
      exact allowed.referenced delta broken.2
    | discarded name frame requested => exact ⟨sound.1, ih sound.2 direct⟩
    | accepted name frame budget => exact ih sound.2 direct
    | requested names => exact ih sound direct
    | forced name => exact ih sound direct
    | marked name => exact ih sound direct
    | installed name => exact ih sound direct

/-- The invariant: the fields of the streams know what the log knows. -/
structure Chain (s : IceTransportController) (calls : List EncodedCall) (log : List Entry) : Prop where
  awaits : ∀ name, Broken name log → s.awaiting name = true
  captures : ∀ name, ∀ time ∈ discardedCaptures name log, time ≤ s.discardedUntil name
  checked : ∀ call ∈ calls, ∃ budget, .accepted call.channelName call.frame budget ∈ log
  sound : Sound log

section Regions

variable {s s' : IceTransportController} {calls : List EncodedCall} {log : List Entry}

theorem Chain.remembers (chain : Chain s calls log) (remembers : Remembers s s') : Chain s' calls log :=
  ⟨fun name broken => remembers.awaits name (chain.awaits name broken),
    fun name time member => (chain.captures name time member).trans (remembers.until' name),
    chain.checked, chain.sound⟩

theorem Chain.request (chain : Chain s calls log) (names : List String) :
    Chain s calls (.requested names :: log) :=
  ⟨chain.awaits, chain.captures,
    fun call member => (chain.checked call member).imp fun _ => List.mem_cons_of_mem _, chain.sound⟩

theorem Chain.force (chain : Chain s calls log) (name : String) : Chain s calls (.forced name :: log) :=
  ⟨chain.awaits, chain.captures,
    fun call member => (chain.checked call member).imp fun _ => List.mem_cons_of_mem _, chain.sound⟩

theorem Chain.mark (chain : Chain s calls log) {channelName : String}
    (waits : s.awaiting channelName = true) : Chain s calls (.marked channelName :: log) := by
  refine ⟨?_, chain.captures,
    fun call member => (chain.checked call member).imp fun _ => List.mem_cons_of_mem _, chain.sound⟩
  rintro name (rfl | broken)
  · exact waits
  · exact chain.awaits name broken

/-- A key frame is discarded. -/
theorem Chain.discard (chain : Chain s calls log) {channelName : String} {frame : EncodedFrame}
    {requested : Bool} (waits : s.awaiting channelName = true)
    (until' : frame.capturedTimestamp ≤ s.discardedUntil channelName) (asked : requested = true) :
    Chain s calls (.discarded channelName frame requested :: log) := by
  refine ⟨?_, ?_, fun call member => (chain.checked call member).imp fun _ => List.mem_cons_of_mem _,
    asked, chain.sound⟩
  · rintro name (rfl | broken)
    · exact waits
    · exact chain.awaits name broken
  · intro name time member
    simp only [discardedCaptures] at member
    split at member
    · rename_i this
      rcases List.mem_cons.mp member with rfl | earlier
      · exact this ▸ until'
      · exact chain.captures name time earlier
    · exact chain.captures name time member

/-- What the check knows of a frame that it lets through is what the log says of it. -/
theorem Chain.allowed (chain : Chain s calls log) {channelName : String} {frame : EncodedFrame}
    {budget : Nat} (fits : frame.key = true → 0 < budget → frame.size ≤ budget)
    (referenced : frame.key = false → s.awaiting channelName = false)
    (newer : 0 < s.discardedUntil channelName → 0 < frame.capturedTimestamp →
      s.discardedUntil channelName < frame.capturedTimestamp) :
    Allowed channelName frame budget log := by
  refine ⟨fits, ?_, ?_⟩
  · intro delta broken
    exact Bool.false_ne_true ((referenced delta).symm.trans (chain.awaits _ broken))
  · intro known time member
    have bound := chain.captures channelName time member
    omega

/-- A frame is let through; only a key frame ends the waiting of its stream. -/
theorem Chain.accept (chain : Chain s calls log) {call : EncodedCall} {budget : Nat}
    (allowed : Allowed call.channelName call.frame budget log)
    (others : ∀ name, ¬ (name = call.channelName ∧ call.frame.key = true) → s.awaiting name = true →
      s'.awaiting name = true)
    (until' : ∀ name, s.discardedUntil name ≤ s'.discardedUntil name) :
    Chain s' (calls ++ [call]) (.accepted call.channelName call.frame budget :: log) := by
  refine ⟨?_, ?_, ?_, allowed, chain.sound⟩
  · rintro name ⟨other, broken⟩
    exact others name (fun same => other ⟨same.1.symm, same.2⟩) (chain.awaits name broken)
  · intro name time member
    exact (chain.captures name time member).trans (until' name)
  · intro other member
    rcases List.mem_append.mp member with old | new
    · exact (chain.checked other old).imp fun _ => List.mem_cons_of_mem _
    · rw [List.mem_singleton.mp new]
      exact ⟨budget, List.mem_cons_self⟩

theorem broken_installed {names : List String} {name : String} :
    Broken name (names.map Entry.installed ++ log) → name ∉ names ∧ Broken name log := by
  induction names with
  | nil => exact fun broken => ⟨List.not_mem_nil, broken⟩
  | cons other rest ih =>
    rintro ⟨differs, broken⟩
    obtain ⟨absent, broken⟩ := ih broken
    exact ⟨by simp [absent, differs.symm], broken⟩

theorem mem_discardedCaptures_installed {names : List String} {name : String} {time : Int} :
    time ∈ discardedCaptures name (names.map Entry.installed ++ log) →
      name ∉ names ∧ time ∈ discardedCaptures name log := by
  induction names with
  | nil => exact fun member => ⟨List.not_mem_nil, member⟩
  | cons other rest ih =>
    intro member
    simp only [List.map_cons, List.cons_append, discardedCaptures] at member
    split at member
    · exact absurd member List.not_mem_nil
    · rename_i differs
      obtain ⟨absent, member⟩ := ih member
      exact ⟨by simp [absent, Ne.symm differs], member⟩

theorem sound_installed {names : List String} :
    Sound (names.map Entry.installed ++ log) ↔ Sound log := by
  induction names with
  | nil => rfl
  | cons other rest ih => exact ih

/-- The streams with a new encoder start again. -/
theorem Chain.install (chain : Chain s calls log) (nowMs : Int) (prepared : List PreparedEncoder) :
    Chain (s.installEncoders nowMs prepared) calls
      ((prepared.map PreparedEncoder.name).map Entry.installed ++ log) := by
  refine ⟨?_, ?_, ?_, sound_installed.mpr chain.sound⟩
  · intro name broken
    obtain ⟨absent, broken⟩ := broken_installed broken
    rw [(installEncoders_others s nowMs prepared absent).1]
    exact chain.awaits name broken
  · intro name time member
    obtain ⟨absent, member⟩ := mem_discardedCaptures_installed member
    rw [(installEncoders_others s nowMs prepared absent).2]
    exact chain.captures name time member
  · intro call member
    exact (chain.checked call member).imp fun _ => List.mem_append_right _

end Regions

/-! ### Steps -/

variable {w : VideoWorld}

def Chained (w : VideoWorld) : Prop := Chain w.controller w.checked w.log

theorem Chained.fullIntraRequest (chained : Chained w) (channelName : String) :
    Chained (w.fullIntraRequest channelName) := by
  unfold VideoWorld.fullIntraRequest
  split
  · exact chained
  · have requested : Remembers w.controller (w.controller.requestChannel channelName) :=
      ⟨fun _ => id, fun _ => le_rfl⟩
    exact (Chain.remembers chained requested).request [channelName]

theorem Chained.sendVideo (chained : Chained w) (r : Resolutions) (channelName : String)
    (admission : Admission) : Chained (w.sendVideo r channelName admission) := by
  have marks := sendVideo_marks r w.controller channelName admission w.queue.length
  unfold VideoWorld.sendVideo
  generalize IceTransportController.sendVideo r w.controller channelName admission w.queue.length =
    result at marks ⊢
  obtain ⟨admitted, controller⟩ := result
  cases admitted with
  | refused code => exact Chain.remembers chained marks
  | posted task budgetFailure =>
    have kept : Chain controller w.checked w.log := Chain.remembers chained marks.1
    cases budgetFailure with
    | false => exact kept
    | true => exact kept.mark (marks.2 rfl)

theorem Chained.startTask (chained : Chained w) : Chained w.startTask := by
  simp only [VideoWorld.startTask]
  split
  · exact chained
  · split
    · exact chained
    · split
      · exact chained
      · split
        · exact chained
        · split <;> exact chained
    · split <;> exact chained

theorem Chained.checkReady (chained : Chained w) : Chained w.checkReady := by
  simp only [VideoWorld.checkReady]
  split
  · split
    · exact chained
    · exact Chained.fullIntraRequest (w := { w with worker := .idle }) chained _
  · exact chained

theorem Chained.forceIdr (chained : Chained w) (succeeds : Bool) : Chained (w.forceIdr succeeds) := by
  simp only [VideoWorld.forceIdr]
  split
  · split
    · exact chained
    · split
      · exact Chain.force chained _
      · exact Chain.remembers chained ⟨fun _ => id, fun _ => le_rfl⟩
  · exact chained

theorem Chained.installEncoders (chained : Chained w) (nowMs : Int) :
    Chained (w.installEncoders nowMs) := by
  simp only [VideoWorld.installEncoders]
  split
  · rename_i settings prepared _
    split
    · exact chained
    · let settled : IceTransportController := { w.controller with
        mediaConfig := { w.controller.mediaConfig with
          maxFrameRate := settings.frameRate
          videoDegradationPreference := settings.preference }
        videoQuality := settings.quality }
      have kept : Chain settled w.checked w.log :=
        Chain.remembers chained ⟨fun _ => id, fun _ => le_rfl⟩
      have installed := (kept.install nowMs prepared).request (prepared.map PreparedEncoder.name)
      rwa [List.map_map] at installed
  · exact chained

theorem Chained.enterEncoded (chained : Chained w) (call : EncodedCall) :
    Chained (w.enterEncoded call) := by
  simp only [VideoWorld.enterEncoded]
  split
  · exact chained
  · split
    · exact chained
    · exact chained.fullIntraRequest _

theorem Chained.checkEncoded (chained : Chained w) (r : Resolutions) (i : Nat) (nowMs : Int) :
    Chained (w.checkEncoded r i nowMs) := by
  simp only [VideoWorld.checkEncoded]
  split
  · exact chained
  · rename_i call _
    have verdict := checkEncoded_verdict r w.controller call.channelName call.frame
      call.settingsGeneration nowMs
    generalize IceTransportController.checkEncoded r w.controller call.channelName call.frame
      call.settingsGeneration nowMs = result at verdict ⊢
    obtain ⟨checked, controller⟩ := result
    cases verdict with
    | refused remembers => exact Chain.remembers chained remembers
    | unreferenced remembers => exact (Chain.remembers chained remembers).request _
    | discarded remembers waits until' asked =>
      exact ((Chain.remembers chained remembers).discard waits until' (decide_eq_true asked)).request _
    | delta delta referenced remembers newer =>
      refine Chain.accept chained (Chain.allowed chained ?_ (fun _ => referenced) newer)
        (fun name _ => remembers.awaits name) remembers.until'
      intro key
      exact absurd (key.symm.trans delta) (by simp)
    | key key fits others until' newer =>
      refine Chain.accept chained (Chain.allowed chained (fun _ => fits) ?_ newer) ?_
        fun name => (until' name).ge
      · intro delta
        exact absurd (key.symm.trans delta) (by simp)
      · intro name other waits
        rw [others name fun same => other ⟨same, key⟩]
        exact waits

theorem Chained.passEncoded (chained : Chained w) (i : Nat) : Chained (w.passEncoded i) := by
  simp only [VideoWorld.passEncoded]
  split
  · exact chained
  · rename_i call found
    obtain ⟨awaits, captures, checked, sound⟩ := chained
    have fewer : ∀ other ∈ w.checked.eraseIdx i, other ∈ w.checked :=
      fun _ member => (List.eraseIdx_sublist ..).subset member
    split
    · refine ⟨awaits, captures, ?_, checked call (List.mem_of_getElem? found), sound⟩
      intro other member
      exact (checked other (fewer other member)).imp fun _ => List.mem_cons_of_mem _
    · exact ⟨awaits, captures, fun other member => checked other (fewer other member), sound⟩

theorem Chained.register (chained : Chained w) (channelName : String) (ssrc : BitVec 32)
    (r : Resolutions) : Chained (w.apply r (.addVideoSendChannel channelName ssrc)) := by
  refine Chain.remembers chained ⟨fun name waits => ?_, fun name => le_of_eq ?_⟩
  · simp only [VideoWorld.apply, awaiting, SortedMap.find_emplace]
    split
    · rename_i new
      simp [awaiting, new.2, new.1] at waits
    · exact waits
  · simp only [VideoWorld.apply, discardedUntil, SortedMap.find_emplace]
    split
    · rename_i new
      simp [new.2, new.1]
    · rfl

theorem Chained.apply (chained : Chained w) (r : Resolutions) (e : VideoEvent) :
    Chained (w.apply r e) := by
  have context : ∀ {channelName : String} {c d : StreamContext},
      w.controller.streamSenders.find channelName = some c → Waits c d →
      Chained { w with controller := w.controller.setContext channelName d } := fun found waits =>
    Chain.remembers chained (.setContext found waits.awaits (le_of_eq waits.until'.symm))
  cases e with
  | addVideoSendChannel channelName ssrc => exact chained.register channelName ssrc r
  | createStreamCodec channelName codec =>
    simp only [VideoWorld.apply]
    split
    · rename_i c found
      split
      · exact context found ⟨id, rfl⟩
      · exact chained
    · exact chained
  | stop => exact Chain.remembers chained ⟨fun _ => id, fun _ => le_rfl⟩
  | setMediaTransportReady ready => exact Chain.remembers chained ⟨fun _ => id, fun _ => le_rfl⟩
  | setTransportBitrate bps => exact Chain.remembers chained ⟨fun _ => id, fun _ => le_rfl⟩
  | adapt channelName adaptation targetWidth targetHeight desiredTargetBitrate =>
    simp only [VideoWorld.apply]
    split
    · rename_i c found
      exact context found ⟨id, rfl⟩
    · exact chained
  | fullIntraRequest channelName => exact chained.fullIntraRequest channelName
  | findSsrc mediaSsrc =>
    simp only [VideoWorld.apply]
    split
    · exact chained
    · split
      · split <;> exact chained
      · exact chained
  | requestFound i =>
    simp only [VideoWorld.apply]
    split
    · exact Chained.fullIntraRequest (w := { w with found := w.found.eraseIdx i }) chained _
    · exact chained
  | requestSnapshot i =>
    simp only [VideoWorld.apply]
    split
    · rename_i channelNames _
      have remembers : Remembers w.controller (w.controller.requestAll channelNames) := by
        unfold requestAll
        split <;> exact ⟨fun _ => id, fun _ => le_rfl⟩
      exact (Chain.remembers chained remembers).request _
    · exact chained
  | sendVideo channelName admission => exact chained.sendVideo r channelName admission
  | startTask => exact chained.startTask
  | checkReady => exact chained.checkReady
  | prepareFrame materializes scales =>
    simp only [VideoWorld.apply, VideoWorld.prepareFrame]
    split
    · split <;> exact chained
    · exact chained
  | forceIdr succeeds => exact chained.forceIdr succeeds
  | createEncoders created =>
    simp only [VideoWorld.apply, VideoWorld.createEncoders]
    split
    · split <;> exact chained
    · exact chained
    · exact chained
  | installEncoders nowMs => exact chained.installEncoders nowMs
  | enterEncoded call => exact chained.enterEncoded call
  | checkEncoded i nowMs => exact chained.checkEncoded r i nowMs
  | passEncoded i => exact chained.passEncoded i
  | setVideoSendPaused paused posted =>
    have kept : Chain (w.controller.setVideoSendPaused paused posted).2 w.checked w.log :=
      Chain.remembers chained (setVideoSendPaused_remembers w.controller paused posted)
    simp only [VideoWorld.apply]
    split
    · exact kept.request _
    · exact kept
  | updateVideoResolution width height =>
    have kept : Chain (w.controller.updateVideoResolution width height).2 w.checked w.log :=
      Chain.remembers chained (updateVideoResolution_remembers w.controller width height)
    simp only [VideoWorld.apply]
    split
    · exact kept.request _
    · exact kept
  | updateVideoSettings settings =>
    simp only [VideoWorld.apply]
    split <;> exact chained

/-- In every state of every run the frames that were let through are those that the viewer can
decode, and only they were passed on. Without interruptions that holds when they are passed. -/
theorem reference_chain (r : Resolutions) {w : VideoWorld}
    (reachable : Runs.Reachable Created (Runs.Steps fun w e w' => w.apply r e = w') w) :
    Sound w.log ∧ (Uninterrupted w.log → Unbroken w.log) := by
  have chained : Chained w := by
    refine @Runs.Reachable.invariant _ _ _ Chained ?_ ?_ _ reachable
    · rintro w ⟨mediaConfig, videoQuality, rfl⟩
      exact ⟨by simp [Broken], by simp [discardedCaptures], by simp, trivial⟩
    · rintro w w' chained ⟨e, _, rfl⟩
      exact chained.apply r e
  exact ⟨chained.sound, chained.sound.unbroken⟩

section Concrete

def screen : MediaCodecConfig := { videoContentType := .screenContent }

/-- The first frame is admitted, which sets the budget to 2250 bytes. -/
def admitted : List VideoEvent :=
  [.addVideoSendChannel "screen" 7, .createStreamCodec "screen" { id := 1 },
    .setMediaTransportReady true, .setTransportBitrate 100000,
    .sendVideo "screen" { frame := { width := 640, height := 480 } },
    .startTask, .checkReady, .prepareFrame true true, .forceIdr true]

def encoded (frame : EncodedFrame) : List VideoEvent :=
  [.enterEncoded ⟨"screen", frame, 0⟩, .checkEncoded 0 0, .passEncoded 0]

def keyFrame (size : Nat) (capturedTimestamp : Int) : EncodedFrame := { key := true, size, capturedTimestamp }

def deltaFrame (capturedTimestamp : Int) : EncodedFrame := { key := false, size := 100, capturedTimestamp }

/-- A key frame is too large, the next one fits. -/
theorem reference_chain_recovered :
    let w := run plainSizes { controller := { mediaConfig := screen } }
      (admitted ++ encoded (keyFrame 3000 5) ++ encoded (deltaFrame 6) ++ encoded (keyFrame 900 7))
    Sound w.log ∧ (Uninterrupted w.log → Unbroken w.log) :=
  reference_chain plainSizes (.foldl _ (.start ⟨screen, 0, rfl⟩))

/-- The key frame that is discarded has no capture time, and neither has the frame after it. -/
def unknownTimes : List VideoEvent :=
  admitted ++ encoded (keyFrame 3000 (-1)) ++ [.enterEncoded ⟨"screen", keyFrame 900 (-2), 0⟩,
    .checkEncoded 0 0]

/-- `SendVideo` marks the stream while a frame is between its check and its passing. -/
def markedBetween : List VideoEvent :=
  admitted ++ encoded (keyFrame 900 5) ++ [.enterEncoded ⟨"screen", deltaFrame 6, 0⟩,
    .checkEncoded 0 0, .setTransportBitrate 50000, .fullIntraRequest "screen",
    .sendVideo "screen" { frame := { width := 640, height := 480 } }]

/-- A frame from before the discarded one is passed, and so is a frame of a marked stream. -/
theorem passes_late :
    let start : VideoWorld := { controller := { mediaConfig := screen } }
    ¬ Unbroken (run plainSizes start (unknownTimes ++ [.passEncoded 0])).log ∧
      ¬ Unbroken (run plainSizes start (markedBetween ++ [.passEncoded 0])).log := by
  intro start
  have early : (run plainSizes start (unknownTimes ++ [.passEncoded 0])).log =
      .passed "screen" (keyFrame 900 (-2)) :: (run plainSizes start unknownTimes).log := by decide
  have marked : (run plainSizes start (markedBetween ++ [.passEncoded 0])).log =
      .passed "screen" (deltaFrame 6) :: (run plainSizes start markedBetween).log := by decide
  rw [early, marked]
  constructor
  · rintro ⟨_, _, newer, _⟩
    exact absurd (newer (-1) (by decide)) (by decide)
  · rintro ⟨_, referenced, _, _⟩
    exact absurd (by decide : Broken "screen" (run plainSizes start markedBetween).log) (referenced rfl)

end Concrete

end VideoWorld

end MiniRtc.Transport
