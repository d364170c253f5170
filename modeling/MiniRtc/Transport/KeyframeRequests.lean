import MiniRtc.Lib.Runs
import MiniRtc.Transport.EncodeQueue
import MiniRtc.Transport.SenderRegions

/-! A request for a key frame is kept until the encoder is told of it: in the set of the
requested streams, or by a task of the encode queue that is not out of date. A task that has to
give up on its frame after it was found to be current is the one place where a request is lost. -/
namespace MiniRtc.Transport.VideoWorld
open IceTransportController

/-- A stream was requested, and no `ForceIdr` on its encoder has succeeded since. -/
def Pending (channelName : String) : List Entry → Prop
  | [] => False
  | .requested channelNames :: log => channelName ∈ channelNames ∨ Pending channelName log
  | .forced name :: log => name ≠ channelName ∧ Pending channelName log
  | _ :: log => Pending channelName log

instance decidablePending (channelName : String) : DecidablePred (Pending channelName)
  | [] => instDecidableFalse
  | .requested names :: log =>
    have := decidablePending channelName log
    inferInstanceAs (Decidable (channelName ∈ names ∨ Pending channelName log))
  | .forced name :: log =>
    have := decidablePending channelName log
    inferInstanceAs (Decidable (name ≠ channelName ∧ Pending channelName log))
  | .marked _ :: log => decidablePending channelName log
  | .discarded _ _ _ :: log => decidablePending channelName log
  | .accepted _ _ _ :: log => decidablePending channelName log
  | .passed _ _ :: log => decidablePending channelName log
  | .installed _ :: log => decidablePending channelName log

def taskOf : QueuedTask → Option EncodeTask
  | .encode task => some task
  | .updateVideoSettings _ => none

def workerTask : Worker → Option EncodeTask
  | .current task => some task
  | .ready task => some task
  | .prepared task => some task
  | _ => none

/-- The frames on their way: with the worker, or waiting in the queue. -/
def tasks (w : VideoWorld) : List EncodeTask :=
  (workerTask w.worker).toList ++ w.queue.filterMap taskOf

/-- A task of the current generation carries the request. -/
def Carried (s : IceTransportController) (tasks : List EncodeTask) (channelName : String) : Prop :=
  ∃ task ∈ tasks, task.channelName = channelName ∧ task.forceIFrame = true ∧
    s.generation channelName = some task.settingsGeneration

instance (s : IceTransportController) (tasks : List EncodeTask) (channelName : String) :
    Decidable (Carried s tasks channelName) := inferInstanceAs (Decidable (∃ _ ∈ _, _))

/-- The request is in the set, stands for all streams, or is with a task. -/
def Kept (w : VideoWorld) (channelName : String) : Prop :=
  channelName ∈ w.controller.forceIFrameStreams ∨ w.controller.bForceIFrame = true ∨
    Carried w.controller w.tasks channelName

instance (w : VideoWorld) (channelName : String) : Decidable (Kept w channelName) :=
  inferInstanceAs (Decidable (_ ∨ _ ∨ _))

/-- The request is in the set or with a task. -/
def Held (s : IceTransportController) (tasks : List EncodeTask) (channelName : String) : Prop :=
  channelName ∈ s.forceIFrameStreams ∨ Carried s tasks channelName

/-- The invariant. A stream that is not there yet has its request in the set; while sending is
paused nothing is said of the streams, as they are requested again at the end of the pause. -/
structure Keeps (s : IceTransportController) (tasks : List EncodeTask) (log : List Entry) : Prop where
  named : ∀ name, s.generation name ≠ none → name ≠ ""
  tasksNamed : ∀ task ∈ tasks, task.channelName ≠ ""
  absent : ∀ name, s.generation name = none → Pending name log → name ∈ s.forceIFrameStreams
  present : ∀ name, s.generation name ≠ none → s.isRunning = true → s.videoSendPaused = false →
    Pending name log → Held s tasks name

section Regions

variable {s s' : IceTransportController} {before after : List EncodeTask} {log later : List Entry}

/-- A region that keeps the streams, and drops neither a request nor a task. -/
theorem Keeps.same (keeps : Keeps s before log) (same : SameStreams s s')
    (requests : s.forceIFrameStreams ⊆ s'.forceIFrameStreams)
    (tasks : ∀ task, task ∈ before ↔ task ∈ after)
    (pending : ∀ name, Pending name later → Pending name log ∨ name ∈ s'.forceIFrameStreams) :
    Keeps s' after later := by
  obtain ⟨named, tasksNamed, absent, present⟩ := keeps
  refine ⟨?_, ?_, ?_, ?_⟩
  · intro name there
    exact named name (same.generations name ▸ there)
  · intro task member
    exact tasksNamed task ((tasks task).mpr member)
  · intro name none asked
    rcases pending name asked with old | inSet
    · exact requests (absent name (same.generations name ▸ none) old)
    · exact inSet
  · intro name there running paused asked
    rcases pending name asked with old | inSet
    · rcases present name (same.generations name ▸ there) (same.running ▸ running)
        (same.paused ▸ paused) old with inSet | ⟨task, member, carries⟩
      · exact .inl (requests inSet)
      · exact .inr ⟨task, (tasks task).mp member, by rwa [same.generations]⟩
    · exact .inl inSet

/-- A region that may put tasks out of date, but then has requested every stream. -/
theorem Keeps.renew (keeps : Keeps s before log) (names : SameNames s s')
    (requests : s.forceIFrameStreams ⊆ s'.forceIFrameStreams)
    (requested : s'.videoSendPaused = false → ∀ name ∈ s.channelNames, name ∈ s'.forceIFrameStreams)
    (pending : ∀ name, Pending name later → Pending name log ∨ name ∈ s'.forceIFrameStreams) :
    Keeps s' before later := by
  obtain ⟨named, tasksNamed, absent, present⟩ := keeps
  refine ⟨?_, tasksNamed, ?_, ?_⟩
  · intro name there
    exact named name (mt (names name).mpr there)
  · intro name none asked
    rcases pending name asked with old | inSet
    · exact requests (absent name ((names name).mp none) old)
    · exact inSet
  · intro name there _ active _
    exact .inl (requested active name (mem_channelNames.mpr (mt (names name).mpr there)))

/-- A task comes to its end. -/
theorem Keeps.drop {task : EncodeTask} (keeps : Keeps s (task :: after) log)
    (elsewhere : s.isRunning = true → s.videoSendPaused = false → task.forceIFrame = true →
      s.generation task.channelName = some task.settingsGeneration →
      Pending task.channelName log → Held s after task.channelName) : Keeps s after log := by
  obtain ⟨named, tasksNamed, absent, present⟩ := keeps
  refine ⟨named, fun other member => tasksNamed other (List.mem_cons_of_mem _ member), absent, ?_⟩
  intro name there running paused asked
  rcases present name there running paused asked with inSet | ⟨other, member, rfl, force, current⟩
  · exact .inl inSet
  · rcases List.mem_cons.mp member with rfl | remains
    · exact elsewhere running paused force current asked
    · exact .inr ⟨other, remains, rfl, force, current⟩

/-- A frame is admitted, and takes the request of its stream along. -/
theorem Keeps.admit {channelName : String} {task : EncodeTask} (keeps : Keeps s before log)
    (admits : Admits s channelName task s')
    (pending : ∀ name, Pending name later → Pending name log) : Keeps s' (before ++ [task]) later := by
  obtain ⟨named, tasksNamed, absent, present⟩ := keeps
  obtain ⟨same, stream, rfl, requests, carries⟩ := admits
  have kept : ∀ name, name ≠ task.channelName → name ∈ s.forceIFrameStreams →
      name ∈ s'.forceIFrameStreams := by
    intro name other inSet
    rw [requests]
    exact Finset.mem_erase.mpr ⟨other, inSet⟩
  refine ⟨?_, ?_, ?_, ?_⟩
  · intro name there
    exact named name (same.generations name ▸ there)
  · intro other member
    rcases List.mem_append.mp member with old | new
    · exact tasksNamed other old
    · rw [List.mem_singleton.mp new]
      exact named _ (by simp [stream])
  · intro name none asked
    rw [same.generations] at none
    refine kept name ?_ (absent name none (pending name asked))
    rintro rfl
    simp [stream] at none
  · intro name there running paused asked
    rcases present name (same.generations name ▸ there) (same.running ▸ running)
      (same.paused ▸ paused) (pending name asked) with inSet | ⟨other, member, named, force, current⟩
    · by_cases mine : name = task.channelName
      · refine .inr ⟨task, by simp, mine.symm, carries (mine ▸ inSet), ?_⟩
        rw [same.generations, mine, stream]
      · exact .inl (kept name mine inSet)
    · exact .inr ⟨other, List.mem_append_left _ member, named, force, by rwa [same.generations]⟩

/-- New encoders put the tasks of their streams out of date, and the streams are requested. -/
theorem Keeps.install {prepared : List PreparedEncoder} (keeps : Keeps s before log)
    (installs : Installs s s' prepared) (there : ∀ p ∈ prepared, s.generation p.name ≠ none)
    (pending : ∀ name, Pending name later →
      Pending name log ∨ name ∈ prepared.map PreparedEncoder.name) : Keeps s' before later := by
  obtain ⟨named, tasksNamed, absent, present⟩ := keeps
  obtain ⟨names, running, paused, requests, others, requested⟩ := installs
  have fresh : ∀ name ∈ prepared.map PreparedEncoder.name, name ∈ s'.forceIFrameStreams := by
    intro name member
    obtain ⟨p, inPrepared, rfl⟩ := List.mem_map.mp member
    exact requested p inPrepared (there p inPrepared)
  refine ⟨?_, tasksNamed, ?_, ?_⟩
  · intro name registered
    exact named name (mt (names name).mpr registered)
  · intro name none asked
    rcases pending name asked with old | inPrepared
    · exact requests (absent name ((names name).mp none) old)
    · exact fresh name inPrepared
  · intro name registered isRunning active asked
    by_cases inPrepared : name ∈ prepared.map PreparedEncoder.name
    · exact .inl (fresh name inPrepared)
    · have old := (pending name asked).resolve_right inPrepared
      rcases present name (mt (names name).mpr registered) (running ▸ isRunning) (paused ▸ active) old
        with inSet | ⟨task, member, carries⟩
      · exact .inl (requests inSet)
      · exact .inr ⟨task, member, by rwa [others name inPrepared]⟩

end Regions

/-! ### Steps -/

/-- A stream is registered under a name, and no task that alone carries the request of its stream
gives up on its frame. -/
def Unlost (w : VideoWorld) : VideoEvent → Prop
  | .addVideoSendChannel channelName _ => channelName ≠ ""
  | .prepareFrame materializes scales => ∀ task, w.worker = .ready task →
      w.frameReady task materializes scales = false → task.forceIFrame = true →
      Pending task.channelName w.log →
      Held w.controller (w.queue.filterMap taskOf) task.channelName
  | _ => True

variable {w : VideoWorld}

/-- The condition says no more than it has to: where it fails, the request is lost. -/
theorem lost_of_not_unlost {materializes scales : Bool} (alone : w.controller.bForceIFrame = false)
    (lost : ¬ Unlost w (.prepareFrame materializes scales)) :
    ∃ task, w.worker = .ready task ∧ Pending task.channelName w.log ∧
      ¬ Kept (w.prepareFrame materializes scales) task.channelName := by
  simp only [Unlost, not_forall] at lost
  obtain ⟨task, worker, fails, _, asked, unheld⟩ := lost
  refine ⟨task, worker, asked, ?_⟩
  have after : w.prepareFrame materializes scales = { w with worker := .idle } := by
    simp [VideoWorld.prepareFrame, worker, fails]
  rw [after]
  rintro (inSet | all | carried)
  · exact unheld (.inl inSet)
  · exact Bool.false_ne_true (alone.symm.trans all)
  · exact unheld (.inr carried)

/-- The invariant of a whole state. -/
def Retains (w : VideoWorld) : Prop := Keeps w.controller w.tasks w.log

theorem pending_request {names : List String} {log : List Entry} {name : String}
    {requests : Finset String} (inSet : ∀ other ∈ names, other ∈ requests) :
    Pending name (.requested names :: log) → Pending name log ∨ name ∈ requests := by
  rintro (asked | old)
  · exact .inr (inSet name asked)
  · exact .inl old

theorem Retains.fullIntraRequest (retains : Retains w) (channelName : String) :
    Retains (w.fullIntraRequest channelName) := by
  unfold VideoWorld.fullIntraRequest
  split
  · exact retains
  · refine Keeps.same retains ⟨fun _ => rfl, rfl, rfl⟩ (Finset.subset_insert _ _) (fun _ => Iff.rfl) ?_
    intro name
    exact pending_request fun other member => by
      rw [List.mem_singleton.mp member]
      exact Finset.mem_insert_self _ _

theorem Retains.sendVideo (retains : Retains w) (r : Resolutions) (channelName : String)
    (admission : Admission) : Retains (w.sendVideo r channelName admission) := by
  have sends := sendVideo_sends r w.controller channelName admission w.queue.length
  unfold VideoWorld.sendVideo
  generalize IceTransportController.sendVideo r w.controller channelName admission w.queue.length =
    result at sends ⊢
  obtain ⟨admitted, controller⟩ := result
  cases admitted with
  | refused code =>
    obtain ⟨same, requests⟩ := sends
    exact Keeps.same retains same (requests ▸ Finset.Subset.refl _) (fun _ => Iff.rfl)
      fun _ asked => .inl asked
  | posted task budgetFailure =>
    have asks : ∀ name, Pending name (if budgetFailure then .marked channelName :: w.log else w.log) →
        Pending name w.log := by
      intro name asked
      split at asked
      · exact asked
      · exact asked
    have posted := Keeps.admit retains sends asks
    simpa [Retains, tasks, taskOf, List.filterMap_append, List.append_assoc] using posted

theorem Retains.startTask (retains : Retains w) : Retains w.startTask := by
  simp only [VideoWorld.startTask]
  split
  · exact retains
  · rename_i idle
    have worker : w.worker = .idle := not_not.mp idle
    split
    · exact retains
    · rename_i task queue waiting
      have all : w.tasks = task :: queue.filterMap taskOf := by
        rw [tasks, worker, waiting]
        rfl
      have keeps : Keeps w.controller (task :: queue.filterMap taskOf) w.log := all ▸ retains
      have gone : ∀ elsewhere, Retains { w with queue } := fun elsewhere => by
        have dropped := keeps.drop elsewhere
        simpa [Retains, tasks, worker, workerTask] using dropped
      split
      · rename_i stopped
        refine gone fun running active => ?_
        rcases stopped with halted | paused
        · simp [running] at halted
        · simp [active] at paused
      · split
        · rename_i missing
          refine gone fun _ _ _ current => ?_
          simp [generation, missing] at current
        · rename_i c found
          split
          · rename_i outdated
            refine gone fun _ _ _ current => ?_
            simp [generation, found] at current
            exact absurd current outdated
          · simpa [Retains, tasks, workerTask] using keeps
    · rename_i settings queue waiting
      have all : w.tasks = queue.filterMap taskOf := by
        rw [tasks, worker, waiting]
        rfl
      have keeps : Keeps w.controller (queue.filterMap taskOf) w.log := all ▸ retains
      split
      · simpa [Retains, tasks, worker, workerTask] using keeps
      · simpa [Retains, tasks, workerTask] using keeps

/-- The frame of the worker is the first of those on their way. -/
theorem Retains.working {task : EncodeTask} (retains : Retains w) (worker : workerTask w.worker = some task) :
    Keeps w.controller (task :: w.queue.filterMap taskOf) w.log := by
  have all : w.tasks = task :: w.queue.filterMap taskOf := by
    rw [tasks, worker]
    rfl
  exact all ▸ retains

theorem Retains.checkReady (retains : Retains w) : Retains w.checkReady := by
  simp only [VideoWorld.checkReady]
  split
  · rename_i task worker
    have keeps := retains.working (show workerTask w.worker = some task by rw [worker]; rfl)
    split
    · exact keeps
    · have named : task.channelName ≠ "" := keeps.tasksNamed task List.mem_cons_self
      unfold VideoWorld.fullIntraRequest
      rw [if_neg named]
      have requested : Keeps (w.controller.requestChannel task.channelName) (task :: w.queue.filterMap taskOf)
          (.requested [task.channelName] :: w.log) := Keeps.same keeps ⟨fun _ => rfl, rfl, rfl⟩
        (Finset.subset_insert _ _) (fun _ => Iff.rfl) fun name => pending_request fun other member => by
          rw [List.mem_singleton.mp member]
          exact Finset.mem_insert_self _ _
      exact requested.drop fun _ _ _ _ _ => .inl (Finset.mem_insert_self _ _)
  · exact retains

theorem Retains.prepareFrame (retains : Retains w) (materializes scales : Bool)
    (unlost : Unlost w (.prepareFrame materializes scales)) :
    Retains (w.prepareFrame materializes scales) := by
  simp only [VideoWorld.prepareFrame]
  split
  · rename_i task worker
    have keeps := retains.working (show workerTask w.worker = some task by rw [worker]; rfl)
    split
    · exact keeps
    · rename_i fails
      exact keeps.drop fun _ _ force _ asked =>
        unlost task worker (Bool.not_eq_true _ ▸ fails) force asked
  · exact retains

theorem Retains.forceIdr (retains : Retains w) (succeeds : Bool) : Retains (w.forceIdr succeeds) := by
  simp only [VideoWorld.forceIdr]
  split
  · rename_i task worker
    have keeps := retains.working (show workerTask w.worker = some task by rw [worker]; rfl)
    split
    · rename_i plain
      exact keeps.drop fun _ _ force => absurd force (by simp [plain])
    · split
      · -- From now on the request of the stream is fulfilled.
        have fulfilled : Keeps w.controller (task :: w.queue.filterMap taskOf)
            (.forced task.channelName :: w.log) :=
          Keeps.same keeps (.refl _) (Finset.Subset.refl _) (fun _ => Iff.rfl) fun _ asked => .inl asked.2
        exact fulfilled.drop fun _ _ _ _ asked => absurd rfl asked.1
      · have restored : Keeps (w.controller.requestChannel task.channelName) (task :: w.queue.filterMap taskOf)
            w.log :=
          Keeps.same keeps ⟨fun _ => rfl, rfl, rfl⟩ (Finset.subset_insert _ _) (fun _ => Iff.rfl)
            fun _ asked => .inl asked
        exact restored.drop fun _ _ _ _ _ => .inl (Finset.mem_insert_self _ _)
  · exact retains

theorem Retains.createEncoders (retains : Retains w) (created : Option (List PreparedEncoder)) :
    Retains (w.createEncoders created) := by
  have idle : ∀ {worker : Worker}, workerTask w.worker = none → workerTask worker = none →
      Retains { w with worker } := by
    intro worker now next
    have keeps : Keeps w.controller ((workerTask w.worker).toList ++ w.queue.filterMap taskOf) w.log :=
      retains
    rw [now] at keeps
    show Keeps w.controller ((workerTask worker).toList ++ w.queue.filterMap taskOf) w.log
    rwa [next]
  simp only [VideoWorld.createEncoders]
  split
  · rename_i worker
    split
    · exact idle (by rw [worker]; rfl) rfl
    · exact retains
  · rename_i worker
    exact idle (by rw [worker]; rfl) rfl
  · exact retains

theorem pending_installed {names : List String} {log : List Entry} {name : String} :
    Pending name (names.map Entry.installed ++ log) ↔ Pending name log := by
  induction names with
  | nil => rfl
  | cons other rest ih => exact ih

theorem Retains.installEncoders (retains : Retains w) (nowMs : Int) :
    Retains (w.installEncoders nowMs) := by
  simp only [VideoWorld.installEncoders]
  split
  · rename_i settings prepared worker
    have all : w.tasks = w.queue.filterMap taskOf := by
      rw [tasks, worker]
      rfl
    have keeps : Keeps w.controller (w.queue.filterMap taskOf) w.log := all ▸ retains
    split
    · exact keeps
    · rename_i going
      simp only [not_or, Bool.not_eq_false] at going
      let settled : IceTransportController := { w.controller with
        mediaConfig := { w.controller.mediaConfig with
          maxFrameRate := settings.frameRate
          videoDegradationPreference := settings.preference }
        videoQuality := settings.quality }
      have keeps : Keeps settled (w.queue.filterMap taskOf) w.log :=
        Keeps.same keeps ⟨fun _ => rfl, rfl, rfl⟩ (Finset.Subset.refl _) (fun _ => Iff.rfl)
          fun _ asked => .inl asked
      have installs := installEncoders_installs settled nowMs prepared
      refine Keeps.install keeps installs ?_ ?_
      · intro p member
        have still := List.all_eq_true.mp going.2 p member
        cases found : w.controller.streamSenders.find p.name with
        | none => simp [found] at still
        | some c =>
          rw [show settled.generation p.name = some c.videoSettingsGeneration by
            simp [settled, generation, found]]
          exact Option.some_ne_none _
      · rintro name (asked | installed)
        · exact .inr asked
        · rw [show prepared.map (fun p => Entry.installed p.name) =
            (prepared.map PreparedEncoder.name).map Entry.installed by simp] at installed
          exact .inl (pending_installed.mp installed)
  · exact retains

theorem Retains.enterEncoded (retains : Retains w) (call : EncodedCall) :
    Retains (w.enterEncoded call) := by
  simp only [VideoWorld.enterEncoded]
  split
  · exact retains
  · split
    · exact retains
    · exact retains.fullIntraRequest _

theorem Retains.checkEncoded (retains : Retains w) (r : Resolutions) (i : Nat) (nowMs : Int) :
    Retains (w.checkEncoded r i nowMs) := by
  simp only [VideoWorld.checkEncoded]
  split
  · exact retains
  · rename_i call _
    have checks := checkEncoded_checks r w.controller call.channelName call.frame
      call.settingsGeneration nowMs
    generalize IceTransportController.checkEncoded r w.controller call.channelName call.frame
      call.settingsGeneration nowMs = result at checks ⊢
    obtain ⟨verdict, controller⟩ := result
    obtain ⟨same, requests, discarded, unreferenced⟩ := checks
    have quiet : ∀ {later : List Entry}, (∀ name, Pending name later → Pending name w.log ∨
        name ∈ controller.forceIFrameStreams) → Keeps controller w.tasks later :=
      fun pending => Keeps.same retains same requests (fun _ => Iff.rfl) pending
    cases verdict with
    | refused code => exact quiet fun _ asked => .inl asked
    | unreferenced =>
      refine quiet fun name => pending_request fun other member => ?_
      rw [List.mem_singleton.mp member]
      exact unreferenced rfl
    | discarded =>
      refine quiet fun name asked => ?_
      have requests : Pending name w.log ∨ name ∈ controller.forceIFrameStreams :=
        pending_request (fun other member => by
          rw [List.mem_singleton.mp member]
          exact discarded rfl) asked
      exact requests
    | accepted budget => exact quiet fun _ asked => .inl asked

theorem Retains.passEncoded (retains : Retains w) (i : Nat) : Retains (w.passEncoded i) := by
  simp only [VideoWorld.passEncoded]
  split
  · exact retains
  · split
    · exact Keeps.same retains (.refl _) (Finset.Subset.refl _) (fun _ => Iff.rfl) fun _ asked => .inl asked
    · exact retains

theorem Retains.register (retains : Retains w) {channelName : String} (named : channelName ≠ "")
    (ssrc : BitVec 32) (r : Resolutions) :
    Retains (w.apply r (.addVideoSendChannel channelName ssrc)) := by
  obtain ⟨names, tasksNamed, absent, present⟩ := retains
  have registered : ∀ name, name ≠ channelName ∨ w.controller.generation channelName ≠ none →
      (w.apply r (.addVideoSendChannel channelName ssrc)).controller.generation name =
        w.controller.generation name := by
    intro name other
    have old : ¬ (w.controller.streamSenders.find channelName = none ∧ name = channelName) := by
      rintro ⟨missing, rfl⟩
      rcases other with differs | there
      · exact differs rfl
      · exact there (by rw [generation, missing]; rfl)
    simp only [apply, generation, SortedMap.find_emplace, if_neg old]
  refine ⟨?_, tasksNamed, ?_, ?_⟩
  · intro name there
    by_cases mine : name = channelName
    · exact mine ▸ named
    · exact names name (registered name (.inl mine) ▸ there)
  · intro name missing asked
    by_cases mine : name = channelName ∧ w.controller.generation channelName = none
    · exact absent name (mine.1 ▸ mine.2) asked
    · refine absent name ?_ asked
      rw [← registered name (by tauto)]
      exact missing
  · intro name there running active asked
    by_cases mine : name = channelName ∧ w.controller.generation channelName = none
    · exact .inl (absent name (mine.1 ▸ mine.2) asked)
    · have same := registered name (by tauto)
      rcases present name (same ▸ there) running active asked with inSet | ⟨task, member, rest⟩
      · exact .inl inSet
      · exact .inr ⟨task, member, rest.1, rest.2.1, same.trans rest.2.2⟩

theorem Retains.apply (retains : Retains w) (r : Resolutions) (e : VideoEvent) (unlost : Unlost w e) :
    Retains (w.apply r e) := by
  have context : ∀ {channelName : String} {c d : StreamContext},
      w.controller.streamSenders.find channelName = some c →
      d.videoSettingsGeneration = c.videoSettingsGeneration →
      Retains { w with controller := w.controller.setContext channelName d } := fun found same =>
    Keeps.same retains (.setContext found same) (Finset.Subset.refl _) (fun _ => Iff.rfl)
      fun _ asked => .inl asked
  cases e with
  | addVideoSendChannel channelName ssrc => exact retains.register unlost ssrc r
  | createStreamCodec channelName codec =>
    simp only [VideoWorld.apply]
    split
    · rename_i c found
      split
      · exact context found rfl
      · exact retains
    · exact retains
  | stop =>
    obtain ⟨names, tasksNamed, absent, present⟩ := retains
    refine ⟨names, tasksNamed, absent, fun _ _ running => ?_⟩
    simp only [VideoWorld.apply] at running
    exact absurd running Bool.false_ne_true
  | setMediaTransportReady ready =>
    exact Keeps.same retains ⟨fun _ => rfl, rfl, rfl⟩ (Finset.Subset.refl _) (fun _ => Iff.rfl)
      fun _ asked => .inl asked
  | setTransportBitrate bps =>
    exact Keeps.same retains ⟨fun _ => rfl, rfl, rfl⟩ (Finset.Subset.refl _) (fun _ => Iff.rfl)
      fun _ asked => .inl asked
  | adapt channelName adaptation targetWidth targetHeight desiredTargetBitrate =>
    simp only [VideoWorld.apply]
    split
    · rename_i c found
      exact context found rfl
    · exact retains
  | fullIntraRequest channelName => exact retains.fullIntraRequest channelName
  | findSsrc mediaSsrc =>
    simp only [VideoWorld.apply]
    split
    · exact retains
    · split
      · split <;> exact retains
      · exact retains
  | requestFound i =>
    simp only [VideoWorld.apply]
    split
    · exact Retains.fullIntraRequest (w := { w with found := w.found.eraseIdx i }) retains _
    · exact retains
  | requestSnapshot i =>
    simp only [VideoWorld.apply]
    split
    · rename_i channelNames _
      have requests : w.controller.forceIFrameStreams ⊆
          (w.controller.requestAll channelNames).forceIFrameStreams := by
        unfold requestAll
        split
        · exact Finset.Subset.refl _
        · exact Finset.subset_union_left
      have same : SameStreams w.controller (w.controller.requestAll channelNames) := by
        unfold requestAll
        split <;> exact ⟨fun _ => rfl, rfl, rfl⟩
      refine Keeps.same retains same requests (fun _ => Iff.rfl) fun name =>
        pending_request fun other member => ?_
      rw [requestAll, if_neg (List.ne_nil_of_mem member)]
      exact Finset.mem_union_right _ (List.mem_toFinset.mpr member)
    · exact retains
  | sendVideo channelName admission => exact retains.sendVideo r channelName admission
  | startTask => exact retains.startTask
  | checkReady => exact retains.checkReady
  | prepareFrame materializes scales => exact retains.prepareFrame materializes scales unlost
  | forceIdr succeeds => exact retains.forceIdr succeeds
  | createEncoders created => exact retains.createEncoders created
  | installEncoders nowMs => exact retains.installEncoders nowMs
  | enterEncoded call => exact retains.enterEncoded call
  | checkEncoded i nowMs => exact retains.checkEncoded r i nowMs
  | passEncoded i => exact retains.passEncoded i
  | setVideoSendPaused paused posted =>
    simp only [VideoWorld.apply]
    rcases setVideoSendPaused_pauses w.controller paused posted with unchanged | pauses
    · rw [unchanged]
      simpa using retains
    · obtain ⟨names, running, before, after, requests, resumed⟩ := pauses
      refine Keeps.renew retains names requests (fun active => resumed (after ▸ active)) fun name asked => ?_
      cases paused with
      | true => exact .inl (by simpa [before, after] using asked)
      | false =>
        simp only [before, after] at asked
        exact pending_request (resumed rfl) asked
  | updateVideoResolution width height =>
    simp only [VideoWorld.apply]
    rcases updateVideoResolution_resizes w.controller width height with ⟨refused, unchanged⟩ | resizes
    · rw [unchanged, if_neg refused]
      exact retains
    · obtain ⟨names, running, paused, requests, requested⟩ := resizes
      refine Keeps.renew retains names requests (fun _ => requested) fun name asked => ?_
      split at asked
      · exact pending_request requested asked
      · exact .inl asked
  | updateVideoSettings settings =>
    simp only [VideoWorld.apply]
    split
    · exact retains
    · have noTask : [QueuedTask.updateVideoSettings settings].filterMap taskOf = [] := rfl
      simpa [Retains, tasks, noTask] using retains

/-- In every state of every run in which no task loses the request that it alone carries, the
request of every stream that is running and not paused is kept. -/
theorem requests_kept (r : Resolutions) {w : VideoWorld} (reachable : Runs.Reachable Created
      (Runs.Guarded Unlost fun w e w' => w.apply r e = w') w) {channelName : String}
    (registered : w.controller.streamSenders.find channelName ≠ none)
    (running : w.controller.isRunning = true) (active : w.controller.videoSendPaused = false)
    (pending : Pending channelName w.log) : Kept w channelName := by
  have retains : Retains w := by
    refine @Runs.Reachable.invariant _ _ _ Retains ?_ ?_ _ reachable
    · rintro w ⟨mediaConfig, videoQuality, rfl⟩
      refine ⟨?_, by simp [tasks, workerTask], by simp [Pending], by simp [Pending]⟩
      intro name there
      exact absurd rfl there
    · rintro w w' retains ⟨e, unlost, rfl⟩
      exact retains.apply r e unlost
  have there : w.controller.generation channelName ≠ none := by
    simpa [generation] using registered
  rcases retains.present channelName there running active pending with inSet | carried
  · exact .inl inSet
  · exact .inr (.inr carried)

/-- The run goes on by a step that meets the condition. -/
theorem reaches {r : Resolutions} (reachable : Runs.Reachable Created
      (Runs.Guarded Unlost fun w e w' => w.apply r e = w') w) (e : VideoEvent) (unlost : Unlost w e) :
    Runs.Reachable Created (Runs.Guarded Unlost fun w e w' => w.apply r e = w') (w.apply r e) :=
  reachable.next ⟨e, unlost, rfl⟩

section Concrete

/-- The encoder of the stream does not take the native buffer of the frame. -/
def requestTaken : List VideoEvent :=
  [.addVideoSendChannel "screen" 7, .createStreamCodec "screen" { id := 1 },
    .setMediaTransportReady true, .fullIntraRequest "screen",
    .sendVideo "screen" { frame := { width := 640, height := 480, native := some 1 } },
    .startTask, .checkReady]

/-- The frame is prepared, so that the request waits for its `ForceIdr`. -/
theorem requests_kept_prepared :
    Kept (run plainSizes {} (requestTaken ++ [.prepareFrame true true])) "screen" := by
  have new : Runs.Reachable Created (Runs.Guarded Unlost fun w e w' => w.apply plainSizes e = w') {} :=
    .start ⟨{}, 0, rfl⟩
  have stream := reaches new (.addVideoSendChannel "screen" 7) (by simp [Unlost])
  have codec := reaches stream (.createStreamCodec "screen" { id := 1 }) trivial
  have ready := reaches codec (.setMediaTransportReady true) trivial
  have asked := reaches ready (.fullIntraRequest "screen") trivial
  have sent := reaches asked (.sendVideo "screen"
    { frame := { width := 640, height := 480, native := some 1 } }) trivial
  have taken := reaches (reaches sent .startTask trivial) .checkReady trivial
  have prepared := reaches taken (.prepareFrame true true) (by
    rintro task worker fails
    cases worker
    exact absurd fails (by decide))
  exact requests_kept plainSizes prepared (by decide) rfl rfl (by decide)

/-- `MaterializeNativeFrame` fails, and nothing asks for a key frame of the stream any more. -/
theorem request_lost :
    let w := run plainSizes {} (requestTaken ++ [.prepareFrame false true])
    w.controller.streamSenders.find "screen" ≠ none ∧ w.controller.isRunning = true ∧
      w.controller.videoSendPaused = false ∧ Pending "screen" w.log ∧ ¬ Kept w "screen" := by
  decide

end Concrete

end MiniRtc.Transport.VideoWorld
