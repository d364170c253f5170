import MiniRtc.Lib.Runs
import MiniRtc.Transport.VideoSender

/-! The target bitrates of the video encoders in `IceTransportController`. An allocation asks for
an update, the worker of the encode queue makes it, and a change of settings replaces the encoder.
An event is one region of `stream_senders_mutex_`, or a post between two of them; the controller
is running and the queue accepts tasks. A call of the codec goes with the region after it. -/
namespace MiniRtc.Transport.BitrateUpdates

inductive StreamType where
  | video
  | audio
  | data
deriving DecidableEq, Repr

def initBitrate : Int := 1000000

/-- An encoder, with the rate it was created with and the last one that was set. -/
structure Codec where
  id : Nat
  initBitrate : Int
  targetBitrate : Option Int := none
deriving DecidableEq, Repr

def Codec.rate (codec : Codec) : Int := codec.targetBitrate.getD codec.initBitrate

/-- The codecs are counted, so that each one gets an id of its own. -/
structure StreamContext where
  type : StreamType
  codec : Option Codec := none
  codecs : Nat := 0
  lastActiveTime : Option Int := none
  lastCaptureTime : Option Int := none
  mediaBitrateBps : Int := 0
  desiredTargetBitrate : Option Int := none
  appliedTargetBitrate : Option Int := none
  bitrateUpdateQueued : Bool := false
deriving DecidableEq, Repr

/-- The task of an update, for the codec its stream had. -/
structure BitrateTask where
  channelName : String
  codec : Nat
deriving DecidableEq, Repr

inductive QueuedTask where
  | bitrate (task : BitrateTask)
  | settings (settings : VideoSettings)
deriving DecidableEq, Repr

/-- An encoder that a change of settings replaces, and the rate of the new one. -/
structure PreparedEncoder where
  name : String
  previous : Nat
  initBitrate : Int
deriving DecidableEq, Repr

/-- How far the worker of the encode queue has come with a task. -/
inductive Worker where
  | idle
  | applying (task : BitrateTask) (targetBitrate : Int)
  | reposting (task : BitrateTask)
  | creating (settings : VideoSettings) (encoders : List PreparedEncoder)
deriving DecidableEq, Repr

/-- Each call has the tasks that it has still to post. -/
structure World where
  settings : VideoSettings
  streamSenders : SortedMap String StreamContext := SortedMap.empty
  calls : List (List QueuedTask) := []
  queue : List QueuedTask := []
  worker : Worker := .idle

inductive Event where
  | addSendChannel (channelName : String) (type : StreamType)
  | createStreamCodecs (initBitrate : Int) (creates : String → Bool)
  | report (channelName : String) (lastActiveTime lastCaptureTime : Option Int)
      (mediaBitrateBps : Int)
  | updateVideoBitrateAllocation (nowMs : Int)
  | updateVideoSettings (settings : VideoSettings)
  | post (i : Nat)
  | startTask
  | setTargetBitrate (result : Int)
  | postFollowup
  | createEncoders (created : Bool)

namespace StreamContext

def kActiveStreamTimeoutMs : Int := 100

def isActive (nowMs : Int) (c : StreamContext) : Bool :=
  c.lastActiveTime.any (fun time => nowMs - time < kActiveStreamTimeoutMs) ||
    c.type = .video && c.lastCaptureTime.any fun time => nowMs - time < kActiveStreamTimeoutMs

def activeVideo (nowMs : Int) (c : StreamContext) : Bool :=
  c.isActive nowMs && c.type = .video && c.codec.isSome

/-- `media_bitrate_bps` as an `int`. -/
def perVideoBitrate (c : StreamContext) : Int := c.mediaBitrateBps.bmod (2 ^ 32)

/-- One stream of an allocation, and whether it needs a task. -/
def allocate (nowMs : Int) (c : StreamContext) : StreamContext × Bool :=
  if c.activeVideo nowMs = false then (c, false)
  else
    let perVideoBitrate := c.perVideoBitrate
    let c := { c with desiredTargetBitrate := some perVideoBitrate }
    if perVideoBitrate ≤ 0 then (c, false)
    else if c.bitrateUpdateQueued then (c, false)
    else if c.appliedTargetBitrate = some perVideoBitrate then (c, false)
    else ({ c with bitrateUpdateQueued := true }, true)

def allocationTask (nowMs : Int) (channelName : String) (c : StreamContext) : Option QueuedTask :=
  if (c.allocate nowMs).2 then c.codec.map fun codec => .bitrate ⟨channelName, codec.id⟩ else none

def withCodec (initBitrate : Int) (c : StreamContext) : StreamContext :=
  { c with codec := some { id := c.codecs, initBitrate }, codecs := c.codecs + 1 }

def needsCodec (c : StreamContext) : Bool := c.type = .video && c.codec.isNone

def createCodec (initBitrate : Int) (c : StreamContext) : StreamContext :=
  { c.withCodec initBitrate with
    desiredTargetBitrate := none
    appliedTargetBitrate := none
    bitrateUpdateQueued := false }

def prepare (name : String) (c : StreamContext) : Option PreparedEncoder :=
  if c.type = .video then
    c.codec.map fun codec => ⟨name, codec.id, c.appliedTargetBitrate.getD initBitrate⟩
  else none

/-- The codec of a change of settings is installed. -/
def install (encoder : PreparedEncoder) (c : StreamContext) : StreamContext :=
  { c.withCodec encoder.initBitrate with bitrateUpdateQueued := false }

/-- The rate is on the codec, and noted in the context. -/
def applied (targetBitrate : Int) (c : StreamContext) : StreamContext :=
  { c with
    codec := c.codec.map fun codec => { codec with targetBitrate := some targetBitrate }
    appliedTargetBitrate := some targetBitrate }

/-- Another rate than the one that was set asks for a follow-up. -/
def finish (targetBitrate : Int) (c : StreamContext) : StreamContext × Bool :=
  if c.desiredTargetBitrate.isSome ∧ c.desiredTargetBitrate ≠ some targetBitrate then (c, true)
  else ({ c with bitrateUpdateQueued := false }, false)

/-- The region after `SetTargetBitrate`. -/
def setTargetBitrate (targetBitrate result : Int) (c : StreamContext) : StreamContext × Bool :=
  (if result = 0 then c.applied targetBitrate else c).finish targetBitrate

end StreamContext

namespace World

def addSendChannel (w : World) (channelName : String) (type : StreamType) : World :=
  if (w.streamSenders.find channelName).isSome then w
  else { w with streamSenders := w.streamSenders.emplace channelName { type } }

/-- The streams without a codec get one in the order of the map, until one is not created. -/
def createStreamCodecs (w : World) (initBitrate : Int) (creates : String → Bool) : World :=
  { w with
    streamSenders := w.streamSenders.mapValues fun name c =>
      if c.needsCodec && w.streamSenders.entries.all fun e =>
          name < e.1 || !e.2.needsCodec || creates e.1
      then c.createCodec initBitrate else c }

def report (w : World) (channelName : String) (lastActiveTime lastCaptureTime : Option Int)
    (mediaBitrateBps : Int) : World :=
  match w.streamSenders.find channelName with
  | none => w
  | some c =>
    { w with
      streamSenders := w.streamSenders.update channelName
        { c with lastActiveTime, lastCaptureTime, mediaBitrateBps } }

def updateVideoBitrateAllocation (w : World) (nowMs : Int) : World :=
  let activeVideoCount := w.streamSenders.entries.countP fun e => e.2.activeVideo nowMs
  if activeVideoCount = 0 then w
  else
    { w with
      streamSenders := w.streamSenders.mapValues fun _ c => (c.allocate nowMs).1
      calls := w.calls ++
        [w.streamSenders.entries.filterMap fun e => e.2.allocationTask nowMs e.1] }

def updateVideoSettings (w : World) (settings : VideoSettings) : World :=
  if w.settings = settings then w else { w with calls := w.calls ++ [[.settings settings]] }

/-- The first region of `ApplyVideoBitrateUpdateOnEncodeQueue`. -/
def startUpdate (w : World) (task : BitrateTask) : World :=
  match w.streamSenders.find task.channelName with
  | none => w
  | some c =>
    if c.codec.map Codec.id ≠ some task.codec then w
    else
      let done := { w with
        streamSenders := w.streamSenders.update task.channelName
          { c with bitrateUpdateQueued := false } }
      match c.desiredTargetBitrate with
      | none => done
      | some targetBitrate =>
        if targetBitrate ≤ 0 then done
        else if c.appliedTargetBitrate = some targetBitrate then done
        else { w with worker := .applying task targetBitrate }

/-- The first region of a change of settings. -/
def startSettings (w : World) (settings : VideoSettings) : World :=
  if w.settings = settings then w
  else
    { w with
      worker := .creating settings (w.streamSenders.entries.filterMap fun e => e.2.prepare e.1) }

/-- The call of the codec, and the second region of `ApplyVideoBitrateUpdateOnEncodeQueue`. -/
def setTargetBitrate (w : World) (task : BitrateTask) (targetBitrate result : Int) : World :=
  match w.streamSenders.find task.channelName with
  | none => { w with worker := .idle }
  | some c =>
    if c.codec.map Codec.id ≠ some task.codec then { w with worker := .idle }
    else
      let updated := c.setTargetBitrate targetBitrate result
      { w with
        streamSenders := w.streamSenders.update task.channelName updated.1
        worker := if updated.2 then .reposting task else .idle }

/-- The codec of a stream is still the one that a prepared encoder replaces. -/
def unchanged (w : World) (encoder : PreparedEncoder) : Bool :=
  ((w.streamSenders.find encoder.name).bind fun c => c.codec.map Codec.id) = some encoder.previous

/-- The second region of a change of settings. -/
def installEncoders (w : World) (settings : VideoSettings) (encoders : List PreparedEncoder) :
    World :=
  if encoders.all w.unchanged then
    { w with
      settings
      streamSenders := w.streamSenders.mapValues fun name c =>
        match encoders.find? fun encoder => encoder.name = name with
        | none => c
        | some encoder => c.install encoder
      worker := .idle }
  else { w with worker := .idle }

def step (w : World) : Event → Option World
  | .addSendChannel channelName type => some (w.addSendChannel channelName type)
  | .createStreamCodecs initBitrate creates => some (w.createStreamCodecs initBitrate creates)
  | .report channelName lastActiveTime lastCaptureTime mediaBitrateBps =>
    some (w.report channelName lastActiveTime lastCaptureTime mediaBitrateBps)
  | .updateVideoBitrateAllocation nowMs => some (w.updateVideoBitrateAllocation nowMs)
  | .updateVideoSettings settings => some (w.updateVideoSettings settings)
  | .post i =>
    match w.calls[i]? with
    | some (task :: rest) => some { w with calls := w.calls.set i rest, queue := w.queue ++ [task] }
    | _ => none
  | .startTask =>
    match w.worker, w.queue with
    | .idle, .bitrate task :: rest => some ({ w with queue := rest }.startUpdate task)
    | .idle, .settings settings :: rest => some ({ w with queue := rest }.startSettings settings)
    | _, _ => none
  | .setTargetBitrate result =>
    match w.worker with
    | .applying task targetBitrate => some (w.setTargetBitrate task targetBitrate result)
    | _ => none
  | .postFollowup =>
    match w.worker with
    | .reposting task => some { w with queue := w.queue ++ [.bitrate task], worker := .idle }
    | _ => none
  | .createEncoders created =>
    match w.worker with
    | .creating settings encoders =>
      some (if created then w.installEncoders settings encoders else { w with worker := .idle })
    | _ => none

/-- The task that the worker executes in a step. -/
def executed (w : World) : Event → Option BitrateTask
  | .startTask =>
    match w.queue with
    | .bitrate task :: _ => some task
    | _ => none
  | .setTargetBitrate _ =>
    match w.worker with
    | .applying task _ => some task
    | _ => none
  | .postFollowup =>
    match w.worker with
    | .reposting task => some task
    | _ => none
  | _ => none

end World

/-- The task that is running. -/
def Worker.tasks : Worker → List QueuedTask
  | .applying task _ | .reposting task => [.bitrate task]
  | _ => []

/-- The tasks that are about to be posted, queued or running. -/
def World.tasks (w : World) : List QueuedTask := w.calls.flatten ++ w.queue ++ w.worker.tasks

def World.inFlight (w : World) (task : BitrateTask) : Nat := w.tasks.count (.bitrate task)

/-- A stream and its tasks. A codec whose id is still to come has none, a replaced one may. -/
structure Consistent (count : Nat → Nat) (c : StreamContext) : Prop where
  flight : ∀ codec ∈ c.codec, count codec.id = if c.bitrateUpdateQueued then 1 else 0
  idle : c.codec = none → c.bitrateUpdateQueued = false
  numbered : ∀ codec ∈ c.codec, codec.id < c.codecs
  fresh : ∀ id, c.codecs ≤ id → count id = 0
  rate : ∀ rate ∈ c.appliedTargetBitrate, ∃ codec ∈ c.codec, codec.rate = rate

/-- An allocation sets the rate that is asked for, and for some streams the flag. -/
theorem StreamContext.allocate_cases (nowMs : Int) (c : StreamContext) :
    (∃ desired, c.allocate nowMs = ({ c with desiredTargetBitrate := desired }, false)) ∨
      c.bitrateUpdateQueued = false ∧ c.codec.isSome = true ∧ ∃ desired, c.allocate nowMs =
        ({ c with desiredTargetBitrate := desired, bitrateUpdateQueued := true }, true) := by
  unfold allocate
  split
  · exact .inl ⟨_, rfl⟩
  rename_i active
  simp only
  split
  · exact .inl ⟨_, rfl⟩
  split
  · exact .inl ⟨_, rfl⟩
  rename_i queued
  split
  · exact .inl ⟨_, rfl⟩
  · refine .inr ⟨Bool.eq_false_of_not_eq_true queued, ?_, _, rfl⟩
    simp only [activeVideo, Bool.not_eq_false, Bool.and_eq_true] at active
    exact active.2

namespace Consistent
open BitrateUpdates.StreamContext

variable {count count' : Nat → Nat} {c c' : StreamContext}

/-- The codec and its rate stay, the flag follows the tasks. -/
theorem keep (consistent : Consistent count c)
    (same : c'.codec = c.codec ∧ c'.codecs = c.codecs ∧
      c'.appliedTargetBitrate = c.appliedTargetBitrate)
    (flight : ∀ codec ∈ c.codec, count' codec.id = if c'.bitrateUpdateQueued then 1 else 0)
    (idle : c.codec = none → c'.bitrateUpdateQueued = false)
    (fresh : ∀ id, c.codecs ≤ id → count' id = 0) : Consistent count' c' := by
  obtain ⟨codec, codecs, applied⟩ := same
  constructor
  · rwa [codec]
  · rwa [codec]
  · rw [codec, codecs]
    exact consistent.numbered
  · rwa [codecs]
  · rw [codec, applied]
    exact consistent.rate

theorem added (type : StreamType) (absent : ∀ id, count id = 0) : Consistent count { type } where
  flight := by simp
  idle _ := rfl
  numbered := by simp
  fresh id _ := absent id
  rate := by simp

theorem createCodec (bitrate : Int) (consistent : Consistent count c) :
    Consistent count (c.createCodec bitrate) where
  flight codec mem := by
    cases mem
    exact consistent.fresh _ le_rfl
  idle := by simp [StreamContext.createCodec, withCodec]
  numbered codec mem := by
    cases mem
    exact Nat.lt_succ_self _
  fresh id new := consistent.fresh id (Nat.le_of_succ_le new)
  rate := by simp [StreamContext.createCodec]

/-- A task of an allocation comes with the flag. -/
theorem allocate (nowMs : Int) (channelName : String) (consistent : Consistent count c)
    (posted : ∀ id, count' id = count id +
      if c.allocationTask nowMs channelName = some (.bitrate ⟨channelName, id⟩) then 1 else 0) :
    Consistent count' (c.allocate nowMs).1 := by
  obtain ⟨desired, same⟩ | ⟨unqueued, filled, desired, asked⟩ := c.allocate_cases nowMs
  · have unposted : c.allocationTask nowMs channelName = none := by
      rw [allocationTask, same, if_neg (by simp)]
    have kept (id : Nat) : count' id = count id := by simpa [unposted] using posted id
    rw [same, funext kept]
    exact consistent.keep ⟨rfl, rfl, rfl⟩ consistent.flight consistent.idle consistent.fresh
  · obtain ⟨codec, current⟩ := Option.isSome_iff_exists.mp filled
    have task : c.allocationTask nowMs channelName = some (.bitrate ⟨channelName, codec.id⟩) := by
      rw [allocationTask, asked, if_pos rfl, current, Option.map_some]
    have counted (id : Nat) : count' id = count id + if codec.id = id then 1 else 0 := by
      simpa [task] using posted id
    rw [asked]
    refine consistent.keep ⟨rfl, rfl, rfl⟩ ?_ ?_ ?_
    · intro other mem
      have first := consistent.flight other mem
      rw [unqueued] at first
      cases current.symm.trans mem
      simp [counted, first]
    · intro bare
      cases current.symm.trans bare
    · intro id new
      have less := consistent.numbered codec current
      rw [counted, consistent.fresh id new, if_neg (by omega)]

/-- The new codec has the rate that was applied to the old one. -/
theorem install {encoder : PreparedEncoder} (consistent : Consistent count c)
    (kept : encoder.initBitrate = c.appliedTargetBitrate.getD initBitrate) :
    Consistent count (c.install encoder) where
  flight codec mem := by
    cases mem
    exact consistent.fresh _ le_rfl
  idle := by simp [StreamContext.install]
  numbered codec mem := by
    cases mem
    exact Nat.lt_succ_self _
  fresh id new := consistent.fresh id (Nat.le_of_succ_le new)
  rate rate mem := by
    refine ⟨_, rfl, ?_⟩
    have applied : c.appliedTargetBitrate = some rate := mem
    simp [Codec.rate, kept, applied]

theorem applied {codec : Codec} {targetBitrate : Int} (consistent : Consistent count c)
    (current : c.codec = some codec) :
    Consistent count (c.applied targetBitrate) where
  flight other mem := by
    simp only [StreamContext.applied, current, Option.map_some] at mem
    cases mem
    exact consistent.flight codec current
  idle bare := by simp [StreamContext.applied, current] at bare
  numbered other mem := by
    simp only [StreamContext.applied, current, Option.map_some] at mem
    cases mem
    exact consistent.numbered codec current
  fresh := consistent.fresh
  rate rate mem := by
    cases mem
    refine ⟨{ codec with targetBitrate := some targetBitrate }, ?_, rfl⟩
    simp [StreamContext.applied, current]

/-- When the call of the codec is over, the flag stays for the follow-up only. -/
theorem setTargetBitrate {codec : Codec} {targetBitrate result : Int}
    (consistent : Consistent count c) (current : c.codec = some codec)
    (queued : c.bitrateUpdateQueued = true)
    (others : ∀ id, id ≠ codec.id → count' id = count id)
    (left : count' codec.id = if (c.setTargetBitrate targetBitrate result).2 then 1 else 0) :
    Consistent count' (c.setTargetBitrate targetBitrate result).1 := by
  have old := consistent.numbered codec current
  have fresh (id : Nat) (new : c.codecs ≤ id) : count' id = 0 := by
    rw [others id (by omega)]
    exact consistent.fresh id new
  have flag {d : StreamContext} {more : Bool} (there : Consistent count d)
      (same : d.codec.map Codec.id = some codec.id ∧ d.codecs = c.codecs)
      (left : count' codec.id = if more then 1 else 0) :
      Consistent count' { d with bitrateUpdateQueued := more } := by
    obtain ⟨found, isSome, id⟩ := Option.map_eq_some_iff.mp same.1
    refine there.keep ⟨rfl, rfl, rfl⟩ ?_ ?_ (fun id new => fresh id (same.2 ▸ new))
    · intro other mem
      cases isSome.symm.trans mem
      rw [id]
      exact left
    · intro bare
      cases isSome.symm.trans bare
  have ended {d : StreamContext} (there : Consistent count d)
      (same : d.codec.map Codec.id = some codec.id ∧ d.codecs = c.codecs)
      (still : d.bitrateUpdateQueued = true)
      (left : count' codec.id = if (d.finish targetBitrate).2 then 1 else 0) :
      Consistent count' (d.finish targetBitrate).1 := by
    unfold finish at left ⊢
    split
    · rename_i more
      rw [if_pos more] at left
      have whole := flag there same left
      rwa [← still] at whole
    · rename_i done
      rw [if_neg done] at left
      exact flag there same left
  unfold StreamContext.setTargetBitrate at left ⊢
  split
  · rename_i succeeded
    rw [if_pos succeeded] at left
    exact ended (consistent.applied current) ⟨by simp [StreamContext.applied, current], rfl⟩ queued left
  · rename_i failed
    rw [if_neg failed] at left
    exact ended consistent ⟨by simp [current], rfl⟩ queued left

end Consistent

def Worker.encoders : Worker → List PreparedEncoder
  | .creating _ encoders => encoders
  | _ => []

namespace World

/-- Every stream has the tasks its flag says, and a prepared encoder has the rate of the codec that
it replaces. -/
structure Invariant (w : World) : Prop where
  streams : ∀ channelName c, w.streamSenders.find channelName = some c →
    Consistent (fun id => w.inFlight ⟨channelName, id⟩) c
  absent : ∀ channelName, w.streamSenders.find channelName = none →
    ∀ id, w.inFlight ⟨channelName, id⟩ = 0
  encoders : ∀ encoder ∈ w.worker.encoders, ∃ c, w.streamSenders.find encoder.name = some c ∧
    c.codec.map Codec.id = some encoder.previous ∧
    encoder.initBitrate = c.appliedTargetBitrate.getD initBitrate

variable {w w' : World}

theorem inFlight_eq (task : BitrateTask) : w.inFlight task =
    w.calls.flatten.count (.bitrate task) + w.queue.count (.bitrate task) +
      w.worker.tasks.count (.bitrate task) := by
  rw [inFlight, tasks, List.count_append, List.count_append]

theorem count_posted {calls : List (List QueuedTask)} {i : Nat} {task : QueuedTask}
    {rest : List QueuedTask} (next : calls[i]? = some (task :: rest)) (other : QueuedTask) :
    (calls.set i rest).flatten.count other + [task].count other = calls.flatten.count other := by
  induction calls generalizing i with
  | nil => cases next
  | cons call calls ih =>
    cases i with
    | zero =>
      cases next
      simp only [List.set_cons_zero, List.flatten_cons, List.cons_append, List.count_cons,
        List.count_nil]
      omega
    | succ i =>
      have later := ih (i := i) next
      simp only [List.set_cons_succ, List.flatten_cons, List.count_append]
      omega

theorem allocationTask_name {nowMs : Int} {channelName : String} {c : StreamContext}
    {task : QueuedTask} (asked : c.allocationTask nowMs channelName = some task) :
    ∃ codec, task = .bitrate ⟨channelName, codec⟩ := by
  unfold StreamContext.allocationTask at asked
  split at asked
  · obtain ⟨codec, -, same⟩ := Option.map_eq_some_iff.mp asked
    exact ⟨codec.id, same.symm⟩
  · cases asked

/-- Of one allocation every stream has at most one task. -/
theorem count_allocationTasks (senders : SortedMap String StreamContext) (nowMs : Int)
    (task : BitrateTask) :
    (senders.entries.filterMap fun e => e.2.allocationTask nowMs e.1).count (.bitrate task) =
      if ((senders.find task.channelName).bind fun c =>
        c.allocationTask nowMs task.channelName) = some (.bitrate task) then 1 else 0 := by
  have member : .bitrate task ∈ senders.entries.filterMap
      (fun e => e.2.allocationTask nowMs e.1) ↔
      ((senders.find task.channelName).bind fun c =>
        c.allocationTask nowMs task.channelName) = some (.bitrate task) := by
    rw [List.mem_filterMap, Option.bind_eq_some_iff]
    constructor
    · rintro ⟨⟨name, c⟩, there, asked⟩
      obtain ⟨codec, same⟩ := allocationTask_name asked
      cases same
      exact ⟨c, SortedMap.find_eq_some.mpr there, asked⟩
    · rintro ⟨c, found, asked⟩
      exact ⟨(task.channelName, c), SortedMap.find_eq_some.mp found, asked⟩
  have distinct : (senders.entries.filterMap fun e => e.2.allocationTask nowMs e.1).Nodup := by
    rw [List.Nodup, List.pairwise_filterMap]
    refine senders.sorted.imp fun {e d} less a asked b again same => ?_
    subst same
    obtain ⟨first, left⟩ := allocationTask_name asked
    obtain ⟨second, right⟩ := allocationTask_name again
    have names := left.symm.trans right
    simp only [QueuedTask.bitrate.injEq, BitrateTask.mk.injEq] at names
    exact less.ne names.1
  rw [distinct.count, if_congr member rfl rfl]

namespace Invariant

theorem start (settings : VideoSettings) : Invariant { settings } where
  streams _ _ found := by simp [SortedMap.find, SortedMap.empty] at found
  absent _ _ _ := rfl
  encoders _ mem := by cases mem

/-- The encoders of the worker stay prepared while their streams keep the codec and its rate. -/
theorem encoders_keep (invariant : w.Invariant) (same : w'.worker = w.worker)
    (kept : ∀ channelName c, w.streamSenders.find channelName = some c → c.codec.isSome = true →
      ∃ c', w'.streamSenders.find channelName = some c' ∧
        c'.codec.map Codec.id = c.codec.map Codec.id ∧
        c'.appliedTargetBitrate = c.appliedTargetBitrate) :
    ∀ encoder ∈ w'.worker.encoders, ∃ c, w'.streamSenders.find encoder.name = some c ∧
      c.codec.map Codec.id = some encoder.previous ∧
      encoder.initBitrate = c.appliedTargetBitrate.getD initBitrate := by
  intro encoder mem
  rw [same] at mem
  obtain ⟨c, found, previous, rate⟩ := invariant.encoders encoder mem
  obtain ⟨codec, current, -⟩ := Option.map_eq_some_iff.mp previous
  obtain ⟨c', found', codec', applied⟩ := kept _ c found (by rw [current]; rfl)
  exact ⟨c', found', codec'.trans previous, applied ▸ rate⟩

theorem addSendChannel (invariant : w.Invariant) (channelName : String) (type : StreamType) :
    (w.addSendChannel channelName type).Invariant := by
  unfold World.addSendChannel
  split
  · exact invariant
  rename_i missing
  simp only [Bool.not_eq_true, Option.isSome_eq_false_iff, Option.isNone_iff_eq_none] at missing
  constructor
  · intro name c found
    rw [SortedMap.find_emplace] at found
    split at found
    · rename_i new
      cases found
      rw [new.2]
      exact Consistent.added type (invariant.absent _ missing)
    · exact invariant.streams name c found
  · intro name none
    rw [SortedMap.find_emplace] at none
    split at none
    · cases none
    · exact invariant.absent name none
  · refine invariant.encoders_keep rfl fun name c found _ => ⟨c, ?_, rfl, rfl⟩
    rw [SortedMap.find_emplace, if_neg]
    · exact found
    · rintro ⟨-, rfl⟩
      cases missing.symm.trans found

theorem createStreamCodecs (invariant : w.Invariant) (bitrate : Int) (creates : String → Bool) :
    (w.createStreamCodecs bitrate creates).Invariant := by
  constructor
  · intro name c found
    rw [World.createStreamCodecs, SortedMap.find_mapValues] at found
    obtain ⟨c, there, rfl⟩ := Option.map_eq_some_iff.mp found
    have old := invariant.streams name c there
    split
    · exact old.createCodec bitrate
    · exact old
  · intro name none
    rw [World.createStreamCodecs, SortedMap.find_mapValues, Option.map_eq_none_iff] at none
    exact invariant.absent name none
  · refine invariant.encoders_keep rfl fun name c found filled => ⟨c, ?_, rfl, rfl⟩
    rw [World.createStreamCodecs, SortedMap.find_mapValues, found, Option.map_some, if_neg]
    simp [StreamContext.needsCodec, Option.isNone_eq_false_iff.mpr filled]

/-- One stream changes, and only its tasks do. -/
theorem updated {channelName : String} {c c' : StreamContext} (invariant : w.Invariant)
    (there : w.streamSenders.find channelName = some c)
    (senders : w'.streamSenders = w.streamSenders.update channelName c')
    (consistent : Consistent (fun id => w'.inFlight ⟨channelName, id⟩) c')
    (others : ∀ name, name ≠ channelName → ∀ id, w'.inFlight ⟨name, id⟩ = w.inFlight ⟨name, id⟩)
    (encoders : w'.worker.encoders = [] ∨ w'.worker = w.worker ∧
      c'.codec.map Codec.id = c.codec.map Codec.id ∧
      c'.appliedTargetBitrate = c.appliedTargetBitrate) : w'.Invariant := by
  have here : w'.streamSenders.find channelName = some c' := by
    rw [senders, SortedMap.find_update, if_pos ⟨by simp [there], rfl⟩]
  have elsewhere (name : String) (other : name ≠ channelName) :
      w'.streamSenders.find name = w.streamSenders.find name := by
    rw [senders, SortedMap.find_update, if_neg fun both => other both.2]
  constructor
  · intro name d found
    by_cases same : name = channelName
    · subst same
      cases here.symm.trans found
      exact consistent
    · rw [elsewhere name same] at found
      simp only [others name same]
      exact invariant.streams name d found
  · intro name none
    by_cases same : name = channelName
    · subst same
      cases here.symm.trans none
    · rw [elsewhere name same] at none
      simp only [others name same]
      exact invariant.absent name none
  · obtain none | ⟨worker, codec, applied⟩ := encoders
    · simp [none]
    · refine invariant.encoders_keep worker fun name d found _ => ?_
      by_cases same : name = channelName
      · subst same
        cases there.symm.trans found
        exact ⟨c', here, codec, applied⟩
      · exact ⟨d, (elsewhere name same).trans found, rfl, rfl⟩

theorem report (invariant : w.Invariant) (channelName : String)
    (lastActiveTime lastCaptureTime : Option Int) (mediaBitrateBps : Int) :
    (w.report channelName lastActiveTime lastCaptureTime mediaBitrateBps).Invariant := by
  unfold World.report
  split
  · exact invariant
  · rename_i c there
    have old := invariant.streams channelName c there
    exact invariant.updated there rfl (old.keep ⟨rfl, rfl, rfl⟩ old.flight old.idle old.fresh)
      (fun _ _ _ => rfl) (.inr ⟨rfl, rfl, rfl⟩)

/-- The tasks go from one place to another. -/
theorem moved (invariant : w.Invariant) (senders : w'.streamSenders = w.streamSenders)
    (same : ∀ task, w'.inFlight task = w.inFlight task)
    (encoders : w'.worker.encoders = w.worker.encoders ∨ w'.worker.encoders = []) :
    w'.Invariant := by
  constructor
  · intro name c found
    simp only [same]
    exact invariant.streams name c (senders ▸ found)
  · intro name none id
    rw [same]
    exact invariant.absent name (senders ▸ none) id
  · rw [senders]
    obtain kept | none := encoders
    · rw [kept]
      exact invariant.encoders
    · simp [none]

theorem updateVideoSettings (invariant : w.Invariant) (settings : VideoSettings) :
    (w.updateVideoSettings settings).Invariant := by
  unfold World.updateVideoSettings
  split
  · exact invariant
  · refine invariant.moved rfl (fun task => ?_) (.inl rfl)
    simp [inFlight_eq]

theorem post {i : Nat} {task : QueuedTask} {rest : List QueuedTask} (invariant : w.Invariant)
    (next : w.calls[i]? = some (task :: rest)) :
    Invariant { w with calls := w.calls.set i rest, queue := w.queue ++ [task] } := by
  refine invariant.moved rfl (fun other => ?_) (.inl rfl)
  have posted := count_posted next (.bitrate other)
  rw [inFlight_eq, inFlight_eq, List.count_append]
  simp only
  omega

theorem updateVideoBitrateAllocation (invariant : w.Invariant) (nowMs : Int) :
    (w.updateVideoBitrateAllocation nowMs).Invariant := by
  unfold World.updateVideoBitrateAllocation
  simp only
  split
  · exact invariant
  have posted (task : BitrateTask) : inFlight { w with
      streamSenders := w.streamSenders.mapValues fun _ c => (c.allocate nowMs).1
      calls := w.calls ++ [w.streamSenders.entries.filterMap
        fun e => e.2.allocationTask nowMs e.1] } task = w.inFlight task +
      if ((w.streamSenders.find task.channelName).bind fun c =>
        c.allocationTask nowMs task.channelName) = some (.bitrate task) then 1 else 0 := by
    rw [inFlight_eq, inFlight_eq, List.flatten_append, List.count_append, List.flatten_singleton,
      count_allocationTasks]
    simp only
    omega
  constructor
  · intro name c found
    rw [SortedMap.find_mapValues] at found
    obtain ⟨c, there, rfl⟩ := Option.map_eq_some_iff.mp found
    refine (invariant.streams name c there).allocate nowMs name
      fun id => ?_
    rw [posted, there]
    rfl
  · intro name none id
    rw [SortedMap.find_mapValues, Option.map_eq_none_iff] at none
    rw [posted, none, invariant.absent name none]
    rfl
  · refine invariant.encoders_keep rfl fun name c found _ => ⟨(c.allocate nowMs).1, ?_, ?_⟩
    · rw [SortedMap.find_mapValues, found]
      rfl
    · obtain ⟨desired, same⟩ | ⟨-, -, desired, same⟩ := c.allocate_cases nowMs
      · rw [same]
        exact ⟨rfl, rfl⟩
      · rw [same]
        exact ⟨rfl, rfl⟩

/-- A codec with a task has the flag. -/
theorem queued {task : BitrateTask} {c : StreamContext} {codec : Codec} (invariant : w.Invariant)
    (there : w.streamSenders.find task.channelName = some c) (current : c.codec = some codec)
    (same : codec.id = task.codec) (running : 0 < w.inFlight task) :
    c.bitrateUpdateQueued = true ∧ w.inFlight task = 1 := by
  have flight := (invariant.streams task.channelName c there).flight codec current
  simp only [same] at flight
  cases flag : c.bitrateUpdateQueued with
  | true =>
    rw [flag] at flight
    exact ⟨rfl, flight⟩
  | false =>
    rw [flag] at flight
    change w.inFlight task = 0 at flight
    omega

/-- A task of a replaced codec ends. -/
theorem staleEnds {task : BitrateTask} (invariant : w.Invariant)
    (senders : w'.streamSenders = w.streamSenders)
    (stale : ∀ c, w.streamSenders.find task.channelName = some c →
      c.codec.map Codec.id ≠ some task.codec)
    (running : 0 < w.inFlight task)
    (others : ∀ other, other ≠ task → w'.inFlight other = w.inFlight other)
    (encoders : w'.worker.encoders = []) : w'.Invariant := by
  have there : ∃ c, w.streamSenders.find task.channelName = some c := by
    cases found : w.streamSenders.find task.channelName with
    | none =>
      have absent := invariant.absent _ found task.codec
      exact absurd absent (Nat.ne_of_gt running)
    | some c => exact ⟨c, rfl⟩
  obtain ⟨c, there⟩ := there
  constructor
  · intro name d found
    have old := invariant.streams name d (senders ▸ found)
    have same (id : Nat) (kept : d.codec.map Codec.id = some id ∨ d.codecs ≤ id) :
        w'.inFlight ⟨name, id⟩ = w.inFlight ⟨name, id⟩ := by
      apply others
      rintro rfl
      rw [senders] at found
      obtain current | new := kept
      · exact stale d found current
      · exact absurd (old.fresh id new) (Nat.ne_of_gt running)
    refine old.keep ⟨rfl, rfl, rfl⟩ ?_ old.idle ?_
    · intro codec mem
      have current : d.codec = some codec := mem
      rw [same codec.id (.inl (by rw [current]; rfl))]
      exact old.flight codec mem
    · intro id new
      rw [same id (.inr new)]
      exact old.fresh id new
  · intro name none id
    rw [senders] at none
    rw [others]
    · exact invariant.absent name none id
    · rintro rfl
      cases there.symm.trans none
  · simp [encoders]

theorem startUpdate {task : BitrateTask} {rest : List QueuedTask} (invariant : w.Invariant)
    (idle : w.worker = .idle) (next : w.queue = .bitrate task :: rest) :
    ({ w with queue := rest }.startUpdate task).Invariant := by
  have running : 0 < w.inFlight task := by
    rw [inFlight_eq, next, List.count_cons_self]
    omega
  have others (other : BitrateTask) (differs : other ≠ task) :
      inFlight { w with queue := rest } other = w.inFlight other := by
    rw [inFlight_eq, inFlight_eq, next, List.count_cons_of_ne (by simpa using differs.symm)]
  have ended : inFlight { w with queue := rest } task + 1 = w.inFlight task := by
    rw [inFlight_eq, inFlight_eq, next, List.count_cons_self]
    simp only
    omega
  unfold World.startUpdate
  split
  · rename_i missing
    exact absurd (invariant.absent _ missing task.codec) (Nat.ne_of_gt running)
  rename_i c there
  split
  · rename_i stale
    refine invariant.staleEnds rfl (fun d found => ?_) running others (by simp [idle, Worker.encoders])
    cases there.symm.trans found
    exact stale
  rename_i current
  obtain ⟨codec, filled, same⟩ := Option.map_eq_some_iff.mp (not_not.mp current)
  have old := invariant.streams task.channelName c there
  obtain ⟨-, single⟩ := invariant.queued there filled same running
  have done : Invariant { w with
      queue := rest
      streamSenders := w.streamSenders.update task.channelName
        { c with bitrateUpdateQueued := false } } := by
    refine invariant.updated there rfl (old.keep ⟨rfl, rfl, rfl⟩ ?_ (fun _ => rfl) ?_) ?_
      (.inr ⟨rfl, rfl, rfl⟩)
    · intro other mem
      cases filled.symm.trans mem
      rw [same]
      change inFlight { w with queue := rest } task = 0
      omega
    · intro id new
      have less := old.numbered codec filled
      have differs : (⟨task.channelName, id⟩ : BitrateTask) ≠ task := by
        intro other
        have codecs := congrArg BitrateTask.codec other
        simp only at codecs
        omega
      exact (others _ differs).trans (old.fresh id new)
    · intro name differs id
      exact others ⟨name, id⟩ (by rintro rfl; exact differs rfl)
  simp only
  split
  · exact done
  split
  · exact done
  split
  · exact done
  · refine invariant.moved rfl (fun other => ?_) (.inl (by simp [idle, Worker.encoders]))
    rw [inFlight_eq, inFlight_eq, next, idle]
    simp only [Worker.tasks, List.count_cons, List.count_nil]
    omega

theorem startSettings {settings : VideoSettings} {rest : List QueuedTask} (invariant : w.Invariant)
    (idle : w.worker = .idle) (next : w.queue = .settings settings :: rest) :
    ({ w with queue := rest }.startSettings settings).Invariant := by
  have same (other : BitrateTask) (worker : Worker) (without : worker.tasks = []) :
      inFlight { w with queue := rest, worker } other = w.inFlight other := by
    rw [inFlight_eq, inFlight_eq, next, idle, without]
    simp [Worker.tasks]
  unfold World.startSettings
  split
  · refine invariant.moved rfl (fun other => ?_) (.inl rfl)
    exact same other w.worker (by rw [idle]; rfl)
  constructor
  · intro name c found
    simp only [same _ (.creating _ _) rfl]
    exact invariant.streams name c found
  · intro name none id
    rw [same _ (.creating _ _) rfl]
    exact invariant.absent name none id
  · intro encoder mem
    obtain ⟨⟨name, c⟩, there, prepared⟩ := List.mem_filterMap.mp mem
    have found : w.streamSenders.find name = some c := SortedMap.find_eq_some.mpr there
    unfold StreamContext.prepare at prepared
    split at prepared
    · obtain ⟨codec, current, rfl⟩ := Option.map_eq_some_iff.mp prepared
      exact ⟨c, found, by rw [current]; rfl, rfl⟩
    · cases prepared

theorem setTargetBitrate {task : BitrateTask} {targetBitrate : Int} (invariant : w.Invariant)
    (applying : w.worker = .applying task targetBitrate) (result : Int) :
    (w.setTargetBitrate task targetBitrate result).Invariant := by
  have running : 0 < w.inFlight task := by
    rw [inFlight_eq, applying, Worker.tasks, List.count_cons_self]
    omega
  have others (other : BitrateTask) (differs : other ≠ task) (worker : Worker)
      (without : worker.tasks = [] ∨ worker.tasks = [.bitrate task]) :
      inFlight { w with worker } other = w.inFlight other := by
    have silent : ([.bitrate task] : List QueuedTask).count (.bitrate other) = 0 := by
      rw [List.count_cons_of_ne (by simpa using differs.symm), List.count_nil]
    rw [inFlight_eq, inFlight_eq, applying]
    obtain none | kept := without
    · rw [none, Worker.tasks, silent]
      rfl
    · rw [kept]
      rfl
  unfold World.setTargetBitrate
  split
  · rename_i missing
    exact absurd (invariant.absent _ missing task.codec) (Nat.ne_of_gt running)
  rename_i c there
  split
  · rename_i stale
    refine invariant.staleEnds rfl (fun d found => ?_) running
      (fun other differs => others other differs .idle (.inl rfl)) rfl
    cases there.symm.trans found
    exact stale
  rename_i current
  obtain ⟨codec, filled, same⟩ := Option.map_eq_some_iff.mp (not_not.mp current)
  have old := invariant.streams task.channelName c there
  obtain ⟨flag, single⟩ := invariant.queued there filled same running
  have whole : (⟨task.channelName, codec.id⟩ : BitrateTask) = task := by rw [same]
  have left (more : Bool) : inFlight { w with
      worker := if more then .reposting task else .idle } task = if more then 1 else 0 := by
    rw [inFlight_eq, applying, Worker.tasks, List.count_cons_self] at single
    rw [inFlight_eq]
    cases more with
    | true =>
      simp only [if_true, Worker.tasks, List.count_cons_self]
      omega
    | false =>
      simp only [Bool.false_eq_true, if_false, Worker.tasks]
      omega
  have tasks (more : Bool) : (if more then Worker.reposting task else .idle).tasks = [] ∨
      (if more then Worker.reposting task else .idle).tasks = [.bitrate task] := by
    cases more with
    | true => exact .inr rfl
    | false => exact .inl rfl
  refine invariant.updated there rfl (old.setTargetBitrate filled flag (fun id differs => ?_) ?_)
    (fun name differs id => ?_) (.inl ?_)
  · refine others _ (fun other => differs ?_) _ (tasks _)
    exact (congrArg BitrateTask.codec other).trans same.symm
  · rw [whole]
    exact left _
  · refine others _ (fun other => differs ?_) _ (tasks _)
    exact congrArg BitrateTask.channelName other
  · simp only
    split <;> rfl

theorem postFollowup {task : BitrateTask} (invariant : w.Invariant)
    (reposting : w.worker = .reposting task) :
    Invariant { w with queue := w.queue ++ [.bitrate task], worker := .idle } := by
  refine invariant.moved rfl (fun other => ?_) (.inr rfl)
  rw [inFlight_eq, inFlight_eq, reposting]
  simp only [Worker.tasks, List.count_append, List.count_nil]
  omega

theorem installEncoders {settings : VideoSettings} {encoders : List PreparedEncoder}
    (invariant : w.Invariant) (creating : w.worker = .creating settings encoders) :
    (w.installEncoders settings encoders).Invariant := by
  have same (other : BitrateTask) : inFlight { w with worker := .idle } other = w.inFlight other := by
    rw [inFlight_eq, inFlight_eq, creating]
    rfl
  unfold World.installEncoders
  split
  · constructor
    · intro name c found
      rw [SortedMap.find_mapValues] at found
      obtain ⟨c, there, rfl⟩ := Option.map_eq_some_iff.mp found
      have old := invariant.streams name c there
      simp only [← same] at old
      split
      · exact old
      · rename_i encoder here
        obtain ⟨d, found, -, rate⟩ := invariant.encoders encoder
          (by rw [creating]; exact List.mem_of_find?_eq_some here)
        have named : encoder.name = name := by simpa using List.find?_some here
        rw [named] at found
        cases there.symm.trans found
        exact old.install rate
    · intro name none id
      rw [SortedMap.find_mapValues, Option.map_eq_none_iff] at none
      exact (same _).trans (invariant.absent name none id)
    · intro encoder mem
      cases mem
  · exact invariant.moved rfl same (.inr rfl)

theorem step {e : Event} (invariant : w.Invariant) (moved : w.step e = some w') :
    w'.Invariant := by
  cases e with
  | addSendChannel channelName type =>
    cases moved
    exact invariant.addSendChannel channelName type
  | createStreamCodecs bitrate creates =>
    cases moved
    exact invariant.createStreamCodecs bitrate creates
  | report channelName lastActiveTime lastCaptureTime mediaBitrateBps =>
    cases moved
    exact invariant.report channelName lastActiveTime lastCaptureTime mediaBitrateBps
  | updateVideoBitrateAllocation nowMs =>
    cases moved
    exact invariant.updateVideoBitrateAllocation nowMs
  | updateVideoSettings settings =>
    cases moved
    exact invariant.updateVideoSettings settings
  | post i =>
    simp only [World.step] at moved
    split at moved
    · rename_i next
      cases moved
      exact invariant.post next
    · cases moved
  | startTask =>
    simp only [World.step] at moved
    split at moved
    · rename_i idle next
      cases moved
      exact invariant.startUpdate idle next
    · rename_i idle next
      cases moved
      exact invariant.startSettings idle next
    · cases moved
  | setTargetBitrate result =>
    simp only [World.step] at moved
    split at moved
    · rename_i applying
      cases moved
      exact invariant.setTargetBitrate applying result
    · cases moved
  | postFollowup =>
    simp only [World.step] at moved
    split at moved
    · rename_i reposting
      cases moved
      exact invariant.postFollowup reposting
    · cases moved
  | createEncoders created =>
    simp only [World.step] at moved
    split at moved
    · rename_i creating
      cases moved
      split
      · exact invariant.installEncoders creating
      · refine invariant.moved rfl (fun other => ?_) (.inr rfl)
        rw [inFlight_eq, inFlight_eq, creating]
        rfl
    · cases moved

end Invariant

end World

/-- A world with the senders still to be added. -/
def Start (w : World) : Prop := ∃ settings, w = { settings }

theorem World.Invariant.of_reachable {w : World}
    (reachable : Runs.Reachable Start (Runs.Steps fun w e w' => w.step e = some w') w) :
    w.Invariant := by
  refine reachable.invariant ?_ ?_
  · rintro w ⟨settings, rfl⟩
    exact .start settings
  · rintro w w' invariant ⟨e, -, moved⟩
    exact invariant.step moved

/-- After an allocation a stream has its rate, or the flag. -/
theorem StreamContext.allocate_settled {nowMs desired : Int} {c : StreamContext}
    (active : c.activeVideo nowMs = true)
    (asked : (c.allocate nowMs).1.desiredTargetBitrate = some desired) (above : 0 < desired) :
    (c.allocate nowMs).1.appliedTargetBitrate = some desired ∨
      (c.allocate nowMs).1.bitrateUpdateQueued = true := by
  unfold allocate at asked ⊢
  rw [if_neg (by simp [active])] at asked ⊢
  simp only at asked ⊢
  split at asked
  · rename_i none
    cases asked
    omega
  rename_i some
  rw [if_neg some]
  split at asked
  · rename_i queued
    rw [if_pos queued]
    exact .inr queued
  rename_i unqueued
  rw [if_neg unqueued]
  split at asked
  · rename_i applied
    rw [if_pos applied]
    cases asked
    exact .inl applied
  · rename_i differs
    rw [if_neg differs]
    exact .inr rfl

theorem StreamContext.allocate_activeVideo (nowMs : Int) (c : StreamContext) :
    (c.allocate nowMs).1.activeVideo nowMs = c.activeVideo nowMs := by
  obtain ⟨desired, same⟩ | ⟨-, -, desired, same⟩ := c.allocate_cases nowMs
  · rw [same]
    rfl
  · rw [same]
    rfl

/-- The flag is set exactly while the codec has its task. -/
theorem Consistent.queued_iff {count : Nat → Nat} {c : StreamContext}
    (consistent : Consistent count c) :
    c.bitrateUpdateQueued = true ↔ ∃ codec ∈ c.codec, count codec.id = 1 := by
  constructor
  · intro queued
    cases current : c.codec with
    | none =>
      rw [consistent.idle current] at queued
      cases queued
    | some codec =>
      have one := consistent.flight codec current
      rw [queued] at one
      exact ⟨codec, rfl, one⟩
  · rintro ⟨codec, current, one⟩
    have flight := consistent.flight codec current
    by_contra unqueued
    rw [if_neg unqueued] at flight
    omega

/-- What an update of the current codec comes to. -/
inductive Ended (w' : World) (task : BitrateTask) (c' : StreamContext) : Event → Prop where
  | applied {e : Event} (asked : c'.desiredTargetBitrate.isSome = true)
      (same : c'.appliedTargetBitrate = c'.desiredTargetBitrate) : Ended w' task c' e
  | followup {e : Event} (posted : w'.queue.getLast? = some (.bitrate task)) : Ended w' task c' e
  | absent {e : Event} (none : c'.desiredTargetBitrate = none) : Ended w' task c' e
  | notPositive {e : Event} (rate : Int) (desired : c'.desiredTargetBitrate = some rate)
      (below : rate ≤ 0) : Ended w' task c' e
  | failed (result : Int) (error : result ≠ 0) : Ended w' task c' (.setTargetBitrate result)

namespace World

variable {w w' : World} {task : BitrateTask} {c' : StreamContext}

theorem eq_of_update {senders : SortedMap String StreamContext} {name : String}
    {c d : StreamContext} (there : senders.find name = some c)
    (found : (senders.update name d).find name = some c') : c' = d := by
  rw [SortedMap.find_update, if_pos ⟨by simp [there], rfl⟩] at found
  exact (Option.some.inj found).symm

theorem startUpdate_ended (idle : (w.startUpdate task).worker = .idle)
    (there : (w.startUpdate task).streamSenders.find task.channelName = some c')
    (current : c'.codec.map Codec.id = some task.codec) :
    Ended (w.startUpdate task) task c' .startTask := by
  cases before : w.streamSenders.find task.channelName with
  | none => simp [startUpdate, before] at there
  | some c =>
    simp only [startUpdate, before] at idle there
    split at there
    · rename_i stale
      cases before.symm.trans there
      exact absurd current stale
    rename_i kept
    rw [if_neg kept] at idle
    split at there
    · rename_i none
      cases eq_of_update before there
      exact .absent none
    rename_i targetBitrate desired
    simp only [desired] at idle
    split at there
    · rename_i below
      cases eq_of_update before there
      exact .notPositive targetBitrate desired below
    rename_i above
    rw [if_neg above] at idle
    split at there
    · rename_i applied
      cases eq_of_update before there
      exact .applied (by simp [desired]) (applied.trans desired.symm)
    · rename_i differs
      rw [if_neg differs] at idle
      cases idle

theorem setTargetBitrate_ended {targetBitrate result : Int}
    (idle : (w.setTargetBitrate task targetBitrate result).worker = .idle)
    (there : (w.setTargetBitrate task targetBitrate result).streamSenders.find task.channelName =
      some c')
    (current : c'.codec.map Codec.id = some task.codec) :
    Ended (w.setTargetBitrate task targetBitrate result) task c' (.setTargetBitrate result) := by
  by_cases failed : result = 0
  swap
  · exact .failed result failed
  cases before : w.streamSenders.find task.channelName with
  | none => simp [setTargetBitrate, before] at there
  | some c =>
    simp only [setTargetBitrate, before] at idle there
    split at there
    · rename_i stale
      cases before.symm.trans there
      exact absurd current stale
    rename_i kept
    rw [if_neg kept] at idle
    have after := eq_of_update before there
    simp only [StreamContext.setTargetBitrate, if_pos failed] at idle after
    unfold StreamContext.finish at idle after
    split at idle
    · cases idle
    rename_i done
    rw [if_neg done] at after
    subst after
    cases desired : c.desiredTargetBitrate with
    | none => exact .absent desired
    | some rate =>
      have same : rate = targetBitrate := by
        simpa [StreamContext.applied, desired] using done
      exact .applied (by simp [StreamContext.applied, desired])
        (by simp [StreamContext.applied, desired, same])

/-- A task that the worker has finished with ends in one of these ways. -/
theorem executed_ended {e : Event} (executed : w.executed e = some task)
    (moved : w.step e = some w') (idle : w'.worker = .idle)
    (there : w'.streamSenders.find task.channelName = some c')
    (current : c'.codec.map Codec.id = some task.codec) : Ended w' task c' e := by
  cases e with
  | startTask =>
    simp only [World.step] at moved
    simp only [World.executed] at executed
    split at moved
    · rename_i next
      rw [next] at executed
      cases executed
      cases moved
      exact startUpdate_ended idle there current
    · rename_i next
      rw [next] at executed
      cases executed
    · cases moved
  | setTargetBitrate result =>
    simp only [World.step] at moved
    simp only [World.executed] at executed
    split at moved
    · rename_i applying
      rw [applying] at executed
      cases executed
      cases moved
      exact setTargetBitrate_ended idle there current
    · cases moved
  | postFollowup =>
    simp only [World.step] at moved
    simp only [World.executed] at executed
    split at moved
    · rename_i reposting
      rw [reposting] at executed
      cases executed
      cases moved
      exact .followup (by simp)
    · cases moved
  | _ => cases executed

end World

/-- In every state of every run the flag of a stream says whether its codec has a task, of which
there is never more than one; what was applied is the rate of the codec; an allocation leaves no
active stream with neither its rate nor a task; and no task of the codec ends early. -/
theorem updates_are_single_flight {w : World}
    (reachable : Runs.Reachable Start (Runs.Steps fun w e w' => w.step e = some w') w) :
    (∀ channelName c, w.streamSenders.find channelName = some c →
      (c.bitrateUpdateQueued = true ↔
        ∃ codec ∈ c.codec, w.inFlight ⟨channelName, codec.id⟩ = 1) ∧
      (∀ codec ∈ c.codec, w.inFlight ⟨channelName, codec.id⟩ ≤ 1) ∧
      ∀ rate ∈ c.appliedTargetBitrate, ∃ codec ∈ c.codec, codec.rate = rate) ∧
    (∀ nowMs w', w.step (.updateVideoBitrateAllocation nowMs) = some w' →
      ∀ channelName c, w'.streamSenders.find channelName = some c → c.activeVideo nowMs = true →
      ∀ desired ∈ c.desiredTargetBitrate, 0 < desired →
        c.appliedTargetBitrate = some desired ∨
          ∃ codec ∈ c.codec, w'.inFlight ⟨channelName, codec.id⟩ = 1) ∧
    ∀ e w' task, w.executed e = some task → w.step e = some w' → w'.worker = .idle →
      ∀ c, w'.streamSenders.find task.channelName = some c →
        c.codec.map Codec.id = some task.codec → Ended w' task c e := by
  have invariant := World.Invariant.of_reachable reachable
  refine ⟨fun channelName c found => ?_, fun nowMs w' moved channelName c found active desired
    asked above => ?_, fun e w' task executed moved idle c found current =>
      World.executed_ended executed moved idle found current⟩
  · have consistent := invariant.streams channelName c found
    refine ⟨consistent.queued_iff, fun codec current => ?_, consistent.rate⟩
    have flight := consistent.flight codec current
    split at flight <;> omega
  · have consistent := (invariant.step moved).streams channelName c found
    cases moved
    have settled : c.appliedTargetBitrate = some desired ∨ c.bitrateUpdateQueued = true := by
      simp only [World.updateVideoBitrateAllocation] at found
      split at found
      · rename_i unused
        rw [List.countP_eq_zero] at unused
        exact absurd active (unused _ (SortedMap.find_eq_some.mp found))
      · rw [SortedMap.find_mapValues] at found
        obtain ⟨c, -, rfl⟩ := Option.map_eq_some_iff.mp found
        rw [StreamContext.allocate_activeVideo] at active
        exact StreamContext.allocate_settled active asked above
    exact settled.imp_right consistent.queued_iff.mp

/-- The settings change while a task waits to be posted. -/
def swapEvents : List Event :=
  [.addSendChannel "video" .video, .createStreamCodecs 300000 (fun _ => true),
    .report "video" (some 0) none 500000, .updateVideoBitrateAllocation 10,
    .updateVideoSettings ⟨1, 30, .balanced⟩, .post 1, .startTask, .createEncoders true,
    .updateVideoBitrateAllocation 20, .post 0, .post 2]

/-- The task of the old codec is left, beside the one of the new codec. -/
theorem updates_are_single_flight_swapped :
    ∃ w, Runs.run (fun _ _ => True) World.step { settings := ⟨0, 30, .balanced⟩ } swapEvents =
        some w ∧
      w.queue = [.bitrate ⟨"video", 0⟩, .bitrate ⟨"video", 1⟩] ∧
      ∀ c ∈ w.streamSenders.find "video", c.bitrateUpdateQueued = true ↔
        ∃ codec ∈ c.codec, w.inFlight ⟨"video", codec.id⟩ = 1 := by
  refine ⟨_, rfl, rfl, fun c found => ?_⟩
  exact ((updates_are_single_flight (Runs.Reachable.run _ _ swapEvents
    (.start ⟨⟨0, 30, .balanced⟩, rfl⟩) rfl)).1 "video" c found).1

end MiniRtc.Transport.BitrateUpdates
