import MiniRtc.Lib.Runs
import MiniRtc.Lib.Wrapping

/-! The NACKs that a video channel has still to answer: the set behind `pending_nacks_mtx_` and
the tasks that empty it. An event is one region of the mutex or one step between two of them;
the queue of the history runs its tasks one after another.
`taken` and `resent` are not in the source. They list what the batches were made of and what
`ReSendPacket` was called with. -/
namespace MiniRtc.Transport

/-- `RtpPacketHistory::kMaxCapacity`. -/
def kMaxCapacity : Nat := 10001

def kMaxNacksPerTask : Nat := 512

inductive HistoryTask where
  | processPendingNacks
  | other
deriving DecidableEq, Repr

/-- How far the worker of the history queue has come with a task. -/
inductive HistoryWorker where
  | idle
  | entered
  | resending (packetIds : List (BitVec 16))
  | rescheduling
deriving DecidableEq, Repr

namespace HistoryWorker

/-- The task of the worker is one that processes NACKs, or is about to post the next one. -/
def tasks : HistoryWorker → Nat
  | idle => 0
  | _ => 1

/-- What is left of the batch. -/
def remaining : HistoryWorker → List (BitVec 16)
  | resending packetIds => packetIds
  | _ => []

end HistoryWorker

/-- The set has its elements in no order. `posting` calls of `OnReceiveNack` are past their region
and about to post a task. -/
structure PendingNacks where
  rtxEnabled : Bool
  historyShutdown : Bool := false
  pendingNackSequenceNumbers : List (BitVec 16) := []
  nackTaskScheduled : Bool := false
  posting : Nat := 0
  taskQueueHistory : List HistoryTask := []
  worker : HistoryWorker := .idle
  taken : List (BitVec 16) := []
  resent : List (BitVec 16) := []
deriving DecidableEq, Repr

inductive NackEvent where
  | onReceiveNack (nackSequenceNumbers : List (BitVec 16))
  | postTask (succeeds : Bool)
  | resetSendState
  | postOther
  | startTask
  | takeBatch (packetIds : List (BitVec 16))
  | reSendPacket
  | finishBatch
  | reschedule (succeeds : Bool)
deriving DecidableEq, Repr

namespace PendingNacks

/-- The loop that inserts the numbers of one feedback. -/
def insertNacks (pending : List (BitVec 16)) : List (BitVec 16) → List (BitVec 16)
  | [] => pending
  | sequenceNumber :: rest =>
    if kMaxCapacity ≤ pending.length then pending
    else insertNacks (pending.insert sequenceNumber) rest

/-- `OnReceiveNack` up to the end of its region. -/
def onReceiveNack (c : PendingNacks) (nackSequenceNumbers : List (BitVec 16)) : PendingNacks :=
  if c.rtxEnabled = false ∨ nackSequenceNumbers = [] then c
  else if c.historyShutdown then c
  else
    let pending := insertNacks c.pendingNackSequenceNumbers nackSequenceNumbers
    if c.nackTaskScheduled = false ∧ pending ≠ [] then
      { c with
        pendingNackSequenceNumbers := pending
        nackTaskScheduled := true
        posting := c.posting + 1 }
    else { c with pendingNackSequenceNumbers := pending }

/-- What follows a region that wants a task. -/
def post (c : PendingNacks) (succeeds : Bool) : PendingNacks :=
  if succeeds then { c with taskQueueHistory := c.taskQueueHistory ++ [.processPendingNacks] }
  else { c with nackTaskScheduled := false }

def postTask (c : PendingNacks) (succeeds : Bool) : Option PendingNacks :=
  if c.posting = 0 then none else some ({ c with posting := c.posting - 1 }.post succeeds)

/-- The worker takes the next task. Those that do not process NACKs end at once. -/
def startTask (c : PendingNacks) : Option PendingNacks :=
  match c.worker, c.taskQueueHistory with
  | .idle, .processPendingNacks :: rest =>
    some { c with worker := .entered, taskQueueHistory := rest }
  | .idle, .other :: rest => some { c with taskQueueHistory := rest }
  | _, _ => none

/-- A batch that the first region may take: as many numbers of the set as there are, up to the
limit. -/
def IsBatch (c : PendingNacks) (packetIds : List (BitVec 16)) : Prop :=
  packetIds.Nodup ∧ packetIds ⊆ c.pendingNackSequenceNumbers ∧
    packetIds.length = min kMaxNacksPerTask c.pendingNackSequenceNumbers.length

instance (c : PendingNacks) (packetIds : List (BitVec 16)) : Decidable (c.IsBatch packetIds) :=
  inferInstanceAs (Decidable (_ ∧ _ ∧ _))

/-- The first region of `ProcessPendingNacks`. -/
def takeBatch (c : PendingNacks) (packetIds : List (BitVec 16)) : Option PendingNacks :=
  match c.worker with
  | .entered =>
    if c.historyShutdown then
      some { c with
        worker := .idle
        pendingNackSequenceNumbers := []
        nackTaskScheduled := false }
    else if c.IsBatch packetIds then
      some { c with
        worker := .resending packetIds
        pendingNackSequenceNumbers := c.pendingNackSequenceNumbers.filter (· ∉ packetIds)
        taken := c.taken ++ packetIds }
    else none
  | _ => none

/-- One turn of the loop over the batch. -/
def reSendPacket (c : PendingNacks) : Option PendingNacks :=
  match c.worker with
  | .resending (seqNo :: rest) =>
    if c.historyShutdown then some { c with worker := .resending [] }
    else some { c with worker := .resending rest, resent := c.resent ++ [seqNo] }
  | _ => none

/-- The last region of `ProcessPendingNacks`. -/
def finishBatch (c : PendingNacks) : Option PendingNacks :=
  match c.worker with
  | .resending [] =>
    if c.historyShutdown ∨ c.pendingNackSequenceNumbers = [] then
      some { c with
        worker := .idle
        pendingNackSequenceNumbers := []
        nackTaskScheduled := false }
    else some { c with worker := .rescheduling }
  | _ => none

def reschedule (c : PendingNacks) (succeeds : Bool) : Option PendingNacks :=
  match c.worker with
  | .rescheduling => some ({ c with worker := .idle }.post succeeds)
  | _ => none

def step (c : PendingNacks) : NackEvent → Option PendingNacks
  | .onReceiveNack nackSequenceNumbers => some (c.onReceiveNack nackSequenceNumbers)
  | .postTask succeeds => c.postTask succeeds
  | .resetSendState => some { c with pendingNackSequenceNumbers := [] }
  | .postOther => some { c with taskQueueHistory := c.taskQueueHistory ++ [.other] }
  | .startTask => c.startTask
  | .takeBatch packetIds => c.takeBatch packetIds
  | .reSendPacket => c.reSendPacket
  | .finishBatch => c.finishBatch
  | .reschedule succeeds => c.reschedule succeeds

/-- The tasks that are about to be posted, queued or running. -/
def tasks (c : PendingNacks) : Nat :=
  c.posting + c.taskQueueHistory.count .processPendingNacks + c.worker.tasks

/-- A channel with RTX before its first NACK. -/
def Starts (c : PendingNacks) : Prop := c = { rtxEnabled := true }

/-- `PostTask` of the history queue succeeds. -/
def Succeeds (e : NackEvent) : Prop := e ≠ .postTask false ∧ e ≠ .reschedule false

instance (e : NackEvent) : Decidable (Succeeds e) := inferInstanceAs (Decidable (_ ∧ _))

def Moves (c : PendingNacks) (e : NackEvent) (d : PendingNacks) : Prop := step c e = some d

theorem insertNacks_length {pending : List (BitVec 16)} (numbers : List (BitVec 16))
    (bounded : pending.length ≤ kMaxCapacity) :
    (insertNacks pending numbers).length ≤ kMaxCapacity := by
  induction numbers generalizing pending with
  | nil => exact bounded
  | cons number rest ih =>
    simp only [insertNacks]
    split
    · exact bounded
    · rename_i room
      apply ih
      by_cases mem : number ∈ pending
      · simpa [mem] using bounded
      · simp only [List.length_insert_of_not_mem mem]
        omega

theorem insertNacks_nodup {pending : List (BitVec 16)} (numbers : List (BitVec 16))
    (nodup : pending.Nodup) : (insertNacks pending numbers).Nodup := by
  induction numbers generalizing pending with
  | nil => exact nodup
  | cons number rest ih =>
    simp only [insertNacks]
    split
    · exact nodup
    · exact ih (nodup.insert)

theorem subset_insertNacks (pending numbers : List (BitVec 16)) :
    pending ⊆ insertNacks pending numbers := by
  induction numbers generalizing pending with
  | nil => exact List.Subset.refl _
  | cons number rest ih =>
    simp only [insertNacks]
    split
    · exact List.Subset.refl _
    · exact fun n mem => ih _ (List.mem_insert_of_mem mem)

/-- What holds between any two regions. -/
structure Coalesced (c : PendingNacks) : Prop where
  live : c.rtxEnabled = true ∧ c.historyShutdown = false
  one : c.tasks = if c.nackTaskScheduled then 1 else 0
  scheduled : c.pendingNackSequenceNumbers ≠ [] → c.nackTaskScheduled = true
  nodup : c.pendingNackSequenceNumbers.Nodup
  bounded : c.pendingNackSequenceNumbers.length ≤ kMaxCapacity
  resent : c.taken = c.resent ++ c.worker.remaining

variable {c d : PendingNacks}

theorem Coalesced.onReceiveNack (held : c.Coalesced) (numbers : List (BitVec 16)) :
    (c.onReceiveNack numbers).Coalesced := by
  have nodup := insertNacks_nodup numbers held.nodup
  have bounded := insertNacks_length numbers held.bounded
  have one := held.one
  simp only [PendingNacks.onReceiveNack]
  split
  · exact held
  split
  · exact held
  split
  · rename_i fresh
    refine ⟨held.live, ?_, fun _ => rfl, nodup, bounded, held.resent⟩
    simp only [tasks, fresh.1] at one ⊢
    simp at one
    simp [one]
  · rename_i same
    refine ⟨held.live, one, fun filled => ?_, nodup, bounded, held.resent⟩
    by_contra unscheduled
    exact same ⟨Bool.eq_false_of_not_eq_true unscheduled, filled⟩

theorem Coalesced.post (live : c.rtxEnabled = true ∧ c.historyShutdown = false)
    (one : c.tasks = 0) (scheduled : c.nackTaskScheduled = true)
    (nodup : c.pendingNackSequenceNumbers.Nodup)
    (bounded : c.pendingNackSequenceNumbers.length ≤ kMaxCapacity)
    (resent : c.taken = c.resent ++ c.worker.remaining) : (c.post true).Coalesced := by
  refine ⟨live, ?_, fun _ => scheduled, nodup, bounded, resent⟩
  simp only [tasks] at one
  simp only [PendingNacks.post, tasks, if_true, scheduled, List.count_append]
  simp
  omega

theorem Coalesced.set_of_tasks (held : c.Coalesced) (some : 0 < c.tasks) :
    c.nackTaskScheduled = true ∧ c.tasks = 1 := by
  have one := held.one
  split at one
  · rename_i set
    exact ⟨set, one⟩
  · omega

theorem Coalesced.startTask (held : c.Coalesced) (moved : c.startTask = some d) :
    d.Coalesced := by
  obtain ⟨live, one, scheduled, nodup, bounded, resent⟩ := held
  unfold PendingNacks.startTask at moved
  split at moved <;> cases moved
  · rename_i idle queue
    refine ⟨live, ?_, scheduled, nodup, bounded, ?_⟩
    · simp only [tasks, idle, queue, List.count_cons_self, HistoryWorker.tasks] at one ⊢
      omega
    · simpa [idle, HistoryWorker.remaining] using resent
  · rename_i idle queue
    refine ⟨live, ?_, scheduled, nodup, bounded, resent⟩
    simpa [tasks, queue, List.count_cons] using one

theorem Coalesced.takeBatch {packetIds : List (BitVec 16)} (held : c.Coalesced)
    (moved : c.takeBatch packetIds = some d) : d.Coalesced := by
  unfold PendingNacks.takeBatch at moved
  split at moved
  · rename_i entered
    have set := (held.set_of_tasks (by simp [tasks, entered, HistoryWorker.tasks])).1
    obtain ⟨live, one, scheduled, nodup, bounded, resent⟩ := held
    rw [if_neg (by simp [live.2])] at moved
    split at moved <;> cases moved
    refine ⟨live, ?_, fun _ => set, nodup.filter _, ?_, ?_⟩
    · simpa [tasks, entered, HistoryWorker.tasks] using one
    · exact (List.length_filter_le _ _).trans bounded
    · simp [resent, entered, HistoryWorker.remaining]
  · cases moved

theorem Coalesced.reSendPacket (held : c.Coalesced) (moved : c.reSendPacket = some d) :
    d.Coalesced := by
  obtain ⟨live, one, scheduled, nodup, bounded, resent⟩ := held
  unfold PendingNacks.reSendPacket at moved
  split at moved
  · rename_i seqNo rest stands
    rw [if_neg (by simp [live.2])] at moved
    cases moved
    refine ⟨live, ?_, scheduled, nodup, bounded, ?_⟩
    · simpa [tasks, stands, HistoryWorker.tasks] using one
    · simp [resent, stands, HistoryWorker.remaining]
  · cases moved

/-- The flag is cleared with the set empty and the last task at its end. -/
theorem Coalesced.finishBatch (held : c.Coalesced) (moved : c.finishBatch = some d) :
    d.Coalesced := by
  unfold PendingNacks.finishBatch at moved
  split at moved
  · rename_i stands
    have running : c.tasks = 1 := (held.set_of_tasks (by simp [tasks, stands, HistoryWorker.tasks])).2
    obtain ⟨live, one, scheduled, nodup, bounded, resent⟩ := held
    simp only [tasks, stands, HistoryWorker.tasks] at running
    split at moved <;> cases moved
    · refine ⟨live, ?_, nofun, .nil, Nat.zero_le _, ?_⟩
      · simp only [tasks, HistoryWorker.tasks, Bool.false_eq_true, if_false]
        omega
      · simpa [stands, HistoryWorker.remaining] using resent
    · refine ⟨live, ?_, scheduled, nodup, bounded, ?_⟩
      · simpa [tasks, stands, HistoryWorker.tasks] using one
      · simpa [stands, HistoryWorker.remaining] using resent
  · cases moved

theorem Coalesced.postTask (held : c.Coalesced) (moved : c.postTask true = some d) :
    d.Coalesced := by
  unfold PendingNacks.postTask at moved
  split at moved <;> cases moved
  rename_i posting
  obtain ⟨set, single⟩ := held.set_of_tasks (by simp only [tasks]; omega)
  obtain ⟨live, one, scheduled, nodup, bounded, resent⟩ := held
  refine Coalesced.post live ?_ set nodup bounded resent
  simp only [tasks] at single ⊢
  omega

theorem Coalesced.reschedule (held : c.Coalesced) (moved : c.reschedule true = some d) :
    d.Coalesced := by
  unfold PendingNacks.reschedule at moved
  split at moved <;> cases moved
  rename_i stands
  obtain ⟨set, single⟩ := held.set_of_tasks (by simp [tasks, stands, HistoryWorker.tasks])
  obtain ⟨live, one, scheduled, nodup, bounded, resent⟩ := held
  refine Coalesced.post live ?_ set nodup bounded ?_
  · simp only [tasks, stands, HistoryWorker.tasks] at single ⊢
    omega
  · simpa [stands, HistoryWorker.remaining] using resent

theorem Coalesced.step {e : NackEvent} (held : c.Coalesced) (succeeds : Succeeds e)
    (moved : step c e = some d) : d.Coalesced := by
  cases e with
  | onReceiveNack numbers =>
    cases moved
    exact held.onReceiveNack numbers
  | postTask posted =>
    cases posted with
    | true => exact held.postTask moved
    | false => exact absurd rfl succeeds.1
  | resetSendState =>
    cases moved
    exact ⟨held.live, held.one, nofun, .nil, Nat.zero_le _, held.resent⟩
  | postOther =>
    cases moved
    obtain ⟨live, one, scheduled, nodup, bounded, resent⟩ := held
    exact ⟨live, by simpa [tasks] using one, scheduled, nodup, bounded, resent⟩
  | startTask => exact held.startTask moved
  | takeBatch packetIds => exact held.takeBatch moved
  | reSendPacket => exact held.reSendPacket moved
  | finishBatch => exact held.finishBatch moved
  | reschedule posted =>
    cases posted with
    | true => exact held.reschedule moved
    | false => exact absurd rfl succeeds.2

theorem coalesced_start : Coalesced { rtxEnabled := true } := by
  constructor <;> simp [tasks, HistoryWorker.tasks, HistoryWorker.remaining]

theorem mem_onReceiveNack {n : BitVec 16} (numbers : List (BitVec 16))
    (mem : n ∈ c.pendingNackSequenceNumbers) :
    n ∈ (c.onReceiveNack numbers).pendingNackSequenceNumbers := by
  have kept := subset_insertNacks c.pendingNackSequenceNumbers numbers mem
  simp only [onReceiveNack]
  split
  · exact mem
  split
  · exact mem
  split <;> exact kept

/-- A number leaves the set by a reset or into a batch. -/
theorem Coalesced.leaves {e : NackEvent} (held : c.Coalesced)
    (moved : PendingNacks.step c e = some d) {n : BitVec 16}
    (mem : n ∈ c.pendingNackSequenceNumbers) (gone : n ∉ d.pendingNackSequenceNumbers) :
    e = .resetSendState ∨
      ∃ packetIds, e = .takeBatch packetIds ∧ d.worker = .resending packetIds ∧ n ∈ packetIds := by
  have running : ¬ c.historyShutdown = true := by simp [held.live.2]
  cases e with
  | onReceiveNack numbers =>
    cases moved
    exact absurd (mem_onReceiveNack numbers mem) gone
  | postTask posted =>
    simp only [PendingNacks.step, PendingNacks.postTask] at moved
    split at moved <;> cases moved
    cases posted <;> exact absurd mem gone
  | resetSendState => exact .inl rfl
  | postOther =>
    cases moved
    exact absurd mem gone
  | startTask =>
    simp only [PendingNacks.step, PendingNacks.startTask] at moved
    split at moved <;> cases moved <;> exact absurd mem gone
  | takeBatch packetIds =>
    simp only [PendingNacks.step, PendingNacks.takeBatch] at moved
    split at moved
    · rw [if_neg running] at moved
      split at moved <;> cases moved
      refine .inr ⟨packetIds, rfl, rfl, ?_⟩
      by_contra other
      exact gone (List.mem_filter.mpr ⟨mem, by simpa using other⟩)
    · cases moved
  | reSendPacket =>
    simp only [PendingNacks.step, PendingNacks.reSendPacket] at moved
    split at moved
    · rw [if_neg running] at moved
      cases moved
      exact absurd mem gone
    · cases moved
  | finishBatch =>
    simp only [PendingNacks.step, PendingNacks.finishBatch] at moved
    split at moved
    · split at moved <;> cases moved
      · rename_i ended
        obtain down | empty := ended
        · exact absurd down running
        · rw [empty] at mem
          cases mem
      · exact absurd mem gone
    · cases moved
  | reschedule posted =>
    simp only [PendingNacks.step, PendingNacks.reschedule] at moved
    split at moved <;> cases moved
    cases posted <;> exact absurd mem gone

/-- The loop over a batch runs to its end, with one call for every number. -/
theorem Coalesced.resends (held : c.Coalesced) {packetIds : List (BitVec 16)}
    (stands : c.worker = .resending packetIds) :
    Runs.run (fun _ _ => True) PendingNacks.step c (packetIds.map fun _ => .reSendPacket) =
      some { c with worker := .resending [], resent := c.resent ++ packetIds } := by
  have running : ¬ c.historyShutdown = true := by simp [held.live.2]
  clear held
  induction packetIds generalizing c with
  | nil =>
    simp only [List.map_nil, Runs.run, List.append_nil, ← stands]
  | cons seqNo rest ih =>
    have moved : PendingNacks.step c .reSendPacket =
        some { c with worker := .resending rest, resent := c.resent ++ [seqNo] } := by
      simp only [PendingNacks.step, PendingNacks.reSendPacket, stands]
      rw [if_neg running]
    have later := ih (c := { c with worker := .resending rest, resent := c.resent ++ [seqNo] })
      rfl running
    simp only [List.map_cons, Runs.run, if_true, moved, Option.bind_some, later]
    simp

/-- One task serves all NACKs: it is there exactly while the flag is set, no number leaves the
set without a reset or a batch, and every number of a batch is resent, in the order of the batch,
before the task ends. -/
theorem nacks_are_answered
    (reachable : Runs.Reachable Starts (Runs.Guarded (fun _ e => Succeeds e) Moves) c) :
    (c.tasks = if c.nackTaskScheduled then 1 else 0) ∧
      (c.pendingNackSequenceNumbers ≠ [] → c.nackTaskScheduled = true) ∧
      (c.pendingNackSequenceNumbers.Nodup ∧ c.pendingNackSequenceNumbers.length ≤ kMaxCapacity) ∧
      (∀ e d n, Moves c e d → n ∈ c.pendingNackSequenceNumbers →
        n ∉ d.pendingNackSequenceNumbers → e = .resetSendState ∨
          ∃ packetIds, e = .takeBatch packetIds ∧ d.worker = .resending packetIds ∧
            n ∈ packetIds) ∧
      c.taken = c.resent ++ c.worker.remaining ∧
      ∀ packetIds, c.worker = .resending packetIds →
        Runs.run (fun _ _ => True) step c (packetIds.map fun _ => .reSendPacket) =
          some { c with worker := .resending [], resent := c.resent ++ packetIds } := by
  have held : c.Coalesced := by
    refine reachable.invariant ?_ ?_
    · rintro c rfl
      exact coalesced_start
    · rintro c d held ⟨e, succeeds, moved⟩
      exact held.step succeeds moved
  exact ⟨held.one, held.scheduled, ⟨held.nodup, held.bounded⟩,
    fun _ _ _ moved mem gone => held.leaves moved mem gone, held.resent,
    fun _ stands => held.resends stands⟩

/-- A second NACK comes while the first batch is resent, and is answered by a second task. -/
theorem nacks_are_answered_twice : ∃ c : PendingNacks,
    (c.tasks = if c.nackTaskScheduled then 1 else 0) ∧ c.taken = c.resent ++ c.worker.remaining ∧
      c.resent = [7, 8] ∧ c.nackTaskScheduled = true ∧ c.worker = .resending [9] := by
  have ran : ∃ c, Runs.run (fun _ e => Succeeds e) step { rtxEnabled := true }
      [.onReceiveNack [8, 7, 8], .postTask true, .startTask, .takeBatch [7, 8], .reSendPacket,
        .onReceiveNack [9], .reSendPacket, .finishBatch, .reschedule true, .startTask,
        .takeBatch [9]] = some c ∧
      c.resent = [7, 8] ∧ c.nackTaskScheduled = true ∧ c.worker = .resending [9] :=
    ⟨_, rfl, rfl, rfl, rfl⟩
  obtain ⟨c, here, resent, scheduled, stands⟩ := ran
  have held := nacks_are_answered (Runs.Reachable.run _ _ _ (.start rfl) here)
  exact ⟨c, held.1, held.2.2.2.2.1, resent, scheduled, stands⟩

end PendingNacks
end MiniRtc.Transport
