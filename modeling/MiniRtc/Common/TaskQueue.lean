import MiniRtc.Lib.Logs
import MiniRtc.Lib.Runs

/-! The task queue with delays, as the regions of its mutex and the steps between them: the
calls of the posts, of `ClearTasks` and of `Stop`, and the worker. Time points are nanoseconds of
a clock that never goes back, and a wait may end at any time.
The log is not in the source. It has what happened, the newest first. -/
namespace MiniRtc.Common

namespace Tasks

inductive Post where
  | postTask
  | postDelayedTask (delayMs : Nat)
  | postDelayedHighPrecisionTask (delayUs : Nat)
deriving DecidableEq, Repr

/-- A call of a post, and whether its task is not empty. -/
structure Call where
  post : Post
  task : Bool := true
deriving DecidableEq, Repr

def Call.delay (call : Call) : Nat :=
  match call.post with
  | .postTask => 0
  | .postDelayedTask delayMs => delayMs * 1000000
  | .postDelayedHighPrecisionTask delayUs => delayUs * 1000

/-- An item knows the call that it came with. -/
structure TaskItem where
  executeTime : Nat
  sequenceId : Nat
  call : Nat
deriving DecidableEq, Repr

namespace TaskItem

/-- `operator>`. -/
def greater (item other : TaskItem) : Bool :=
  if item.executeTime ≠ other.executeTime then decide (other.executeTime < item.executeTime)
  else decide (other.sequenceId < item.sequenceId)

/-- The heap has the item before the other. -/
def Before (item other : TaskItem) : Prop := item.greater other = false

instance (item other : TaskItem) : Decidable (item.Before other) :=
  inferInstanceAs (Decidable (_ = _))

theorem before_iff {item other : TaskItem} :
    item.Before other ↔ item.executeTime < other.executeTime ∨
      item.executeTime = other.executeTime ∧ item.sequenceId ≤ other.sequenceId := by
  unfold Before greater
  split <;> simp <;> omega

instance : Std.Total Before where
  total item other := by
    simp only [before_iff]
    omega

instance : IsTrans TaskItem Before where
  trans first second third := by
    simp only [before_iff]
    omega

end TaskItem

/-- Where the call of a post stands. `queued` is after its region: it may have to notify. -/
inductive Place where
  | idle
  | called
  | timed (executeTime : Nat)
  | refused
  | queued (notify : Bool)
  | returned (accepted : Bool)
deriving DecidableEq, Repr

/-- The item of the call was put into the queue. -/
def Place.accepted : Place → Bool
  | queued _ => true
  | returned accepted => accepted
  | _ => false

/-- Where a call of `ClearTasks` or `Stop` stands. -/
inductive Closing where
  | idle
  | notifying
  | notified
  | returned
deriving DecidableEq, Repr

/-- Where the worker stands: `waiting` is the wait with a predicate, `timed` the one with a
deadline, and after both the mutex is taken again. -/
inductive Worker where
  | top
  | waiting
  | woken
  | timed (deadline : Nat)
  | timedWoken
  | taken (item : TaskItem)
  | executing (item : TaskItem)
  | exited
deriving DecidableEq, Repr

namespace Worker

/-- A wait ends: by a notification, at the deadline or for no reason. -/
def notified : Worker → Worker
  | waiting => woken
  | timed _ => timedWoken
  | worker => worker

def blocked : Worker → Bool
  | waiting | timed _ => true
  | _ => false

/-- The worker is in the wait with a deadline, or just out of it. -/
def inTimedWait : Worker → Bool
  | timed _ | timedWoken => true
  | _ => false

/-- The item that was taken and whose task has not begun. -/
def item : Worker → List TaskItem
  | taken item => [item]
  | _ => []

@[simp] theorem item_taken (item : TaskItem) : (taken item).item = [item] := rfl

@[simp] theorem item_executing (item : TaskItem) : (executing item).item = [] := rfl

@[simp] theorem item_timed (deadline : Nat) : (timed deadline).item = [] := rfl

@[simp] theorem item_without : top.item = [] ∧ waiting.item = [] ∧ woken.item = [] ∧
    timedWoken.item = [] ∧ exited.item = [] := ⟨rfl, rfl, rfl, rfl, rfl⟩

@[simp] theorem item_notified (worker : Worker) : worker.notified.item = worker.item := by
  cases worker <;> rfl

@[simp] theorem blocked_notified (worker : Worker) : worker.notified.blocked = false := by
  cases worker <;> rfl

end Worker

inductive Entry where
  | began (call : Nat)
  | queued (call executeTime : Nat)
  | returned (call : Nat) (accepted : Bool)
  | cleared (calls : List Nat)
  | skipped (call : Nat)
  | executed (call time : Nat)
  | waits (deadline : Option Nat)
  | stopped
deriving DecidableEq, Repr

/-- The calls whose items left the queue with the entry. -/
def Entry.calls : Entry → List Nat
  | cleared calls => calls
  | skipped call | executed call _ => [call]
  | _ => []

inductive Event where
  | post (call : Nat)
  | clearTasks (call : Nat)
  | stop
  | work
  | wake
  | tick (elapsed : Nat)
deriving DecidableEq, Repr

end Tasks

open Tasks

structure TaskQueue where
  now : Nat := 0
  stopped : Bool := false
  taskQueue : List TaskItem := []
  nextSequenceId : Nat := 0
  posts : Nat → Place := fun _ => .idle
  clears : Nat → Closing := fun _ => .idle
  stopper : Closing := .idle
  worker : Worker := .top
  log : List Entry := []

namespace TaskQueue

variable (calls : Nat → Call)

def setPost (q : TaskQueue) (i : Nat) (place : Place) : TaskQueue :=
  { q with posts := Function.update q.posts i place }

def setClear (q : TaskQueue) (k : Nat) (closing : Closing) : TaskQueue :=
  { q with clears := Function.update q.clears k closing }

/-- The new item is earlier than all others. -/
def notifies (q : TaskQueue) (executeTime : Nat) : Bool :=
  match q.taskQueue with
  | [] => true
  | top :: _ => decide (executeTime < top.executeTime)

/-- The region of `PostDelayedTaskAt`. -/
def postDelayedTaskAt (q : TaskQueue) (i executeTime : Nat) : TaskQueue :=
  if q.stopped then q.setPost i .refused
  else
    { q.setPost i (.queued (q.notifies executeTime)) with
      taskQueue := q.taskQueue.orderedInsert TaskItem.Before ⟨executeTime, q.nextSequenceId, i⟩
      nextSequenceId := (q.nextSequenceId + 1) % 2 ^ 64
      log := .queued i executeTime :: q.log }

/-- One step of the `i`-th call of a post. The clock is read before the mutex is taken. -/
def postTask (q : TaskQueue) (i : Nat) : Option TaskQueue :=
  match q.posts i with
  | .idle => some { q.setPost i .called with log := .began i :: q.log }
  | .called => some (q.setPost i (.timed (q.now + (calls i).delay)))
  | .timed executeTime => some (q.postDelayedTaskAt i executeTime)
  | .queued true => some { q.setPost i (.queued false) with worker := q.worker.notified }
  | .queued false => some { q.setPost i (.returned true) with log := .returned i true :: q.log }
  | .refused => some { q.setPost i (.returned false) with log := .returned i false :: q.log }
  | .returned _ => none

/-- One step of the `k`-th call of `ClearTasks`. -/
def clearTasks (q : TaskQueue) (k : Nat) : Option TaskQueue :=
  match q.clears k with
  | .idle =>
    some { q.setClear k .notifying with
      taskQueue := []
      log := .cleared (q.taskQueue.map TaskItem.call) :: q.log }
  | .notifying => some { q.setClear k .returned with worker := q.worker.notified }
  | .notified | .returned => none

def stop (q : TaskQueue) : Option TaskQueue :=
  match q.stopper with
  | .idle => some { q with stopper := .notifying, stopped := true, log := .stopped :: q.log }
  | .notifying => some { q with stopper := .notified, worker := q.worker.notified }
  | .notified => if q.worker = .exited then some { q with stopper := .returned } else none
  | .returned => none

/-- The inner loop up to the next wait or the end of the region. -/
def takeTop (q : TaskQueue) : TaskQueue :=
  match q.taskQueue with
  | [] => { q with worker := .top }
  | top :: rest =>
    if q.now < top.executeTime then
      { q with worker := .timed top.executeTime, log := .waits (some top.executeTime) :: q.log }
    else { q with worker := .taken top, taskQueue := rest }

/-- One step of the worker. -/
def workerThread (q : TaskQueue) : Option TaskQueue :=
  match q.worker with
  | .top | .woken =>
    if q.taskQueue = [] then
      if q.stopped then some { q with worker := .exited }
      else some { q with worker := .waiting, log := .waits none :: q.log }
    else some q.takeTop
  | .timedWoken => if q.stopped then some { q with worker := .exited } else some q.takeTop
  | .taken item =>
    if (calls item.call).task then
      some { q with worker := .executing item, log := .executed item.call q.now :: q.log }
    else some { q with worker := .top, log := .skipped item.call :: q.log }
  | .executing _ => some { q with worker := .top }
  | .waiting | .timed _ | .exited => none

def step (q : TaskQueue) : Event → Option TaskQueue
  | .post i => postTask calls q i
  | .clearTasks k => clearTasks q k
  | .stop => stop q
  | .work => workerThread calls q
  | .wake => if q.worker.blocked then some { q with worker := q.worker.notified } else none
  | .tick elapsed => some { q with now := q.now + elapsed }

/-- What a step does. -/
inductive Change (q : TaskQueue) : Event → TaskQueue → Prop where
  | begins {i} : q.posts i = .idle →
      Change q (.post i) { q.setPost i .called with log := .began i :: q.log }
  | reads {i} : q.posts i = .called →
      Change q (.post i) (q.setPost i (.timed (q.now + (calls i).delay)))
  | refuses {i executeTime} : q.posts i = .timed executeTime → q.stopped = true →
      Change q (.post i) (q.setPost i .refused)
  | accepts {i executeTime} : q.posts i = .timed executeTime → q.stopped = false →
      Change q (.post i)
        { q.setPost i (.queued (q.notifies executeTime)) with
          taskQueue := q.taskQueue.orderedInsert TaskItem.Before ⟨executeTime, q.nextSequenceId, i⟩
          nextSequenceId := (q.nextSequenceId + 1) % 2 ^ 64
          log := .queued i executeTime :: q.log }
  | notifies {i} : q.posts i = .queued true →
      Change q (.post i) { q.setPost i (.queued false) with worker := q.worker.notified }
  | returns {i} (accepted : Bool) : q.posts i = (if accepted then .queued false else .refused) →
      Change q (.post i)
        { q.setPost i (.returned accepted) with log := .returned i accepted :: q.log }
  | clears {k} : q.clears k = .idle →
      Change q (.clearTasks k)
        { q.setClear k .notifying with
          taskQueue := []
          log := .cleared (q.taskQueue.map TaskItem.call) :: q.log }
  | clearNotifies {k} : q.clears k = .notifying →
      Change q (.clearTasks k) { q.setClear k .returned with worker := q.worker.notified }
  | stops : q.stopper = .idle →
      Change q .stop { q with stopper := .notifying, stopped := true, log := .stopped :: q.log }
  | stopNotifies : q.stopper = .notifying →
      Change q .stop { q with stopper := .notified, worker := q.worker.notified }
  | joins : q.stopper = .notified → q.worker = .exited →
      Change q .stop { q with stopper := .returned }
  | waits : q.worker = .top ∨ q.worker = .woken → q.taskQueue = [] → q.stopped = false →
      Change q .work { q with worker := .waiting, log := .waits none :: q.log }
  | exits : q.worker = .timedWoken ∨ (q.worker = .top ∨ q.worker = .woken) ∧ q.taskQueue = [] →
      q.stopped = true → Change q .work { q with worker := .exited }
  | waitsUntil {top rest} :
      q.worker = .timedWoken ∧ q.stopped = false ∨ q.worker = .top ∨ q.worker = .woken →
      q.taskQueue = top :: rest → q.now < top.executeTime →
      Change q .work
        { q with worker := .timed top.executeTime, log := .waits (some top.executeTime) :: q.log }
  | takes {top rest} :
      q.worker = .timedWoken ∧ q.stopped = false ∨ q.worker = .top ∨ q.worker = .woken →
      q.taskQueue = top :: rest → top.executeTime ≤ q.now →
      Change q .work { q with worker := .taken top, taskQueue := rest }
  | executes {item} : q.worker = .taken item → (calls item.call).task = true →
      Change q .work
        { q with worker := .executing item, log := .executed item.call q.now :: q.log }
  | skips {item} : q.worker = .taken item → (calls item.call).task = false →
      Change q .work { q with worker := .top, log := .skipped item.call :: q.log }
  | finishes : (∃ item, q.worker = .executing item) ∨ q.worker = .timedWoken ∧ q.taskQueue = [] →
      Change q .work { q with worker := .top }
  | wakes : q.worker.blocked = true → Change q .wake { q with worker := q.worker.notified }
  | ticks (elapsed : Nat) : Change q (.tick elapsed) { q with now := q.now + elapsed }

variable {calls} {q r : TaskQueue}

theorem change_takeTop
    (stands : q.worker = .timedWoken ∧ q.stopped = false ∨
      (q.worker = .top ∨ q.worker = .woken) ∧ q.taskQueue ≠ []) :
    Change calls q .work q.takeTop := by
  have enters : q.worker = .timedWoken ∧ q.stopped = false ∨ q.worker = .top ∨ q.worker = .woken :=
    stands.imp_right And.left
  unfold takeTop
  split
  · rename_i empty
    obtain ⟨timed, -⟩ | ⟨-, filled⟩ := stands
    · exact .finishes (.inr ⟨timed, empty⟩)
    · exact absurd empty filled
  · rename_i top rest queue
    split
    · rename_i early
      exact .waitsUntil enters queue early
    · rename_i due
      exact .takes enters queue (Nat.le_of_not_lt due)

theorem postTask_change {i : Nat} (moved : postTask calls q i = some r) :
    Change calls q (.post i) r := by
  cases stands : q.posts i with
  | idle =>
    simp only [postTask, stands] at moved
    cases moved
    exact .begins stands
  | called =>
    simp only [postTask, stands] at moved
    cases moved
    exact .reads stands
  | timed executeTime =>
    simp only [postTask, stands, postDelayedTaskAt] at moved
    cases moved
    split
    · rename_i stopped
      exact .refuses stands stopped
    · rename_i running
      exact .accepts stands (by simpa using running)
  | refused =>
    simp only [postTask, stands] at moved
    cases moved
    exact .returns false stands
  | queued notify =>
    cases notify <;> simp only [postTask, stands] at moved <;> cases moved
    · exact .returns true stands
    · exact .notifies stands
  | returned accepted => simp [postTask, stands] at moved

theorem workerThread_change (moved : workerThread calls q = some r) : Change calls q .work r := by
  have atTop : ∀ stands : q.worker = .top ∨ q.worker = .woken,
      (if q.taskQueue = [] then
        if q.stopped then some { q with worker := .exited }
        else some { q with worker := .waiting, log := .waits none :: q.log }
      else some q.takeTop) = some r → Change calls q .work r := by
    intro stands moved
    split at moved
    · rename_i empty
      split at moved <;> cases moved
      · rename_i stopped
        exact .exits (.inr ⟨stands, empty⟩) stopped
      · rename_i running
        exact .waits stands empty (by simpa using running)
    · rename_i filled
      cases moved
      exact change_takeTop (.inr ⟨stands, filled⟩)
  cases stands : q.worker with
  | top =>
    simp only [workerThread, stands] at moved
    exact atTop (.inl stands) moved
  | woken =>
    simp only [workerThread, stands] at moved
    exact atTop (.inr stands) moved
  | timedWoken =>
    simp only [workerThread, stands] at moved
    split at moved <;> cases moved
    · rename_i stopped
      exact .exits (.inl stands) stopped
    · rename_i running
      exact change_takeTop (.inl ⟨stands, by simpa using running⟩)
  | taken item =>
    simp only [workerThread, stands] at moved
    split at moved <;> cases moved
    · rename_i carries
      exact .executes stands carries
    · rename_i empty
      exact .skips stands (by simpa using empty)
  | executing item =>
    simp only [workerThread, stands] at moved
    cases moved
    exact .finishes (.inl ⟨item, stands⟩)
  | waiting | timed _ | exited => simp [workerThread, stands] at moved

theorem step_change {e : Event} (moved : step calls q e = some r) : Change calls q e r := by
  cases e with
  | post i => exact postTask_change moved
  | clearTasks k =>
    cases stands : q.clears k <;> simp only [step, clearTasks, stands] at moved <;> cases moved
    · exact .clears stands
    · exact .clearNotifies stands
  | stop =>
    cases stands : q.stopper <;> simp only [step, stop, stands] at moved
    case idle =>
      cases moved
      exact .stops stands
    case notifying =>
      cases moved
      exact .stopNotifies stands
    case notified =>
      split at moved <;> cases moved
      rename_i exited
      exact .joins stands exited
    case returned => cases moved
  | work => exact workerThread_change moved
  | wake =>
    simp only [step] at moved
    split at moved <;> cases moved
    rename_i blocked
    exact .wakes blocked
  | tick elapsed =>
    cases moved
    exact .ticks elapsed

@[simp] theorem setPost_posts (i j : Nat) (place : Place) :
    (q.setPost i place).posts j = if j = i then place else q.posts j := by
  simp [setPost, Function.update_apply]

@[simp] theorem setClear_clears (k l : Nat) (closing : Closing) :
    (q.setClear k closing).clears l = if l = k then closing else q.clears l := by
  simp [setClear, Function.update_apply]

theorem Change.log_mono {e : Event} (change : Change calls q e r) {entry : Entry}
    (mem : entry ∈ q.log) : entry ∈ r.log := by
  cases change <;> first | exact mem | exact List.mem_cons_of_mem _ mem

theorem Change.sorted {e : Event} (change : Change calls q e r)
    (sorted : q.taskQueue.Pairwise TaskItem.Before) : r.taskQueue.Pairwise TaskItem.Before := by
  cases change with
  | accepts => exact List.Pairwise.orderedInsert _ _ sorted
  | clears => exact .nil
  | takes _ queue =>
    rw [queue] at sorted
    exact sorted.of_cons
  | _ => exact sorted

/-- The calls of the items in the queue, with the worker, and out of both. -/
def handed (q : TaskQueue) : List Nat :=
  q.taskQueue.map TaskItem.call ++ q.worker.item.map TaskItem.call ++ q.log.flatMap Entry.calls

/-- The calls whose tasks were executed. -/
def executed (q : TaskQueue) : List Nat :=
  q.log.filterMap fun
    | .executed call _ => some call
    | _ => none

/-- Where every accepted item is, and what the log says about it. -/
structure Sound (calls : Nat → Call) (q : TaskQueue) : Prop where
  sorted : q.taskQueue.Pairwise TaskItem.Before
  nodup : q.handed.Nodup
  posted : ∀ i, i ∈ q.handed ↔ (q.posts i).accepted = true
  begins : ∀ i, .began i ∈ q.log → q.posts i ≠ .idle
  returns : ∀ i accepted, .returned i accepted ∈ q.log → q.posts i = .returned accepted
  queued : ∀ item ∈ q.taskQueue ++ q.worker.item, .queued item.call item.executeTime ∈ q.log
  accepts : ∀ i executeTime, .queued i executeTime ∈ q.log → (q.posts i).accepted = true
  taken : ∀ item ∈ q.worker.item, item.executeTime ≤ q.now
  due : ∀ i time, .executed i time ∈ q.log →
    ∃ executeTime ≤ time, .queued i executeTime ∈ q.log
  skips : ∀ i, .skipped i ∈ q.log → (calls i).task = false

theorem accepted_setPost {i : Nat} {place : Place}
    (same : place.accepted = (q.posts i).accepted) (j : Nat) :
    ((q.setPost i place).posts j).accepted = (q.posts j).accepted := by
  rw [setPost_posts]
  split
  · rename_i this
    rw [this, same]
  · rfl

/-- The accepted calls stay, and at most one item comes in. -/
theorem Change.handed {e : Event} (change : Change calls q e r) :
    (∃ i, (q.posts i).accepted = false ∧ r.handed.Perm (i :: q.handed) ∧
      ∀ j, (r.posts j).accepted = true ↔ j = i ∨ (q.posts j).accepted = true) ∨
    r.handed.Perm q.handed ∧ ∀ j, (r.posts j).accepted = (q.posts j).accepted := by
  cases change with
  | begins stands | reads stands | refuses stands =>
    exact .inr ⟨.refl _, accepted_setPost (by rw [stands]; rfl)⟩
  | notifies stands =>
    refine .inr ⟨?_, accepted_setPost (by rw [stands]; rfl)⟩
    simp [TaskQueue.handed, setPost]
  | returns accepted stands =>
    refine .inr ⟨.refl _, accepted_setPost ?_⟩
    cases accepted <;> simp [stands, Place.accepted]
  | @accepts i executeTime stands running =>
    refine .inl ⟨i, by rw [stands]; rfl, ?_, fun j => ?_⟩
    · have inserted := (List.perm_orderedInsert TaskItem.Before
        ⟨executeTime, q.nextSequenceId, i⟩ q.taskQueue).map TaskItem.call
      exact (inserted.append_right _).append_right _
    · simp only [setPost_posts]
      split
      · rename_i this
        simp [this, Place.accepted]
      · rename_i other
        simp [other]
  | clears stands =>
    refine .inr ⟨?_, fun _ => rfl⟩
    simp only [TaskQueue.handed, setClear, List.map_nil, List.nil_append, List.flatMap_cons,
      Entry.calls]
    exact (List.perm_append_comm_assoc _ _ _).trans (by simp)
  | takes stands queue =>
    have empty : q.worker.item = [] := by grind [Worker.item]
    refine .inr ⟨?_, fun _ => rfl⟩
    simp only [TaskQueue.handed, queue, empty, Worker.item_taken, List.map_nil, List.append_nil,
      List.map_cons]
    exact (List.perm_append_singleton _ _).append_right _
  | executes stands | skips stands =>
    refine .inr ⟨?_, fun _ => rfl⟩
    simp [TaskQueue.handed, stands, Entry.calls]
  | clearNotifies | stopNotifies | wakes =>
    refine .inr ⟨?_, fun _ => rfl⟩
    simp [TaskQueue.handed, setClear]
  | waits stands | exits stands | waitsUntil stands | finishes stands =>
    have empty : q.worker.item = [] := by grind [Worker.item]
    exact .inr ⟨by simp [TaskQueue.handed, empty, Entry.calls], fun _ => rfl⟩
  | _ => exact .inr ⟨.refl _, fun _ => rfl⟩

theorem Change.accepted_mono {e : Event} (change : Change calls q e r) {i : Nat}
    (accepted : (q.posts i).accepted = true) : (r.posts i).accepted = true := by
  obtain ⟨_, -, -, same⟩ | ⟨-, same⟩ := change.handed
  · exact (same i).mpr (.inr accepted)
  · rwa [same i]

/-- Only a region takes an item, and only the region of a post brings one. -/
theorem Change.item_cases {e : Event} (change : Change calls q e r) {item : TaskItem}
    (mem : item ∈ r.taskQueue ++ r.worker.item) :
    item ∈ q.taskQueue ++ q.worker.item ∨
      ∃ i executeTime, q.posts i = .timed executeTime ∧ q.stopped = false ∧
        item = ⟨executeTime, q.nextSequenceId, i⟩ ∧ .queued i executeTime ∈ r.log := by
  cases change with
  | @accepts i executeTime stands running =>
    obtain mem | mem := List.mem_append.mp mem
    · obtain rfl | mem := (List.mem_orderedInsert _).mp mem
      · exact .inr ⟨i, executeTime, stands, running, rfl, List.mem_cons_self⟩
      · exact .inl (List.mem_append_left _ mem)
    · exact .inl (List.mem_append_right _ mem)
  | clears => exact .inl (List.mem_append_right _ (by simpa [setClear] using mem))
  | takes _ queue =>
    refine .inl (List.mem_append_left _ ?_)
    rw [queue]
    simpa [or_comm] using mem
  | notifies | clearNotifies | stopNotifies | wakes =>
    exact .inl (by simpa [setPost, setClear] using mem)
  | waits | exits | waitsUntil | executes | skips | finishes =>
    exact .inl (List.mem_append_left _ (by simpa using mem))
  | _ => exact .inl mem

theorem Sound.begins_change {e : Event} (sound : Sound calls q) (change : Change calls q e r)
    (i : Nat) (mem : .began i ∈ r.log) : r.posts i ≠ .idle := by
  have before := sound.begins i
  cases change <;> simp only [setPost_posts] <;> grind [setPost, setClear]

theorem Sound.returns_change {e : Event} (sound : Sound calls q) (change : Change calls q e r)
    (i : Nat) (accepted : Bool) (mem : .returned i accepted ∈ r.log) :
    r.posts i = .returned accepted := by
  have before := sound.returns i accepted
  cases change <;> simp only [setPost_posts] <;> grind [setPost, setClear]

theorem Sound.accepts_change {e : Event} (sound : Sound calls q) (change : Change calls q e r)
    (i executeTime : Nat) (mem : .queued i executeTime ∈ r.log) :
    (r.posts i).accepted = true := by
  have before := sound.accepts i executeTime
  have mono := change.accepted_mono (i := i)
  cases change <;> grind [setPost_posts, Place.accepted, setPost, setClear]

theorem Sound.taken_change {e : Event} (sound : Sound calls q) (change : Change calls q e r)
    (item : TaskItem) (mem : item ∈ r.worker.item) : item.executeTime ≤ r.now := by
  have before := sound.taken item
  cases change with
  | takes _ _ due =>
    obtain rfl := List.mem_singleton.mp mem
    exact due
  | ticks elapsed => exact Nat.le_add_right_of_le (before mem)
  | notifies | clearNotifies | stopNotifies | wakes => exact before (by simpa using mem)
  | waits | exits | waitsUntil | executes | skips | finishes => simp at mem
  | _ => exact before mem

theorem Sound.due_change {e : Event} (sound : Sound calls q) (change : Change calls q e r)
    (i time : Nat) (mem : .executed i time ∈ r.log) :
    ∃ executeTime ≤ time, .queued i executeTime ∈ r.log := by
  have known : .executed i time ∈ q.log → ∃ executeTime ≤ time, .queued i executeTime ∈ r.log := by
    intro mem
    obtain ⟨executeTime, due, queued⟩ := sound.due i time mem
    exact ⟨executeTime, due, change.log_mono queued⟩
  cases change with
  | @executes item stands =>
    obtain same | mem := List.mem_cons.mp mem
    · cases same
      have here : item ∈ q.worker.item := by simp [stands]
      have queued := sound.queued item (List.mem_append_right _ here)
      exact ⟨item.executeTime, sound.taken item here, List.mem_cons_of_mem _ queued⟩
    · exact known mem
  | _ => exact known (by simpa [setPost, setClear] using mem)

theorem Sound.change {e : Event} (sound : Sound calls q) (change : Change calls q e r) :
    Sound calls r := by
  have placed : r.handed.Nodup ∧ ∀ i, i ∈ r.handed ↔ (r.posts i).accepted = true := by
    obtain ⟨i, fresh, perm, same⟩ | ⟨perm, same⟩ := change.handed
    · have absent : i ∉ q.handed := by simp [sound.posted i, fresh]
      refine ⟨perm.nodup_iff.mpr (sound.nodup.cons absent), fun j => ?_⟩
      rw [perm.mem_iff, same j, List.mem_cons, sound.posted j]
    · refine ⟨perm.nodup_iff.mpr sound.nodup, fun j => ?_⟩
      rw [perm.mem_iff, same j, sound.posted j]
  refine ⟨change.sorted sound.sorted, placed.1, placed.2, sound.begins_change change,
    sound.returns_change change, ?_, sound.accepts_change change, sound.taken_change change,
    sound.due_change change, ?_⟩
  · intro item mem
    obtain mem | ⟨i, executeTime, -, -, rfl, queued⟩ := change.item_cases mem
    · exact change.log_mono (sound.queued item mem)
    · exact queued
  · intro i mem
    have before := sound.skips i
    cases change with
    | skips _ empty =>
      obtain same | mem := List.mem_cons.mp mem
      · cases same
        exact empty
      · exact before mem
    | _ => exact before (by simpa [setPost, setClear] using mem)

theorem sound_start : Sound calls {} := by
  constructor <;> simp [TaskQueue.handed, Place.accepted]

/-! The order of two tasks with one delay. -/

/-- The `i`-th post returned true before the `j`-th with the same delay began. -/
def Precedes (calls : Nat → Call) (q : TaskQueue) (i j : Nat) : Prop :=
  (calls i).delay = (calls j).delay ∧ Logs.After q.log (.began j) (.returned i true)

/-- The item of the call was cleared, or it has no task. -/
def Dropped (calls : Nat → Call) (q : TaskQueue) (i : Nat) : Prop :=
  (∃ cleared, .cleared cleared ∈ q.log ∧ i ∈ cleared) ∨ (calls i).task = false

/-- The times of the calls follow the clock. -/
structure Stamped (calls : Nat → Call) (q : TaskQueue) : Prop where
  timed : ∀ i executeTime, q.posts i = .timed executeTime → executeTime ≤ q.now + (calls i).delay
  queued : ∀ i executeTime, .queued i executeTime ∈ q.log → executeTime ≤ q.now + (calls i).delay
  below : ∀ item ∈ q.taskQueue, item.sequenceId < q.nextSequenceId

/-- The sequence ids have not come round. -/
def Room (q : TaskQueue) : Prop := q.nextSequenceId + 1 < 2 ^ 64

instance (q : TaskQueue) : Decidable q.Room := inferInstanceAs (Decidable (_ < _))

theorem Stamped.change {e : Event} (stamped : Stamped calls q) (change : Change calls q e r)
    (room : q.Room) : Stamped calls r := by
  obtain ⟨timed, queued, below⟩ := stamped
  constructor
  · intro i executeTime stands
    have before := timed i executeTime
    cases change <;> grind [setPost_posts, setPost, setClear]
  · intro i executeTime mem
    have before := queued i executeTime
    cases change <;> grind [setPost, setClear]
  · intro item mem
    cases change with
    | accepts stands =>
      have enough : q.nextSequenceId + 1 < 2 ^ 64 := room
      simp only [Nat.mod_eq_of_lt enough]
      obtain rfl | mem := (List.mem_orderedInsert _).mp mem
      · exact Nat.lt_succ_self _
      · exact Nat.lt_succ_of_lt (below item mem)
    | clears => cases mem
    | takes _ queue => exact below item (queue ▸ List.mem_cons_of_mem _ mem)
    | _ => exact below item mem

/-- What holds of a post and a later one with the same delay. -/
structure InTurn (calls : Nat → Call) (q : TaskQueue) (i j : Nat) : Prop where
  distinct : i ≠ j
  called : ∀ first, .queued i first ∈ q.log → q.posts j = .called →
    first ≤ q.now + (calls j).delay
  timed : ∀ first second, .queued i first ∈ q.log → q.posts j = .timed second → first ≤ second
  placed : ∀ item ∈ q.taskQueue, ∀ other ∈ q.taskQueue, item.call = i → other.call = j →
    ¬ other.Before item
  taken : ∀ item ∈ q.worker.item, item.call = j →
    (∃ time, .executed i time ∈ q.log) ∨ q.Dropped calls i
  executed : ∀ time, .executed j time ∈ q.log →
    (∃ before, Logs.After q.log (.executed j time) (.executed i before)) ∨ q.Dropped calls i

theorem Change.dropped {e : Event} {i : Nat} (change : Change calls q e r)
    (dropped : q.Dropped calls i) : r.Dropped calls i := by
  obtain ⟨cleared, mem, cleared⟩ | empty := dropped
  · exact .inl ⟨_, change.log_mono mem, cleared⟩
  · exact .inr empty

theorem handed_of_queued {q : TaskQueue} {item : TaskItem} (mem : item ∈ q.taskQueue) :
    item.call ∈ q.handed :=
  List.mem_append_left _ (List.mem_append_left _ (List.mem_map_of_mem mem))

theorem handed_of_taken {q : TaskQueue} {item : TaskItem} (mem : item ∈ q.worker.item) :
    item.call ∈ q.handed :=
  List.mem_append_left _ (List.mem_append_right _ (List.mem_map_of_mem mem))

theorem handed_of_executed {q : TaskQueue} {i time : Nat} (mem : .executed i time ∈ q.log) :
    i ∈ q.handed :=
  List.mem_append_right _ (List.mem_flatMap.mpr ⟨_, mem, List.mem_singleton_self _⟩)

/-- A later post that begins now has left no trace yet. -/
theorem InTurn.begins {i j : Nat} (sound : Sound calls q) (stamped : Stamped calls q)
    (same : (calls i).delay = (calls j).delay) (first : .returned i true ∈ q.log)
    (stands : q.posts j = .idle) :
    InTurn calls { q.setPost j .called with log := .began j :: q.log } i j := by
  have absent : j ∉ q.handed := by simp [sound.posted, stands, Place.accepted]
  constructor
  · rintro rfl
    rw [sound.returns i true first] at stands
    cases stands
  · intro executeTime mem _
    have early := stamped.queued i executeTime (by simpa [setPost] using mem)
    rw [← same]
    exact early
  · intro _ second _ timed
    simp at timed
  · intro item _ other mem _ rfl
    exact absurd (handed_of_queued mem) absent
  · intro item mem called
    subst called
    exact absurd (handed_of_taken mem) absent
  · intro time mem
    exact absurd (handed_of_executed (by simpa [setPost] using mem)) absent

theorem InTurn.placed_change {i j : Nat} {e : Event} (turn : InTurn calls q i j)
    (sound : Sound calls q) (stamped : Stamped calls q) (first : q.posts i = .returned true)
    (change : Change calls q e r) (item : TaskItem) (mem : item ∈ r.taskQueue)
    (other : TaskItem) (also : other ∈ r.taskQueue) (earlier : item.call = i)
    (later : other.call = j) : ¬ other.Before item := by
  have before := turn.placed item
  cases change with
  | @accepts k executeTime stands =>
    obtain rfl | mem := (List.mem_orderedInsert _).mp mem
    -- the earlier post is past its region
    · have same : k = i := earlier
      rw [same, first] at stands
      cases stands
    · obtain rfl | also := (List.mem_orderedInsert _).mp also
      · have queued := sound.queued item (List.mem_append_left _ mem)
        have early := turn.timed item.executeTime executeTime (earlier ▸ queued) (later ▸ stands)
        have below := stamped.below item mem
        simp only [TaskItem.before_iff]
        omega
      · exact before mem other also earlier later
  | clears => cases mem
  | takes _ queue =>
    exact before (queue ▸ List.mem_cons_of_mem _ mem) other (queue ▸ List.mem_cons_of_mem _ also)
      earlier later
  | _ => exact before mem other also earlier later

/-- What was accepted and is not in the queue or with the worker was executed or dropped. -/
theorem Sound.gone {i : Nat} (sound : Sound calls q) (accepted : (q.posts i).accepted = true)
    (queue : ∀ item ∈ q.taskQueue, item.call ≠ i) (worker : q.worker.item = []) :
    (∃ time, .executed i time ∈ q.log) ∨ q.Dropped calls i := by
  have mem := (sound.posted i).mpr accepted
  simp only [TaskQueue.handed, worker, List.map_nil, List.append_nil, List.mem_append,
    List.mem_map, List.mem_flatMap] at mem
  obtain ⟨item, mem, same⟩ | ⟨entry, mem, left⟩ := mem
  · exact absurd same (queue item mem)
  · cases entry with
    | cleared cleared => exact .inr (.inl ⟨cleared, mem, left⟩)
    | skipped call =>
      obtain rfl := List.mem_singleton.mp left
      exact .inr (.inr (sound.skips _ mem))
    | executed call time =>
      obtain rfl := List.mem_singleton.mp left
      exact .inl ⟨time, mem⟩
    | _ => cases left

theorem InTurn.taken_change {i j : Nat} {e : Event} (turn : InTurn calls q i j)
    (sound : Sound calls q) (first : q.posts i = .returned true)
    (change : Change calls q e r) (item : TaskItem) (mem : item ∈ r.worker.item)
    (later : item.call = j) :
    (∃ time, .executed i time ∈ r.log) ∨ r.Dropped calls i := by
  have kept : (∃ time, .executed i time ∈ q.log) ∨ q.Dropped calls i →
      (∃ time, .executed i time ∈ r.log) ∨ r.Dropped calls i := by
    rintro (⟨time, mem⟩ | dropped)
    · exact .inl ⟨time, change.log_mono mem⟩
    · exact .inr (change.dropped dropped)
  have before := turn.taken item
  cases change with
  | @takes top rest stands queue =>
    obtain rfl := List.mem_singleton.mp mem
    have empty : q.worker.item = [] := by grind [Worker.item]
    have sorted := sound.sorted
    rw [queue, List.pairwise_cons] at sorted
    refine kept (sound.gone (by rw [first]; rfl) ?_ empty)
    intro other mem earlier
    rw [queue] at mem
    obtain rfl | rest := List.mem_cons.mp mem
    · exact turn.distinct (earlier.symm.trans later)
    · exact turn.placed other (queue ▸ mem) item (queue ▸ List.mem_cons_self) earlier later
        (sorted.1 other rest)
  | notifies | clearNotifies | stopNotifies | wakes => exact kept (before (by simpa using mem) later)
  | waits | exits | waitsUntil | executes | skips | finishes => simp at mem
  | _ => exact kept (before mem later)

theorem InTurn.executed_change {i j : Nat} {e : Event} (turn : InTurn calls q i j)
    (change : Change calls q e r) (time : Nat) (mem : .executed j time ∈ r.log) :
    (∃ before, Logs.After r.log (.executed j time) (.executed i before)) ∨ r.Dropped calls i := by
  have kept : .executed j time ∈ q.log →
      (∃ before, Logs.After r.log (.executed j time) (.executed i before)) ∨
        r.Dropped calls i := by
    intro mem
    obtain ⟨before, after⟩ | dropped := turn.executed time mem
    · refine .inl ⟨before, ?_⟩
      cases change <;> first | exact after | exact after.cons
    · exact .inr (change.dropped dropped)
  have drops : q.Dropped calls i → r.Dropped calls i := change.dropped
  cases change with
  | @executes item stands =>
    obtain same | mem := List.mem_cons.mp mem
    · cases same
      obtain ⟨before, executed⟩ | dropped := turn.taken item (by simp [stands]) rfl
      · exact .inl ⟨before, Logs.after_cons.mpr (.inl ⟨rfl, executed⟩)⟩
      · exact .inr (drops dropped)
    · exact kept mem
  | _ => exact kept (by simpa [setPost, setClear] using mem)

theorem InTurn.change {i j : Nat} {e : Event} (turn : InTurn calls q i j)
    (sound : Sound calls q) (stamped : Stamped calls q) (first : .returned i true ∈ q.log)
    (second : .began j ∈ q.log) (change : Change calls q e r) : InTurn calls r i j := by
  have returned := sound.returns i true first
  have begun := sound.begins j second
  refine ⟨turn.distinct, ?_, ?_, turn.placed_change sound stamped returned change,
    turn.taken_change sound returned change, turn.executed_change change⟩
  · intro executeTime mem called
    have before := turn.called executeTime
    cases change <;> grind [setPost_posts, setPost, setClear]
  · intro executeTime second mem stands
    have called := turn.called executeTime
    have timed := turn.timed executeTime second
    cases change <;> grind [setPost_posts, setPost, setClear]

/-- The order of the tasks, with what the clock and the ids have to do with it. -/
structure Ordered (calls : Nat → Call) (q : TaskQueue) : Prop where
  sound : Sound calls q
  stamped : Stamped calls q
  inTurn : ∀ i j, q.Precedes calls i j → InTurn calls q i j

theorem Ordered.change {e : Event} (ordered : Ordered calls q) (change : Change calls q e r)
    (room : q.Room) : Ordered calls r := by
  refine ⟨ordered.sound.change change, ordered.stamped.change change room, ?_⟩
  rintro i j ⟨same, after⟩
  have known : Logs.After q.log (.began j) (.returned i true) → InTurn calls r i j :=
    fun after => (ordered.inTurn i j ⟨same, after⟩).change ordered.sound ordered.stamped
      after.earlier_mem after.later_mem change
  cases change with
  | @begins k stands =>
    obtain ⟨new, first⟩ | after := Logs.after_cons.mp after
    · cases new
      exact .begins ordered.sound ordered.stamped same first stands
    · exact known after
  | accepts | returns | clears | stops | waits | waitsUntil | executes | skips =>
    exact known (after.of_cons nofun)
  | _ => exact known after

/-! Notifications: what a worker that waits knows of the queue. -/

def NotifyOnItsWay (q : TaskQueue) : Prop :=
  (∃ i, q.posts i = .queued true) ∨ (∃ k, q.clears k = .notifying) ∨ q.stopper = .notifying

/-- A blocked worker to which no notification is on its way has nothing to do, or has a deadline
that is not later than any item. -/
def Watched (q : TaskQueue) : Prop :=
  q.worker.blocked = true → ¬ q.NotifyOnItsWay →
    q.taskQueue = [] ∧ q.stopped = false ∨
      ∃ deadline, q.worker = .timed deadline ∧ ∀ item ∈ q.taskQueue, deadline ≤ item.executeTime

theorem quiet_of_setPost {i : Nat} {place : Place} (quiet : ¬ (q.setPost i place).NotifyOnItsWay)
    (other : q.posts i ≠ .queued true) : ¬ q.NotifyOnItsWay := by
  rintro (⟨j, notifying⟩ | rest)
  · refine quiet (.inl ⟨j, ?_⟩)
    rw [setPost_posts, if_neg]
    · exact notifying
    · rintro rfl
      exact other notifying
  · exact quiet (.inr rest)

theorem Watched.change {e : Event} (watched : q.Watched) (sound : Sound calls q)
    (change : Change calls q e r) : r.Watched := by
  intro blocked quiet
  cases change with
  | begins stands | reads stands | refuses stands =>
    exact watched blocked (quiet_of_setPost quiet (by simp [stands]))
  | returns accepted stands =>
    exact watched blocked (quiet_of_setPost quiet (by cases accepted <;> simp [stands]))
  | @accepts i executeTime stands running =>
    have before := watched blocked (quiet_of_setPost quiet (by simp [stands]))
    have late : q.notifies executeTime = false := by
      by_contra notifies
      exact quiet (.inl ⟨i, by simp [Bool.eq_true_of_not_eq_false notifies]⟩)
    obtain ⟨empty, -⟩ | ⟨deadline, waits, early⟩ := before
    · simp [notifies, empty] at late
    · refine .inr ⟨deadline, waits, fun item mem => ?_⟩
      obtain rfl | mem := (List.mem_orderedInsert _).mp mem
      · cases queue : q.taskQueue with
        | nil => simp [notifies, queue] at late
        | cons top rest =>
          have first := early top (queue ▸ List.mem_cons_self)
          simp only [notifies, queue, decide_eq_false_iff_not, not_lt] at late
          exact first.trans late
      · exact early item mem
  | @clears k => exact absurd (.inr (.inl ⟨k, by simp⟩)) quiet
  | stops => exact absurd (.inr (.inr rfl)) quiet
  | joins stands exited => simp [exited, Worker.blocked] at blocked
  | waits _ empty running => exact .inl ⟨empty, running⟩
  | @waitsUntil top rest stands queue =>
    have sorted := sound.sorted
    rw [queue, List.pairwise_cons] at sorted
    refine .inr ⟨top.executeTime, rfl, fun item mem => ?_⟩
    simp only [queue, List.mem_cons] at mem
    obtain rfl | mem := mem
    · exact le_rfl
    · have first := TaskItem.before_iff.mp (sorted.1 item mem)
      omega
  | notifies | clearNotifies | stopNotifies | wakes => simp at blocked
  | exits | takes | executes | skips | finishes => cases blocked
  | ticks => exact watched blocked quiet

/-! The end: what the worker starts after the flag was set. -/

def AllDue (q : TaskQueue) : Prop := ∀ item ∈ q.taskQueue, item.executeTime ≤ q.now

def NoneLeft (q : TaskQueue) : Prop := q.taskQueue = [] ∧ q.worker.item = []

instance (q : TaskQueue) : Decidable q.AllDue := inferInstanceAs (Decidable (∀ _ ∈ _, _))

instance (q : TaskQueue) : Decidable q.NoneLeft := inferInstanceAs (Decidable (_ ∧ _))

/-- `Stop` comes when all that is queued is due, or while the worker is in its timed wait. -/
def StopsOnTime (q : TaskQueue) (e : Event) : Prop :=
  e = .stop → q.stopper = .idle → q.worker.inTimedWait = true ∨ q.AllDue

/-- `Stop` comes when no task is left to begin, or while the worker is in its timed wait. -/
def StopsEmpty (q : TaskQueue) (e : Event) : Prop :=
  e = .stop → q.stopper = .idle → q.worker.inTimedWait = true ∨ q.NoneLeft

instance (q : TaskQueue) (e : Event) : Decidable (q.StopsOnTime e) :=
  inferInstanceAs (Decidable (_ → _ → _))

instance (q : TaskQueue) (e : Event) : Decidable (q.StopsEmpty e) :=
  inferInstanceAs (Decidable (_ → _ → _))

/-- After the flag is set the worker is in its timed wait, gone, or in a state of the kind. -/
def Leaves (kind : TaskQueue → Prop) (q : TaskQueue) : Prop :=
  q.stopped = true → q.worker.inTimedWait = true ∨ q.worker = .exited ∨ kind q

theorem Change.stopped_cases {e : Event} (change : Change calls q e r)
    (stopped : r.stopped = true) :
    q.stopped = true ∨ e = .stop ∧ q.stopper = .idle ∧ r.taskQueue = q.taskQueue ∧
      r.worker = q.worker ∧ r.now = q.now := by
  cases change with
  | stops idle => exact .inr ⟨rfl, idle, rfl, rfl, rfl⟩
  | _ => exact .inl stopped

/-- With the flag set the queue only gets shorter, and the timed wait leads out of the loop. -/
theorem Change.after_stop {e : Event} (change : Change calls q e r) (stopped : q.stopped = true) :
    r.taskQueue.Sublist q.taskQueue ∧ q.now ≤ r.now ∧
      (q.worker.inTimedWait = true →
        r.worker.inTimedWait = true ∨ r.worker = .exited ∨ r.NoneLeft) ∧
      (q.worker = .exited → r.worker = .exited) := by
  cases change with
  | accepts _ running | waits _ _ running => simp [stopped] at running
  | clears => exact ⟨List.nil_sublist _, le_rfl, .inl, id⟩
  | notifies | clearNotifies | stopNotifies | wakes =>
    refine ⟨List.Sublist.refl _, le_rfl, fun timed => .inl ?_, fun exited => ?_⟩
    · cases stands : q.worker <;> simp_all [Worker.inTimedWait, Worker.notified]
    · simp [exited, Worker.notified]
  | exits => exact ⟨List.Sublist.refl _, le_rfl, fun _ => .inr (.inl rfl), fun _ => rfl⟩
  | waitsUntil stands =>
    have top : q.worker = .top ∨ q.worker = .woken := by simpa [stopped] using stands
    refine ⟨List.Sublist.refl _, le_rfl, fun _ => .inl rfl, fun exited => ?_⟩
    simp [exited] at top
  | takes stands queue =>
    have top : q.worker = .top ∨ q.worker = .woken := by simpa [stopped] using stands
    refine ⟨by simp [queue], le_rfl, fun timed => ?_, fun exited => ?_⟩
    · obtain top | top := top <;> simp [top, Worker.inTimedWait] at timed
    · simp [exited] at top
  | executes stands | skips stands =>
    refine ⟨List.Sublist.refl _, le_rfl, fun timed => ?_, fun exited => ?_⟩
    · simp [stands, Worker.inTimedWait] at timed
    · simp [exited] at stands
  | finishes stands =>
    refine ⟨List.Sublist.refl _, le_rfl, fun timed => .inr (.inr ?_), fun exited => ?_⟩
    · obtain ⟨item, stands⟩ | ⟨-, empty⟩ := stands
      · simp [stands, Worker.inTimedWait] at timed
      · exact ⟨empty, by simp⟩
    · simp [exited] at stands
  | ticks elapsed => exact ⟨List.Sublist.refl _, Nat.le_add_right _ _, .inl, id⟩
  | _ => exact ⟨List.Sublist.refl _, le_rfl, .inl, id⟩

theorem NoneLeft.allDue (left : q.NoneLeft) : q.AllDue := by
  intro item mem
  rw [left.1] at mem
  cases mem

theorem Leaves.allDue_change {e : Event} (leaves : Leaves AllDue q) (onTime : q.StopsOnTime e)
    (change : Change calls q e r) : Leaves AllDue r := by
  intro stopped
  obtain before | ⟨rfl, idle, queue, worker, now⟩ := change.stopped_cases stopped
  · obtain ⟨fewer, later, timed, gone⟩ := change.after_stop before
    obtain waits | exited | due := leaves before
    · exact (timed waits).imp_right fun rest => rest.imp_right NoneLeft.allDue
    · exact .inr (.inl (gone exited))
    · exact .inr (.inr fun item mem => (due item (fewer.subset mem)).trans later)
  · obtain waits | due := onTime rfl idle
    · exact .inl (worker ▸ waits)
    · refine .inr (.inr fun item mem => ?_)
      rw [now]
      exact due item (queue ▸ mem)

theorem NoneLeft.change {e : Event} (left : q.NoneLeft) (stopped : q.stopped = true)
    (change : Change calls q e r) : r.NoneLeft := by
  obtain ⟨empty, item⟩ := left
  constructor
  · have fewer := (change.after_stop stopped).1
    rw [empty] at fewer
    exact List.sublist_nil.mp fewer
  · cases change with
    | takes _ queue => simp [empty] at queue
    | notifies | clearNotifies | stopNotifies | wakes => simpa [setPost, setClear] using item
    | waits | exits | waitsUntil | executes | skips | finishes => simp
    | _ => exact item

theorem Leaves.noneLeft_change {e : Event} (leaves : Leaves NoneLeft q) (empty : q.StopsEmpty e)
    (change : Change calls q e r) : Leaves NoneLeft r := by
  intro stopped
  obtain before | ⟨rfl, idle, queue, worker, -⟩ := change.stopped_cases stopped
  · obtain ⟨-, -, timed, gone⟩ := change.after_stop before
    obtain waits | exited | left := leaves before
    · exact timed waits
    · exact .inr (.inl (gone exited))
    · exact .inr (.inr (left.change before change))
  · obtain waits | ⟨nothing, item⟩ := empty rfl idle
    · exact .inl (worker ▸ waits)
    · exact .inr (.inr ⟨queue.trans nothing, worker ▸ item⟩)

theorem Change.stopped_log {e : Event} (change : Change calls q e r)
    (flagged : .stopped ∈ q.log → q.stopped = true) (mem : .stopped ∈ r.log) :
    r.stopped = true := by
  cases change with
  | stops => rfl
  | _ => exact flagged (by simpa [setPost, setClear] using mem)

theorem Leaves.no_wait {e : Event} (leaves : Leaves AllDue q)
    (flagged : .stopped ∈ q.log → q.stopped = true) (change : Change calls q e r)
    (never : ∀ deadline, ¬ Logs.After q.log (.waits deadline) .stopped) (deadline : Option Nat) :
    ¬ Logs.After r.log (.waits deadline) .stopped := by
  intro after
  cases change with
  | waits _ _ running =>
    obtain ⟨-, mem⟩ | after := Logs.after_cons.mp after
    · rw [flagged mem] at running
      cases running
    · exact never _ after
  | waitsUntil stands queue early =>
    obtain ⟨-, mem⟩ | after := Logs.after_cons.mp after
    · have top : q.worker = .top ∨ q.worker = .woken := by simpa [flagged mem] using stands
      obtain waits | exited | due := leaves (flagged mem)
      · obtain top | top := top <;> simp [top, Worker.inTimedWait] at waits
      · simp [exited] at top
      · exact absurd (due _ (queue ▸ List.mem_cons_self)) (Nat.not_le_of_lt early)
    · exact never _ after
  | begins | accepts | returns | clears | stops | executes | skips =>
    exact never _ (after.of_cons nofun)
  | _ => exact never _ after

theorem Leaves.no_start {e : Event} (leaves : Leaves NoneLeft q)
    (flagged : .stopped ∈ q.log → q.stopped = true) (change : Change calls q e r)
    (never : ∀ i time, ¬ Logs.After q.log (.executed i time) .stopped) (i time : Nat) :
    ¬ Logs.After r.log (.executed i time) .stopped := by
  intro after
  cases change with
  | executes stands =>
    obtain ⟨-, mem⟩ | after := Logs.after_cons.mp after
    · obtain waits | exited | ⟨-, nothing⟩ := leaves (flagged mem)
      · simp [stands, Worker.inTimedWait] at waits
      · simp [stands] at exited
      · simp [stands] at nothing
    · exact never _ _ after
  | begins | accepts | returns | clears | stops | waits | waitsUntil | skips =>
    exact never _ _ (after.of_cons nofun)
  | _ => exact never _ _ after

/-! The whole queue. -/

/-- The queue is as it was created, with its worker and no call yet. -/
def Starts (q : TaskQueue) : Prop := q = {}

def Moves (calls : Nat → Call) (q : TaskQueue) (e : Event) (r : TaskQueue) : Prop :=
  step calls q e = some r

/-- What the tasks and the waits of a run are like. -/
structure Orderly (calls : Nat → Call) (q : TaskQueue) : Prop where
  once : q.executed.Nodup
  due : ∀ i time, .executed i time ∈ q.log →
    ∃ executeTime ≤ time, .queued i executeTime ∈ q.log
  refused : ∀ i time, .returned i false ∈ q.log → .executed i time ∉ q.log
  inOrder : ∀ i j time, (calls i).delay = (calls j).delay →
    Logs.After q.log (.began j) (.returned i true) → .executed j time ∈ q.log →
    (∃ before, Logs.After q.log (.executed j time) (.executed i before)) ∨ q.Dropped calls i
  watched : q.Watched

theorem executed_sublist (log : List Entry) :
    (log.filterMap fun | .executed call _ => some call | _ => none).Sublist
      (log.flatMap Entry.calls) := by
  induction log with
  | nil => exact List.Sublist.refl _
  | cons entry rest ih =>
    cases entry with
    | executed call time => exact ih.cons_cons call
    | _ => exact ih.trans (List.sublist_append_right _ _)

theorem Ordered.orderly (ordered : Ordered calls q) (watched : q.Watched) :
    q.Orderly calls := by
  refine ⟨?_, ordered.sound.due, ?_, ?_, watched⟩
  · have nodup := ordered.sound.nodup
    exact nodup.of_append_right.sublist (executed_sublist q.log)
  · intro i time returned executed
    have accepted := (ordered.sound.posted i).mp (handed_of_executed executed)
    rw [ordered.sound.returns i false returned] at accepted
    cases accepted
  · intro i j time same after executed
    exact (ordered.inTurn i j ⟨same, after⟩).executed time executed

/-- What every step keeps. -/
structure Kept (calls : Nat → Call) (q : TaskQueue) : Prop where
  ordered : Ordered calls q
  watched : q.Watched
  flagged : .stopped ∈ q.log → q.stopped = true

theorem Kept.change {e : Event} (kept : Kept calls q) (change : Change calls q e r)
    (room : q.Room) : Kept calls r :=
  ⟨kept.ordered.change change room, kept.watched.change kept.ordered.sound change,
    change.stopped_log kept.flagged⟩

theorem kept_start : Kept calls {} := by
  refine ⟨⟨sound_start, ⟨?_, ?_, ?_⟩, ?_⟩, nofun, ?_⟩
  · simp
  · simp
  · simp
  · exact fun i j precedes => absurd precedes.2 Logs.not_after_nil
  · simp

/-- In every run the tasks are executed once, in time and in order, and a waiting worker misses
nothing. If `Stop` comes when all items are due, no wait begins after it, and if it comes when
none is left, no task does. -/
theorem executes_in_order :
    (Runs.Reachable Starts (Runs.Guarded (fun q e => q.Room ∧ q.StopsOnTime e) (Moves calls)) q →
      q.Orderly calls ∧ ∀ deadline, ¬ Logs.After q.log (.waits deadline) .stopped) ∧
    (Runs.Reachable Starts (Runs.Guarded (fun q e => q.Room ∧ q.StopsEmpty e) (Moves calls)) q →
      q.Orderly calls ∧ ∀ i time, ¬ Logs.After q.log (.executed i time) .stopped) := by
  constructor
  · intro reachable
    have held : Kept calls q ∧ Leaves AllDue q ∧
        ∀ deadline, ¬ Logs.After q.log (.waits deadline) .stopped := by
      induction reachable with
      | start first =>
        cases first
        exact ⟨kept_start, nofun, fun _ => Logs.not_after_nil⟩
      | next _ moved ih =>
        obtain ⟨e, ⟨room, onTime⟩, moved⟩ := moved
        obtain ⟨kept, leaves, never⟩ := ih
        have change := step_change moved
        exact ⟨kept.change change room, leaves.allDue_change onTime change,
          leaves.no_wait kept.flagged change never⟩
    exact ⟨held.1.ordered.orderly held.1.watched, held.2.2⟩
  · intro reachable
    have held : Kept calls q ∧ Leaves NoneLeft q ∧
        ∀ i time, ¬ Logs.After q.log (.executed i time) .stopped := by
      induction reachable with
      | start first =>
        cases first
        exact ⟨kept_start, nofun, fun _ _ => Logs.not_after_nil⟩
      | next _ moved ih =>
        obtain ⟨e, ⟨room, empty⟩, moved⟩ := moved
        obtain ⟨kept, leaves, never⟩ := ih
        have change := step_change moved
        exact ⟨kept.change change room, leaves.noneLeft_change empty change,
          leaves.no_start kept.flagged change never⟩
    exact ⟨held.1.ordered.orderly held.1.watched, held.2.2⟩

/-- The third call has a delay of five milliseconds, all others have none. -/
def someCalls : Nat → Call
  | 2 => ⟨.postDelayedTask 5, true⟩
  | _ => ⟨.postTask, true⟩

/-- The worker is stopped in its timed wait, with the task of the third call before it. -/
theorem executes_in_order_timed : ∃ q : TaskQueue,
    (q.Orderly someCalls ∧ ∀ deadline, ¬ Logs.After q.log (.waits deadline) .stopped) ∧
      (∀ i time, ¬ Logs.After q.log (.executed i time) .stopped) ∧
      Logs.After q.log (.executed 1 0) (.executed 0 0) ∧ q.worker = .exited ∧
      q.taskQueue.map TaskItem.call = [2] := by
  let events : List Event :=
    [.post 0, .post 0, .post 0, .post 0, .post 0, .post 1, .post 1, .post 1, .post 1, .post 2,
      .post 2, .post 2, .post 2, .work, .work, .work, .work, .work, .work, .work, .stop, .stop,
      .work]
  have onTime : ∃ q, Runs.run (fun q e => q.Room ∧ q.StopsOnTime e) (step someCalls) {} events =
      some q ∧ Runs.run (fun q e => q.Room ∧ q.StopsEmpty e) (step someCalls) {} events = some q ∧
      Logs.After q.log (.executed 1 0) (.executed 0 0) ∧ q.worker = .exited ∧
      q.taskQueue.map TaskItem.call = [2] := ⟨_, rfl, rfl, by decide, rfl, rfl⟩
  obtain ⟨q, onTime, empty, order, exited, left⟩ := onTime
  exact ⟨q, executes_in_order.1 (Runs.Reachable.run _ _ _ (.start rfl) onTime),
    (executes_in_order.2 (Runs.Reachable.run _ _ _ (.start rfl) empty)).2, order, exited, left⟩

/-- The flag is set while the first task runs: the worker then begins the second task, and a wait
of five milliseconds for the third. -/
theorem starts_after_stop : ∃ q : TaskQueue,
    Runs.Reachable Starts (Runs.Steps (Moves someCalls)) q ∧
      Logs.After q.log (.executed 1 0) .stopped ∧
      Logs.After q.log (.waits (some 5000000)) .stopped := by
  have ran : ∃ q, Runs.run (fun _ _ => True) (step someCalls) {}
      [.post 0, .post 0, .post 0, .post 0, .post 0, .work, .work, .post 1, .post 1, .post 1,
        .post 1, .post 2, .post 2, .post 2, .post 2, .stop, .stop, .work, .work, .work, .work,
        .work] = some q ∧ Logs.After q.log (.executed 1 0) .stopped ∧
      Logs.After q.log (.waits (some 5000000)) .stopped := ⟨_, rfl, by decide, by decide⟩
  obtain ⟨q, here, task, waits⟩ := ran
  exact ⟨q, Runs.Reachable.run _ _ _ (.start rfl) here, task, waits⟩

end TaskQueue
end MiniRtc.Common
