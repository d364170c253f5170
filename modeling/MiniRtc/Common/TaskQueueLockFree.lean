import MiniRtc.Lib.Runs

/-! The lock-free task queue, as the steps of its threads: one atomic load or store, one
operation of the queue, one step of the mutex or of the condition variable.
The queue may report that it is empty at any time, and may give out any of its items: the
library promises an order only for the items of one thread. -/
namespace MiniRtc.Common

namespace LockFree

inductive Thread where
  | post (i : Nat)
  | worker
  | stopper
deriving DecidableEq, Repr

/-- Where a call of `PostTask` stands. -/
inductive PostTask where
  | called
  | locking
  | locked
  | admitted
  | enqueued
  | counted
  | refused
  | unlocked
  | returned
deriving DecidableEq, Repr

namespace PostTask

/-- The call is inside the region of the mutex. -/
def holds : PostTask → Bool
  | locked | admitted | enqueued | counted | refused => true
  | _ => false

/-- The item of the call was given to the queue. -/
def handedOver : PostTask → Bool
  | enqueued | counted | unlocked | returned => true
  | _ => false

end PostTask

/-- Where the worker stands. From `checkingStop` to `blocked` it is in `cond_var_.wait`. -/
inductive Worker where
  | dequeuing
  | dequeued (i : Nat)
  | running (i : Nat)
  | locking
  | checkingStop
  | checkingPending
  | blocking
  | blocked
  | woken
  | satisfied
  | unlocking
  | leaving
  | exited
deriving DecidableEq, Repr

namespace Worker

def holds : Worker → Bool
  | checkingStop | checkingPending | blocking | satisfied | unlocking | leaving => true
  | _ => false

/-- The item that the worker took and has not executed yet. -/
def item : Worker → List Nat
  | dequeued i | running i => [i]
  | _ => []

/-- What a notification does to the worker. -/
def notified : Worker → Worker
  | blocked => woken
  | worker => worker

@[simp] theorem holds_notified (worker : Worker) : worker.notified.holds = worker.holds := by
  cases worker <;> rfl

@[simp] theorem item_notified (worker : Worker) : worker.notified.item = worker.item := by
  cases worker <;> rfl

theorem notified_ne_blocked (worker : Worker) : worker.notified ≠ .blocked := by
  cases worker <;> simp [notified]

@[simp] theorem notified_eq_blocking {worker : Worker} :
    worker.notified = .blocking ↔ worker = .blocking := by
  cases worker <;> simp [notified]

@[simp] theorem notified_eq_checkingPending {worker : Worker} :
    worker.notified = .checkingPending ↔ worker = .checkingPending := by
  cases worker <;> simp [notified]

end Worker

/-- Where the one call of `Stop` that sets the flag stands. -/
inductive Stop where
  | called
  | flagged
  | notified
  | swapping
  | joining
  | returned
deriving DecidableEq, Repr

namespace Stop

def holds : Stop → Bool
  | swapping => true
  | _ => false

/-- The flag is set. -/
def flags : Stop → Bool
  | called => false
  | _ => true

/-- `notify_all` is done. -/
def past : Stop → Bool
  | called | flagged => false
  | _ => true

theorem flags_of_past {stop : Stop} (past : stop.past = true) : stop.flags = true := by
  cases stop <;> first | rfl | cases past

end Stop

inductive Event where
  | post (i : Nat)
  | work (dequeued : Option Nat)
  | stop
deriving DecidableEq, Repr

def Event.thread : Event → Thread
  | .post i => .post i
  | .work _ => .worker
  | .stop => .stopper

end LockFree

open LockFree

/-- The members of the class that the threads share, and where every thread stands. -/
structure TaskQueueLockFree where
  stopFlag : Bool := false
  pendingTasks : Int := 0
  taskQueue : List Nat := []
  mutex : Option Thread := none
  posts : Nat → PostTask := fun _ => .called
  worker : Worker := .dequeuing
  stopper : Stop := .called
  executed : List Nat := []

namespace TaskQueueLockFree

/-- `fetch_add` of an `std::atomic<int>`. -/
def fetchAdd (pendingTasks n : Int) : Int := Int.bmod (pendingTasks + n) (2 ^ 32)

variable (carries : Nat → Bool)

def setPost (q : TaskQueueLockFree) (i : Nat) (post : PostTask) : TaskQueueLockFree :=
  { q with posts := Function.update q.posts i post }

/-- One step of the `i`-th call of `PostTask`; it may carry no task. -/
def postTask (q : TaskQueueLockFree) (i : Nat) : Option TaskQueueLockFree :=
  match q.posts i with
  | .called => some (q.setPost i (if carries i then .locking else .returned))
  | .locking =>
    if q.mutex = none then some { q.setPost i .locked with mutex := some (.post i) } else none
  | .locked => some (q.setPost i (if q.stopFlag then .refused else .admitted))
  | .admitted => some { q.setPost i .enqueued with taskQueue := q.taskQueue ++ [i] }
  | .enqueued => some { q.setPost i .counted with pendingTasks := fetchAdd q.pendingTasks 1 }
  | .counted => some { q.setPost i .unlocked with mutex := none }
  | .refused => some { q.setPost i .returned with mutex := none }
  | .unlocked => some { q.setPost i .returned with worker := q.worker.notified }
  | .returned => none

/-- One step of the worker. `dequeued` is what the next `try_dequeue` gives. -/
def workerThread (q : TaskQueueLockFree) (dequeued : Option Nat) : Option TaskQueueLockFree :=
  match q.worker with
  | .dequeuing =>
    match dequeued with
    | none => some { q with worker := .locking }
    | some i =>
      if i ∈ q.taskQueue then
        some { q with worker := .dequeued i, taskQueue := q.taskQueue.erase i }
      else none
  | .dequeued i =>
    some { q with
      worker := if carries i then .running i else .dequeuing
      pendingTasks := fetchAdd q.pendingTasks (-1) }
  | .running i => some { q with worker := .dequeuing, executed := i :: q.executed }
  | .locking | .woken =>
    if q.mutex = none then some { q with worker := .checkingStop, mutex := some .worker } else none
  | .checkingStop =>
    some { q with worker := if q.stopFlag then .satisfied else .checkingPending }
  | .checkingPending =>
    some { q with worker := if 0 < q.pendingTasks then .satisfied else .blocking }
  | .blocking => some { q with worker := .blocked, mutex := none }
  | .blocked => none
  | .satisfied => some { q with worker := if q.stopFlag then .leaving else .unlocking }
  | .unlocking => some { q with worker := .dequeuing, mutex := none }
  | .leaving => some { q with worker := .exited, mutex := none }
  | .exited => none

/-- One step of `Stop`. The flag is set and the worker notified without the mutex. -/
def stop (q : TaskQueueLockFree) : Option TaskQueueLockFree :=
  match q.stopper with
  | .called => some { q with stopper := .flagged, stopFlag := true }
  | .flagged => some { q with stopper := .notified, worker := q.worker.notified }
  | .notified =>
    if q.mutex = none then some { q with stopper := .swapping, mutex := some .stopper } else none
  | .swapping => some { q with stopper := .joining, mutex := none }
  | .joining => if q.worker = .exited then some { q with stopper := .returned } else none
  | .returned => none

def step (q : TaskQueueLockFree) : Event → Option TaskQueueLockFree
  | .post i => postTask carries q i
  | .work dequeued => workerThread carries q dequeued
  | .stop => stop q

/-- The thread is inside a region of the mutex. -/
def inside (q : TaskQueueLockFree) : Thread → Bool
  | .post i => (q.posts i).holds
  | .worker => q.worker.holds
  | .stopper => q.stopper.holds

/-- What a step of a thread may do to the mutex. -/
inductive Region (q r : TaskQueueLockFree) (t : Thread) : Prop where
  | keeps : r.inside t = q.inside t → r.mutex = q.mutex → Region q r t
  | enters : q.mutex = none → r.inside t = true → r.mutex = some t → Region q r t
  | leaves : q.inside t = true → r.inside t = false → r.mutex = none → Region q r t

def Exclusive (q : TaskQueueLockFree) : Prop := ∀ t, q.inside t = true ↔ q.mutex = some t

/-- The worker has ended, or can take a step, or waits for a thread that can. -/
def WorkerMoves (q : TaskQueueLockFree) : Prop :=
  q.worker = .exited ∨ (∃ dequeued, (step carries q (.work dequeued)).isSome = true) ∨
    ∃ e, q.mutex = some e.thread ∧ e.thread ≠ .worker ∧ (step carries q e).isSome = true

/-- `notify_all` does not come while the worker, which read the flag as not set, is between this
load and the wait with no task pending. -/
def Settled (q : TaskQueueLockFree) (e : Event) : Prop :=
  e = .stop → q.stopper = .flagged →
    q.worker ≠ .blocking ∧ (q.worker = .checkingPending → 0 < q.pendingTasks)

instance (q : TaskQueueLockFree) (e : Event) : Decidable (q.Settled e) :=
  inferInstanceAs (Decidable (_ → _ → _))

/-- The worker is blocked although `Stop` is past its notification. -/
def Hangs (q : TaskQueueLockFree) : Prop :=
  q.stopFlag = true ∧ q.stopper.past = true ∧ q.worker = .blocked

/-- The items in the queue, with the worker and executed. -/
def items (q : TaskQueueLockFree) : List Nat := q.taskQueue ++ q.worker.item ++ q.executed

/-- Every item is in one place, and comes from a call that gave it to the queue. -/
structure Once (q : TaskQueueLockFree) : Prop where
  nodup : q.items.Nodup
  posted : ∀ i ∈ q.items, (q.posts i).handedOver = true

/-- What holds in every run. -/
structure Sound (q : TaskQueueLockFree) : Prop where
  exclusive : q.Exclusive
  once : q.Once
  flag : q.stopper.flags = true → q.stopFlag = true

/-- After `notify_all` the worker neither waits nor is about to. -/
structure Woken (q : TaskQueueLockFree) : Prop where
  blocked : q.stopper.past = true → q.worker ≠ .blocked ∧ q.worker ≠ .blocking
  checking : q.stopper.past = true → q.worker = .checkingPending → 0 < q.pendingTasks

section Steps

variable {carries} {q r : TaskQueueLockFree}

@[simp] theorem setPost_posts (i j : Nat) (post : PostTask) :
    (q.setPost i post).posts j = if j = i then post else q.posts j := by
  simp [setPost, Function.update_apply]

@[simp] theorem setPost_mutex (i : Nat) (post : PostTask) : (q.setPost i post).mutex = q.mutex :=
  rfl

theorem postTask_others {i : Nat} (moved : postTask carries q i = some r) (u : Thread)
    (other : u ≠ .post i) : r.inside u = q.inside u := by
  cases stands : q.posts i <;> simp only [postTask, stands] at moved
  all_goals try split at moved
  all_goals cases moved
  all_goals cases u with
    | post j =>
      have apart : j ≠ i := fun same => other (congrArg Thread.post same)
      simp [inside, apart]
    | worker => simp [inside, setPost]
    | stopper => rfl

theorem postTask_region {i : Nat} (moved : postTask carries q i = some r) :
    Region q r (.post i) := by
  cases stands : q.posts i <;> simp only [postTask, stands] at moved
  case locking =>
    split at moved
    · rename_i free
      cases moved
      exact .enters free (by simp [inside, PostTask.holds]) rfl
    · cases moved
  case returned => cases moved
  case counted | refused =>
    cases moved
    exact .leaves (by simp [inside, stands, PostTask.holds]) (by simp [inside, PostTask.holds]) rfl
  all_goals
    cases moved
    refine .keeps ?_ rfl
    simp only [inside, setPost_posts, if_pos, stands]
    first | rfl | split <;> rfl

theorem workerThread_frame {dequeued : Option Nat}
    (moved : workerThread carries q dequeued = some r) :
    r.posts = q.posts ∧ r.stopper = q.stopper ∧ r.stopFlag = q.stopFlag := by
  cases stands : q.worker <;> simp only [workerThread, stands] at moved
  case dequeuing =>
    cases dequeued with
    | none => cases moved; exact ⟨rfl, rfl, rfl⟩
    | some i =>
      simp only at moved
      split at moved <;> cases moved
      exact ⟨rfl, rfl, rfl⟩
  case locking | woken =>
    split at moved <;> cases moved
    exact ⟨rfl, rfl, rfl⟩
  case blocked | exited => cases moved
  all_goals
    cases moved
    exact ⟨rfl, rfl, rfl⟩

theorem workerThread_region {dequeued : Option Nat}
    (moved : workerThread carries q dequeued = some r) : Region q r .worker := by
  cases stands : q.worker <;> simp only [workerThread, stands] at moved
  case dequeuing =>
    cases dequeued with
    | none => cases moved; exact .keeps (by simp [inside, stands, Worker.holds]) rfl
    | some i =>
      simp only at moved
      split at moved <;> cases moved
      exact .keeps (by simp [inside, stands, Worker.holds]) rfl
  case locking | woken =>
    split at moved
    · rename_i free
      cases moved
      exact .enters free rfl rfl
    · cases moved
  case blocking | unlocking | leaving =>
    cases moved
    exact .leaves (by simp [inside, stands, Worker.holds]) rfl rfl
  case blocked | exited => cases moved
  all_goals
    cases moved
    refine .keeps ?_ rfl
    simp only [inside, stands]
    first | rfl | split <;> rfl

theorem stop_region (moved : stop q = some r) : Region q r .stopper := by
  cases stands : q.stopper <;> simp only [stop, stands] at moved
  case notified =>
    split at moved
    · rename_i free
      cases moved
      exact .enters free rfl rfl
    · cases moved
  case swapping =>
    cases moved
    exact .leaves (by simp [inside, stands, Stop.holds]) rfl rfl
  case joining =>
    split at moved <;> cases moved
    exact .keeps (by simp [inside, stands, Stop.holds]) rfl
  case returned => cases moved
  all_goals
    cases moved
    exact .keeps (by simp [inside, stands, Stop.holds]) rfl

theorem stop_frame (moved : stop q = some r) :
    r.posts = q.posts ∧ r.pendingTasks = q.pendingTasks ∧ r.taskQueue = q.taskQueue ∧
      r.executed = q.executed ∧ (r.worker = q.worker ∨ r.worker = q.worker.notified) := by
  cases stands : q.stopper <;> simp only [stop, stands] at moved
  case notified | joining =>
    split at moved <;> cases moved
    simp
  case returned => cases moved
  all_goals
    cases moved
    simp

theorem step_region {e : Event} (moved : step carries q e = some r) :
    Region q r e.thread ∧ ∀ u ≠ e.thread, r.inside u = q.inside u := by
  cases e with
  | post i => exact ⟨postTask_region moved, postTask_others moved⟩
  | work dequeued =>
    refine ⟨workerThread_region moved, fun u other => ?_⟩
    obtain ⟨posts, stopper, -⟩ := workerThread_frame moved
    cases u with
    | post j => simp [inside, posts]
    | worker => exact absurd rfl other
    | stopper => simp [inside, stopper]
  | stop =>
    refine ⟨stop_region moved, fun u other => ?_⟩
    obtain ⟨posts, -, -, -, worker⟩ := stop_frame moved
    cases u with
    | post j => simp [inside, posts]
    | worker => obtain same | same := worker <;> simp [inside, same]
    | stopper => exact absurd rfl other

theorem Exclusive.step {e : Event} (exclusive : q.Exclusive)
    (moved : step carries q e = some r) : r.Exclusive := by
  intro t
  obtain ⟨region, others⟩ := step_region moved
  have before := exclusive t
  have own := exclusive e.thread
  by_cases same : t = e.thread
  · subst same
    cases region with
    | keeps inside mutex => rw [inside, mutex, before]
    | enters _ inside mutex => simp [inside, mutex]
    | leaves _ inside mutex => simp [inside, mutex]
  · rw [others t same, before]
    cases region with
    | keeps _ mutex => rw [mutex]
    | enters free _ mutex => simp [free, mutex, Ne.symm same]
    | leaves inside _ mutex =>
      rw [own.mp inside, mutex]
      simp [Ne.symm same]

theorem Once.fewer (once : q.Once) (fewer : List.Subperm r.items q.items)
    (posted : ∀ i, (q.posts i).handedOver = true → (r.posts i).handedOver = true) : r.Once := by
  constructor
  · obtain ⟨items, same, sub⟩ := fewer
    exact same.nodup_iff.mp (once.nodup.sublist sub)
  · intro i mem
    exact posted i (once.posted i (fewer.subset mem))

theorem postTask_handedOver {i : Nat} (moved : postTask carries q i = some r) (j : Nat)
    (handed : (q.posts j).handedOver = true) : (r.posts j).handedOver = true := by
  by_cases same : j = i
  · subst same
    cases stands : q.posts j <;> simp only [postTask, stands] at moved <;>
      simp [stands, PostTask.handedOver] at handed <;> cases moved <;>
      simp [PostTask.handedOver]
  · cases stands : q.posts i <;> simp only [postTask, stands] at moved
    all_goals try split at moved
    all_goals cases moved
    all_goals simpa [same] using handed

theorem postTask_items {i : Nat} (moved : postTask carries q i = some r) :
    r.items = q.items ∨
      q.posts i = .admitted ∧ (r.posts i).handedOver = true ∧ r.items.Perm (i :: q.items) := by
  cases stands : q.posts i <;> simp only [postTask, stands] at moved
  case admitted =>
    cases moved
    exact .inr ⟨rfl, by simp [PostTask.handedOver], by simp [items, setPost]⟩
  case locking =>
    split at moved <;> cases moved
    exact .inl rfl
  case unlocked =>
    cases moved
    exact .inl (by simp [items, setPost])
  case returned => cases moved
  all_goals
    cases moved
    exact .inl rfl

theorem Once.postTask {i : Nat} (once : q.Once) (moved : postTask carries q i = some r) :
    r.Once := by
  have handed := postTask_handedOver moved
  obtain same | ⟨admitted, own, perm⟩ := postTask_items moved
  · exact once.fewer (same ▸ List.Subperm.refl _) handed
  · have fresh : i ∉ q.items := by
      intro mem
      have handed := once.posted i mem
      simp [admitted, PostTask.handedOver] at handed
    constructor
    · exact perm.nodup_iff.mpr (once.nodup.cons fresh)
    · intro j mem
      obtain rfl | mem := List.mem_cons.mp (perm.subset mem)
      · exact own
      · exact handed j (once.posted j mem)

theorem workerThread_items {dequeued : Option Nat}
    (moved : workerThread carries q dequeued = some r) : List.Subperm r.items q.items := by
  cases stands : q.worker <;> simp only [workerThread, stands] at moved
  case dequeuing =>
    cases dequeued with
    | none =>
      cases moved
      simp [items, stands, Worker.item, List.Subperm.refl]
    | some i =>
      simp only at moved
      split at moved
      · rename_i mem
        cases moved
        have taken := (List.perm_cons_erase mem).symm
        have moved : (q.taskQueue.erase i ++ [i]).Perm q.taskQueue :=
          (List.perm_append_singleton i _).trans taken
        simpa [items, stands, Worker.item] using (moved.append_right q.executed).subperm
      · cases moved
  case dequeued i =>
    cases moved
    split
    · simp [items, stands, Worker.item, List.Subperm.refl]
    · have sub : List.Sublist (q.taskQueue ++ q.executed) (q.taskQueue ++ i :: q.executed) :=
        (List.sublist_cons_self i _).append_left _
      simpa [items, stands, Worker.item] using sub.subperm
  case running i =>
    cases moved
    simp [items, stands, Worker.item, List.Subperm.refl]
  case locking | woken =>
    split at moved <;> cases moved
    simp [items, stands, Worker.item, List.Subperm.refl]
  case blocked | exited => cases moved
  case checkingStop | checkingPending | satisfied =>
    cases moved
    split <;> simp [items, stands, Worker.item, List.Subperm.refl]
  all_goals
    cases moved
    simp [items, stands, Worker.item, List.Subperm.refl]

theorem Once.step {e : Event} (once : q.Once) (moved : step carries q e = some r) : r.Once := by
  cases e with
  | post i => exact once.postTask moved
  | work dequeued =>
    have posts := (workerThread_frame moved).1
    exact once.fewer (workerThread_items moved) fun i handed => posts ▸ handed
  | stop =>
    obtain ⟨posts, -, queue, executed, worker⟩ := stop_frame moved
    have same : r.items = q.items := by
      obtain same | same := worker <;> simp [items, queue, executed, same]
    constructor
    · rw [same]
      exact once.nodup
    · rw [same, posts]
      exact once.posted

theorem postTask_frame {i : Nat} (moved : postTask carries q i = some r) :
    r.stopper = q.stopper ∧ r.stopFlag = q.stopFlag ∧
      (r.worker = q.worker ∨ r.worker = q.worker.notified) ∧
      (r.pendingTasks = q.pendingTasks ∨ q.posts i = .enqueued) := by
  cases stands : q.posts i <;> simp only [postTask, stands] at moved
  case locking =>
    split at moved <;> cases moved
    simp [setPost]
  case returned => cases moved
  all_goals
    cases moved
    simp [setPost]

theorem Woken.postTask {i : Nat} (woken : q.Woken) (exclusive : q.Exclusive)
    (moved : postTask carries q i = some r) : r.Woken := by
  obtain ⟨stopper, -, worker, pending⟩ := postTask_frame moved
  constructor
  · rw [stopper]
    intro past
    obtain ⟨unblocked, settled⟩ := woken.blocked past
    obtain same | same := worker <;> rw [same]
    · exact ⟨unblocked, settled⟩
    · exact ⟨Worker.notified_ne_blocked _, by simpa using settled⟩
  · rw [stopper]
    intro past checks
    have checking : q.worker = .checkingPending := by
      obtain same | same := worker <;> simpa [same] using checks
    obtain same | enqueued := pending
    · rw [same]
      exact woken.checking past checking
    -- the worker and the call would both be inside the mutex
    · have mutex := (exclusive .worker).mp (by simp [inside, checking, Worker.holds])
      have other := (exclusive (.post i)).mp (by simp [inside, enqueued, PostTask.holds])
      rw [mutex] at other
      cases other

theorem Woken.workerThread {dequeued : Option Nat} (woken : q.Woken)
    (flag : q.stopper.flags = true → q.stopFlag = true)
    (moved : workerThread carries q dequeued = some r) : r.Woken := by
  obtain ⟨-, stopper, -⟩ := workerThread_frame moved
  have quiet : q.stopper.past = true → r.worker ≠ .blocked ∧ r.worker ≠ .blocking ∧
      r.worker ≠ .checkingPending := by
    intro past
    have set := flag (Stop.flags_of_past past)
    obtain ⟨unblocked, settled⟩ := woken.blocked past
    have checking := woken.checking past
    cases stands : q.worker <;> simp only [TaskQueueLockFree.workerThread, stands] at moved
    case dequeuing =>
      cases dequeued with
      | none => cases moved; simp
      | some i =>
        simp only at moved
        split at moved <;> cases moved
        simp
    case dequeued i =>
      cases moved
      split <;> simp
    case locking | woken =>
      split at moved <;> cases moved
      simp
    case checkingStop =>
      cases moved
      simp [set]
    case checkingPending =>
      cases moved
      simp [checking stands]
    case blocking => exact absurd stands settled
    case blocked => exact absurd stands unblocked
    case satisfied =>
      cases moved
      simp [set]
    case exited => cases moved
    all_goals
      cases moved
      simp
  constructor
  · rw [stopper]
    exact fun past => ⟨(quiet past).1, (quiet past).2.1⟩
  · rw [stopper]
    exact fun past checks => absurd checks (quiet past).2.2

theorem Woken.stop (woken : q.Woken) (settled : q.Settled .stop) (moved : stop q = some r) :
    r.Woken := by
  cases stands : q.stopper <;> simp only [TaskQueueLockFree.stop, stands] at moved
  case called =>
    cases moved
    constructor <;> simp [Stop.past]
  case flagged =>
    cases moved
    obtain ⟨blocking, checking⟩ := settled rfl stands
    constructor
    · exact fun _ => ⟨Worker.notified_ne_blocked _, by simpa using blocking⟩
    · exact fun _ checks => checking (by simpa using checks)
  case notified | joining =>
    split at moved <;> cases moved
    have past : q.stopper.past = true := by simp [stands, Stop.past]
    exact ⟨fun _ => woken.blocked past, fun _ => woken.checking past⟩
  case swapping =>
    cases moved
    have past : q.stopper.past = true := by simp [stands, Stop.past]
    exact ⟨fun _ => woken.blocked past, fun _ => woken.checking past⟩
  case returned => cases moved

theorem workerThread_isSome (unblocked : q.worker ≠ .blocked) (running : q.worker ≠ .exited)
    (enters : q.worker = .locking ∨ q.worker = .woken → q.mutex = none) :
    (workerThread carries q none).isSome = true := by
  cases stands : q.worker <;> simp only [workerThread, stands]
  case blocked => exact absurd stands unblocked
  case exited => exact absurd stands running
  case locking => simp [enters (.inl stands)]
  case woken => simp [enters (.inr stands)]
  all_goals rfl

theorem Exclusive.moves (exclusive : q.Exclusive) (unblocked : q.worker ≠ .blocked) :
    q.WorkerMoves carries := by
  by_cases exited : q.worker = .exited
  · exact .inl exited
  by_cases enters : q.worker = .locking ∨ q.worker = .woken → q.mutex = none
  · exact .inr (.inl ⟨none, workerThread_isSome unblocked exited enters⟩)
  · obtain ⟨stands, held⟩ := Classical.not_imp.mp enters
    obtain ⟨t, mutex⟩ := Option.ne_none_iff_exists'.mp held
    have inside := (exclusive t).mpr mutex
    cases t with
    | post i =>
      refine .inr (.inr ⟨.post i, mutex, nofun, ?_⟩)
      cases inRegion : q.posts i <;>
        simp [TaskQueueLockFree.inside, inRegion, PostTask.holds] at inside <;>
        simp [TaskQueueLockFree.step, TaskQueueLockFree.postTask, inRegion]
    | worker => obtain stands | stands := stands <;>
        simp [TaskQueueLockFree.inside, stands, Worker.holds] at inside
    | stopper =>
      refine .inr (.inr ⟨.stop, mutex, nofun, ?_⟩)
      cases inRegion : q.stopper <;>
        simp [TaskQueueLockFree.inside, inRegion, Stop.holds] at inside
      simp [TaskQueueLockFree.step, TaskQueueLockFree.stop, inRegion]

/-- The queue is as it was created, with its worker and no call yet. -/
def Starts (q : TaskQueueLockFree) : Prop := q = {}

def Moves (carries : Nat → Bool) (q : TaskQueueLockFree) (e : Event) (r : TaskQueueLockFree) :
    Prop := step carries q e = some r

theorem exclusive_start : Exclusive {} := by
  intro t
  cases t <;> simp [inside, PostTask.holds, Worker.holds, Stop.holds]

theorem sound_start : Sound {} :=
  ⟨exclusive_start, ⟨by simp [items, Worker.item], by simp [items, Worker.item]⟩, nofun⟩

theorem Sound.step {e : Event} (sound : q.Sound) (moved : step carries q e = some r) :
    r.Sound := by
  refine ⟨sound.exclusive.step moved, sound.once.step moved, ?_⟩
  cases e with
  | post i =>
    obtain ⟨stopper, flag, -⟩ := postTask_frame moved
    rw [stopper, flag]
    exact sound.flag
  | work dequeued =>
    obtain ⟨-, stopper, flag⟩ := workerThread_frame moved
    rw [stopper, flag]
    exact sound.flag
  | stop =>
    simp only [TaskQueueLockFree.step] at moved
    cases stands : q.stopper <;> simp only [stop, stands] at moved
    case called => cases moved; exact fun _ => rfl
    case notified | joining =>
      split at moved <;> cases moved
      exact fun _ => sound.flag (by simp [stands, Stop.flags])
    case returned => cases moved
    all_goals
      cases moved
      exact fun _ => sound.flag (by simp [stands, Stop.flags])

theorem Woken.step {e : Event} (woken : q.Woken) (sound : q.Sound) (settled : q.Settled e)
    (moved : step carries q e = some r) : r.Woken := by
  cases e with
  | post i => exact woken.postTask sound.exclusive moved
  | work dequeued => exact woken.workerThread sound.flag moved
  | stop => exact woken.stop settled moved

theorem sound_reachable (reachable : Runs.Reachable Starts (Runs.Steps (Moves carries)) q) :
    q.Sound := by
  refine reachable.invariant ?_ ?_
  · rintro q rfl
    exact sound_start
  · rintro q r sound ⟨e, -, moved⟩
    exact sound.step moved

/-- In every run in which the notification does not come just before the wait, the worker is never
left waiting, the join has a worker that moves, and no task is executed twice. -/
theorem stop_ends (reachable : Runs.Reachable Starts (Runs.Guarded Settled (Moves carries)) q) :
    ¬ q.Hangs ∧ (q.stopper.past = true → q.WorkerMoves carries) ∧ q.executed.Nodup := by
  have kept : q.Sound ∧ q.Woken := by
    induction reachable with
    | start first =>
      cases first
      exact ⟨sound_start, ⟨nofun, nofun⟩⟩
    | next _ moved ih =>
      obtain ⟨sound, woken⟩ := ih
      obtain ⟨e, settled, moved⟩ := moved
      exact ⟨sound.step moved, woken.step sound settled moved⟩
  obtain ⟨sound, woken⟩ := kept
  constructor
  · rintro ⟨-, past, waits⟩
    exact (woken.blocked past).1 waits
  constructor
  · intro past
    exact sound.exclusive.moves (woken.blocked past).1
  · have nodup := sound.once.nodup
    simp only [items, List.append_assoc] at nodup
    exact nodup.of_append_right.of_append_right

/-- A task is posted and executed, and the worker waits again before `Stop`. -/
theorem stop_ends_waiting : ∃ q : TaskQueueLockFree,
    (¬ q.Hangs ∧ (q.stopper.past = true → q.WorkerMoves fun _ => true) ∧ q.executed.Nodup) ∧
      q.executed = [4] ∧ q.stopper = .joining := by
  have ran : ∃ q, Runs.run Settled (step fun _ => true) {}
      [.post 4, .post 4, .post 4, .post 4, .post 4, .post 4, .post 4, .work (some 4), .work none,
        .work none, .work none, .work none, .work none, .work none, .work none, .stop, .stop,
        .stop, .stop] = some q ∧ q.executed = [4] ∧ q.stopper = .joining := ⟨_, rfl, rfl, rfl⟩
  obtain ⟨q, here, executed, joins⟩ := ran
  exact ⟨q, stop_ends (Runs.Reachable.run _ _ _ (.start rfl) here), executed, joins⟩

/-- A notification in the window is lost: the run goes on to a worker that waits for ever. -/
theorem hangs_of_unsettled
    (reachable : Runs.Reachable Starts (Runs.Steps (Moves carries)) q)
    (flagged : q.stopper = .flagged) (unsettled : ¬ q.Settled .stop) :
    ∃ r, Runs.Reachable Starts (Runs.Steps (Moves carries)) r ∧ r.Hangs := by
  have set : q.stopFlag = true := (sound_reachable reachable).flag (by simp [flagged, Stop.flags])
  have notified : Runs.Reachable Starts (Runs.Steps (Moves carries))
      { q with stopper := .notified, worker := q.worker.notified } :=
    reachable.then .stop (by simp [Moves, step, stop, flagged])
  -- both places of the window lead to the wait by steps of the worker alone
  by_cases stands : q.worker = .blocking
  · have waits := notified.then (.work none)
      (by simp only [Moves, step, workerThread, stands, Worker.notified]; rfl)
    exact ⟨_, waits, set, rfl, rfl⟩
  · have checking : q.worker = .checkingPending ∧ ¬ 0 < q.pendingTasks := by
      simp only [Settled, forall_const, flagged] at unsettled
      tauto
    have decided := notified.then (.work none)
      (by simp only [Moves, step, workerThread, checking, Worker.notified]; rfl)
    have waits := decided.then (.work none)
      (by simp only [Moves, step, workerThread, if_false]; rfl)
    exact ⟨_, waits, set, rfl, rfl⟩

theorem stop_hangs : ¬ ∀ (carries : Nat → Bool) (q : TaskQueueLockFree),
    Runs.Reachable Starts (Runs.Steps (Moves carries)) q →
      ¬ q.Hangs ∧ (q.stopper.past = true → q.WorkerMoves carries) ∧ q.executed.Nodup := by
  intro never
  have ran : ∃ q, Runs.run (fun _ _ => True) (step fun _ => true) {}
      [.work none, .work none, .work none, .stop, .stop, .work none, .work none] = some q ∧
        q.Hangs := ⟨_, rfl, rfl, rfl, rfl⟩
  obtain ⟨q, here, hangs⟩ := ran
  exact (never _ q (Runs.Reachable.run _ _ _ (.start rfl) here)).1 hangs

end Steps

end TaskQueueLockFree
end MiniRtc.Common
