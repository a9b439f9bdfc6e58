import QubitConcurrent.Lib.History
import QubitConcurrent.ThreadPool.Pool

/-!
# The shared state of a fixed thread pool

`FixedThreadPoolInner`: a monitor over the lifecycle and two counters, and beside it a number
of atomics and queues that every thread reads and writes on its own. The queues are the
global injector and, for each worker, a deque and an inbox; a `Place` is one of them.

Whoever waits on the condition variable of the monitor is in `waiters`. A notification takes
them out, one of them or all.
-/

namespace QubitConcurrent

namespace FixedPool

open ThreadPool (usizeModulus ThreadPoolBuildError)

/-- A job: the number of the thread that has submitted it. -/
abbrev Job := ℕ

/-- `LOCAL_ENQUEUE_MAX_PROBES`. -/
def localEnqueueMaxProbes : ℕ := 4

/-- `LOCAL_QUEUE_WORKER_LIMIT`. -/
def localQueueWorkerLimit : ℕ := 4

/-- `FixedThreadPoolLifecycle`. -/
inductive Lifecycle
  /-- The pool takes jobs. -/
  | running
  /-- The pool takes no jobs, and works off those it has. -/
  | shutdown
  /-- The pool takes no jobs, and cancels those it has. -/
  | stopping
  deriving DecidableEq, Repr

/-- The queues of a worker, and its own cursor. -/
structure WorkerQueue where
  /-- The deque of the worker, which others steal from. -/
  localQueue : List Job
  /-- The inbox. -/
  inbox : List Job
  /-- Whether jobs may be sent to the worker. -/
  active : Bool
  /-- The worker to steal from first. -/
  stealCursor : ℕ
  deriving DecidableEq, Repr

/-- One of the queues. -/
inductive Place
  /-- The global injector. -/
  | injector
  /-- The deque of a worker. -/
  | localOf (i : ℕ)
  /-- The inbox of a worker. -/
  | inboxOf (i : ℕ)
  deriving DecidableEq, Repr

/-- `FixedThreadPoolInner`, and the callbacks of jobs that were invoked so far. -/
structure Inner where
  /-- `pool_size`. -/
  poolSize : ℕ
  /-- `queue_capacity`. -/
  queueCapacity : Option ℕ
  /-- The thread that holds the monitor. -/
  owner : Option ℕ
  /-- The threads that wait on the condition variable, and were not notified. -/
  waiters : List ℕ
  /-- `lifecycle`, under the monitor. -/
  lifecycle : Lifecycle
  /-- `live_workers`, under the monitor. -/
  liveWorkers : ℕ
  /-- `idle_workers`, under the monitor. -/
  idleWorkers : ℕ
  /-- `accepting`. -/
  accepting : Bool
  /-- `stop_now`. -/
  stopNow : Bool
  /-- `inflight_submissions`. -/
  inflightSubmissions : ℕ
  /-- `idle_worker_count`. -/
  idleWorkerCount : ℕ
  /-- `pending_worker_wakes`. -/
  pendingWorkerWakes : ℕ
  /-- `global_queue`. -/
  globalQueue : List Job
  /-- `worker_queues`. -/
  workerQueues : List WorkerQueue
  /-- `next_enqueue_worker`. -/
  nextEnqueueWorker : ℕ
  /-- `queued_task_count`. -/
  queuedTaskCount : ℕ
  /-- `running_task_count`. -/
  runningTaskCount : ℕ
  /-- `submitted_task_count`. -/
  submittedTaskCount : ℕ
  /-- `completed_task_count`. -/
  completedTaskCount : ℕ
  /-- `cancelled_task_count`. -/
  cancelledTaskCount : ℕ
  /-- The jobs that were run. -/
  ran : List Job
  /-- The jobs that were cancelled. -/
  cancelled : List Job
  deriving DecidableEq, Repr

namespace Inner

variable (s : Inner)

/-- The pool as `build` leaves it, with all its workers spawned. -/
def initial (poolSize : ℕ) (queueCapacity : Option ℕ) : Inner where
  poolSize := poolSize
  queueCapacity := queueCapacity
  owner := none
  waiters := []
  lifecycle := .running
  liveWorkers := poolSize
  idleWorkers := 0
  accepting := true
  stopNow := false
  inflightSubmissions := 0
  idleWorkerCount := 0
  pendingWorkerWakes := 0
  globalQueue := []
  workerQueues := (List.range poolSize).map fun index => ⟨[], [], false, index + 1⟩
  nextEnqueueWorker := 0
  queuedTaskCount := 0
  runningTaskCount := 0
  submittedTaskCount := 0
  completedTaskCount := 0
  cancelledTaskCount := 0
  ran := []
  cancelled := []

/-- `use_worker_local_queues`. -/
def useWorkerLocalQueues : Bool := s.poolSize ≤ localQueueWorkerLimit

/-! ### The queues -/

/-- The jobs in a queue, first come first: `none` where there is no such queue. -/
def jobsAt : Place → Option (List Job)
  | .injector => some s.globalQueue
  | .localOf i => s.workerQueues[i]?.map (·.localQueue)
  | .inboxOf i => s.workerQueues[i]?.map (·.inbox)

/-- The jobs in a queue are replaced. -/
def setJobsAt (jobs : List Job) : Place → Inner
  | .injector => { s with globalQueue := jobs }
  | .localOf i =>
    { s with workerQueues := s.workerQueues.modify i fun q => { q with localQueue := jobs } }
  | .inboxOf i =>
    { s with workerQueues := s.workerQueues.modify i fun q => { q with inbox := jobs } }

/-- Jobs are pushed to a queue. -/
def push (p : Place) (jobs : List Job) : Option Inner :=
  (s.jobsAt p).map fun old => s.setJobsAt (old ++ jobs) p

/-- The first job of a queue is taken, and up to `batch` others with it: where that leaves the
queue, and where it leads, depending on what was found. -/
def claim {φ : Type} (p : Place) (batch : ℕ) (empty : φ) (found : Job → List Job → φ) :
    Option (Inner × φ) :=
  (s.jobsAt p).map fun
    | [] => (s, empty)
    | job :: rest => (s.setJobsAt (rest.drop batch) p, found job (rest.take batch))

/-- All the jobs that are in a queue. -/
def queued : List Job :=
  s.globalQueue ++ s.workerQueues.flatMap fun q => q.localQueue ++ q.inbox

/-- The queue that `drain_visible_queued_jobs` looks at after another one. -/
def nextPlace : Place → Option Place
  | .injector => if s.workerQueues = [] then none else some (.localOf 0)
  | .localOf i => some (.inboxOf i)
  | .inboxOf i => if i + 1 < s.workerQueues.length then some (.localOf (i + 1)) else none

/-- `activate` and `deactivate`. -/
def setActive (i : ℕ) (active : Bool) : Inner :=
  { s with workerQueues := s.workerQueues.modify i fun q => { q with active } }

/-- `steal_cursor.set(current.wrapping_add(1))`. -/
def bumpStealCursor (i : ℕ) : Inner :=
  { s with
    workerQueues := s.workerQueues.modify i fun q =>
      { q with stealCursor := (q.stealCursor + 1) % usizeModulus } }

/-! ### The monitor -/

/-- The monitor is taken, where it is free. -/
def lock (k : ℕ) : Option Inner := if s.owner = none then some { s with owner := some k } else none

/-- The monitor is released. -/
def unlock : Inner := { s with owner := none }

/-- The monitor is released, and the thread waits on the condition variable. -/
def park (k : ℕ) : Inner := { s with owner := none, waiters := s.waiters ++ [k] }

/-- A thread that was notified takes the monitor again, where it is free. -/
def unpark (k : ℕ) : Option Inner := if k ∈ s.waiters then none else s.lock k

/-- `notify_one`: it is not said which of those who wait. -/
def notifyOne (target : ℕ) : Option Inner :=
  if s.waiters = [] then some s
  else if target ∈ s.waiters then some { s with waiters := s.waiters.erase target } else none

/-- `notify_all`. -/
def notifyAll : Inner := { s with waiters := [] }

end Inner

/-- `FixedThreadPoolBuilder::validate`. -/
def validate (poolSize : ℕ) (queueCapacity stackSize : Option ℕ) :
    Except ThreadPoolBuildError Unit :=
  if poolSize = 0 then .error .zeroMaximumPoolSize
  else if queueCapacity = some 0 then .error .zeroQueueCapacity
  else if stackSize = some 0 then .error .zeroStackSize
  else .ok ()

end FixedPool

end QubitConcurrent
