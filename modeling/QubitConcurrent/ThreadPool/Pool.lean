import QubitConcurrent.ThreadPool.State

/-!
# A pool among its threads

What a run of a `ThreadPool` is made of: the state behind the monitor, the
registered worker queues, and the threads that act on them – the workers the
pool has spawned, and the calls its users have in progress.

A thread is where its program stands. Between two critical sections of the
monitor nothing a thread does is visible to the others, so the program points
that matter are few: a worker holds a job, is inside its callback, is back from
it, is about to look for work, or is parked on the condition variable; a call
has replied, or still owes something it does after releasing the monitor – a
notification, a cancel callback.

A parked thread is *in the wait set* until something takes it out: a
notification, a timeout, or nothing at all (condition variables wake
spuriously). It then still has to reacquire the lock. The two are told apart by
the `wake` argument of `QubitConcurrent.ThreadPool.WorkerPhase.waiting`, which
is `none` exactly while the thread can still be notified.
-/

namespace QubitConcurrent

namespace ThreadPool

/-- How a timed wait ended. -/
inductive WaitTimeoutStatus
  /-- Before the timeout. -/
  | woken
  /-- At the timeout. -/
  | timedOut
  deriving DecidableEq, Repr

/-- `ShutdownReport`. -/
structure ShutdownReport where
  /-- Tasks still queued at the request. -/
  queued : ℕ
  /-- Tasks running at the request. -/
  running : ℕ
  /-- Tasks for which cancellation was requested. -/
  cancelled : ℕ
  deriving DecidableEq, Repr

variable {Job : Type}

/-! ### Workers -/

/-- Where a worker thread stands in `run_worker`. -/
inductive WorkerPhase (Job : Type)
  /-- Has a first or a claimed job, and has not called it yet. -/
  | holding (job : Job)
  /-- Inside `job.run()`. -/
  | running (job : Job)
  /-- Back from `job.run()`, `finish_running_job` still to come. -/
  | finishing (job : Job)
  /-- About to enter `wait_for_job`. -/
  | ready
  /-- Inside `wait` or, with a timeout, inside `wait_timeout`. Once `wake` is
  set the thread has left the wait set and only has to reacquire the lock. -/
  | waiting (timeout : Option Duration) (wake : Option WaitTimeoutStatus)
  /-- Returned from `run_worker`. -/
  | exited
  /-- Left `run_worker` by unwinding. -/
  | unwound
  /-- Registered, and never created: `thread::Builder::spawn` has panicked. -/
  | unborn
  deriving DecidableEq, Repr

namespace WorkerPhase

/-- The job in a worker's hands. -/
def held : WorkerPhase Job → List Job
  | holding job | running job | finishing job => [job]
  | _ => []

/-- Whether the worker holds a job it has not yet accounted as finished. -/
def isBusy : WorkerPhase Job → Bool
  | holding _ | running _ | finishing _ => true
  | _ => false

/-- Whether the worker is inside a wait, woken up or not. -/
def isWaiting : WorkerPhase Job → Bool
  | waiting _ _ => true
  | _ => false

/-- Whether the worker is in the wait set: parked, and not woken up. -/
def isParked : WorkerPhase Job → Bool
  | waiting _ none => true
  | _ => false

/-- Whether the worker has not unregistered itself. -/
def isLive : WorkerPhase Job → Bool
  | exited => false
  | _ => true

/-- Whether the loop of the worker has ended, one way or the other, or was never
begun. -/
def hasEnded : WorkerPhase Job → Bool
  | exited | unwound | unborn => true
  | _ => false

/-- Taken out of the wait set by a notification. -/
def wake : WorkerPhase Job → WorkerPhase Job
  | waiting timeout none => waiting timeout (some .woken)
  | phase => phase

end WorkerPhase

/-- A worker: its index, the name its thread was given, and where it stands. -/
structure Worker (Job : Type) where
  /-- The index the worker is known by. -/
  index : ℕ
  /-- The name of its thread. -/
  name : String
  /-- Where it stands. -/
  phase : WorkerPhase Job
  deriving DecidableEq, Repr

/-- Taken out of the wait set by a notification. -/
def Worker.wake (w : Worker Job) : Worker Job := { w with phase := w.phase.wake }

/-! ### Calls -/

/-- What a call on the pool returned. -/
inductive Reply
  /-- `submit`, `submit_job`. -/
  | submit (result : Except RejectedExecution Unit)
  /-- `prestart_core_thread`. -/
  | prestartCoreThread (result : Except RejectedExecution Bool)
  /-- `prestart_all_core_threads`. -/
  | prestartAllCoreThreads (result : Except RejectedExecution ℕ)
  /-- `set_core_pool_size`, `set_maximum_pool_size`, `set_keep_alive` and
  `allow_core_thread_timeout`. -/
  | setter (result : Except ThreadPoolBuildError Unit)
  /-- `shutdown`. -/
  | shutdown
  /-- `shutdown_now`. -/
  | shutdownNow (report : ShutdownReport)
  /-- `is_terminated`. -/
  | isTerminated (answer : Bool)
  /-- `wait_for_termination`. -/
  | waitForTermination
  /-- The call left by a panic. -/
  | panicked (message : String)

/-- A call some thread has made on the pool: what it still has to do after its
critical section, or what it returned. -/
inductive Call (Job : Type)
  /-- `submit` has enqueued its job and released the monitor; `notify_one` is
  still to come. -/
  | submitNotify
  /-- `submit` has taken its job back; `job.cancel()` is still to come, or in
  progress. -/
  | submitRollback (job : Job) (error : RejectedExecution) (invoked : Bool)
  /-- A setter has written its value; `notify_all` is still to come. -/
  | setterNotify
  /-- `prestart_all_core_threads` between two rounds of its loop. -/
  | prestartAll (started : ℕ)
  /-- `shutdown_now` has drained the queues; `jobs` are still to be cancelled,
  and `current` is the one whose cancel callback is in progress. -/
  | shutdownNow (jobs : List Job) (current : Option Job) (report : ShutdownReport)
  /-- A cancel callback has unwound out of `shutdown_now`. Of the drained `jobs`
  the first is the one it was invoked for, and the others were dropped. -/
  | shutdownNowUnwound (jobs : List Job) (message : String)
  /-- `wait_for_termination` inside its wait, woken up or not. -/
  | waitForTermination (woken : Bool)
  /-- Returned. -/
  | returned (reply : Reply)

namespace Call

/-- The drained jobs a call of `shutdown_now` has not finished cancelling – or
never will, since a panic has ended it. -/
def drained : Call Job → List Job
  | shutdownNow jobs current _ => current.toList ++ jobs
  | shutdownNowUnwound jobs _ => jobs
  | _ => []

/-- Whether the call is a `submit` that still owes its `notify_one`. -/
def owesNotifyOne : Call Job → Bool
  | submitNotify => true
  | _ => false

/-- Whether the caller is in the wait set: parked, and not woken up. -/
def isParked : Call Job → Bool
  | waitForTermination woken => !woken
  | _ => false

/-- Whether the call is one of `shutdown_now`, in progress or ended. -/
def isShutdownNow : Call Job → Bool
  | shutdownNow _ _ _ | shutdownNowUnwound _ _ | returned (.shutdownNow _) => true
  | _ => false

/-- Taken out of the wait set by a notification. -/
def wake : Call Job → Call Job
  | waitForTermination _ => waitForTermination true
  | call => call

end Call

/-! ### The ledger

What has happened to the jobs so far. The pool keeps none of this: the lists
record, in order, which jobs met which event, so that statements about a whole
run can be made about the state it ends in. -/

/-- The events of a run, job by job. -/
structure Ledger (Job : Type) where
  /-- Handed to `submit`. -/
  presented : List Job
  /-- Accepted: `submit` returned `Ok`, or is bound to, or has left its job in a
  queue when it panicked. -/
  accepted : List Job
  /-- Taken from a queue by a worker. -/
  claimed : List Job
  /-- The run callback was invoked. -/
  runInvoked : List Job
  /-- The run callback returned. -/
  runReturned : List Job
  /-- The run callback unwound. -/
  runUnwound : List Job
  /-- `finish_running_job` was executed for the job. -/
  completed : List Job
  /-- `finish_running_job` panicked for the job. -/
  abandoned : List Job
  /-- `shutdown_now` invoked the cancel callback. -/
  cancelInvoked : List Job
  /-- The cancel callback `shutdown_now` invoked returned. -/
  cancelReturned : List Job
  /-- A failed `submit` invoked the cancel callback. -/
  rollbackInvoked : List Job
  /-- The cancel callback a failed `submit` invoked returned. -/
  rollbackReturned : List Job

/-- The ledger of a run that has not started. -/
def Ledger.empty : Ledger Job := ⟨[], [], [], [], [], [], [], [], [], [], [], []⟩

/-! ### The pool -/

/-- A pool and the threads around it. -/
structure Pool (Job : Type) where
  /-- What the monitor protects. -/
  state : ThreadPoolState Job
  /-- The registered worker queues. -/
  workerQueues : List (WorkerQueue Job)
  /-- The round-robin cursor. -/
  nextEnqueueWorker : ℕ
  /-- What worker threads are named after. -/
  threadNamePrefix : String
  /-- Stack size of worker threads, if one was asked for. -/
  stackSize : Option ℕ
  /-- The workers spawned so far. -/
  workers : List (Worker Job)
  /-- The calls made so far. -/
  calls : List (Call Job)
  /-- What has happened to the jobs so far. -/
  ledger : Ledger Job

namespace Pool

/-- `ThreadPoolInner::new`, before any thread has touched the pool. -/
def new (config : ThreadPoolConfig) : Pool Job where
  state := .new config
  workerQueues := []
  nextEnqueueWorker := 0
  threadNamePrefix := config.threadNamePrefix
  stackSize := config.stackSize
  workers := []
  calls := []
  ledger := .empty

/-- `notify_all` on the condition variable: everyone in the wait set leaves
it. -/
def wakeAll (s : Pool Job) : Pool Job :=
  { s with workers := s.workers.map Worker.wake, calls := s.calls.map Call.wake }

/-- The jobs waiting in some queue. -/
def queuedJobs (s : Pool Job) : List Job :=
  s.state.queue ++ s.workerQueues.flatMap WorkerQueue.jobs

/-- The jobs in the hands of workers. -/
def heldJobs (s : Pool Job) : List Job := s.workers.flatMap fun w => w.phase.held

/-- The drained jobs of the `shutdown_now` calls that are still cancelling
them, or have left them behind. -/
def drainedJobs (s : Pool Job) : List Job := s.calls.flatMap Call.drained

/-- The jobs the pool is done with. -/
def finishedJobs (s : Pool Job) : List Job :=
  s.ledger.completed ++ s.ledger.runUnwound ++ s.ledger.abandoned ++ s.ledger.cancelReturned

/-- The number of workers whose phase is as asked. -/
def countWorkers (p : WorkerPhase Job → Bool) (s : Pool Job) : ℕ :=
  s.workers.countP fun w => p w.phase

end Pool

end ThreadPool

end QubitConcurrent
