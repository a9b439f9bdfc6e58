import QubitConcurrent.FixedPool.Inner

/-!
# The threads of a fixed thread pool

Every thread of a fixed pool, step by step: its workers, and those who call `submit`,
`shutdown`, `shutdown_now`, `is_terminated` and `wait_for_termination`. A step is one atomic
operation, or one use of the monitor; what a thread does without touching anything shared is
part of the step before it. Where a thread stands, and what it has in its hands, is its phase.

A step is told three things it cannot know: who is reached by `notify_one`, how many jobs a
batch takes, and whether `compare_exchange_weak` fails for no reason.
-/

namespace QubitConcurrent

namespace FixedPool

open ThreadPool (RejectedExecution ShutdownReport usizeModulus)

/-- What a step cannot know. -/
structure Choice where
  /-- The thread that `notify_one` reaches. -/
  target : ℕ := 0
  /-- The number of jobs a batch takes with the first one, if there are as many. -/
  batch : ℕ := 0
  /-- Whether `compare_exchange_weak` fails for no reason. -/
  spurious : Bool := false

/-! ### The workers -/

/-- The steps of `cancel_claimed_job`. -/
inductive CancelStage
  /-- `queued_task_count.fetch_sub` is to come. -/
  | uncounting
  /-- `cancelled_task_count.fetch_add` is to come. -/
  | counting
  /-- `job.cancel()` is to come. -/
  | cancelling
  /-- `notify_all` is to come. -/
  | announcing
  deriving DecidableEq, Repr

/-- Where a worker stands. -/
inductive WorkerPhase
  /-- Before `activate`. -/
  | activating
  /-- At the beginning of `try_take_job`. -/
  | taking
  /-- Before `local.pop()`. -/
  | poppingLocal
  /-- Before `pop_inbox_into`. -/
  | poppingInbox
  /-- In `steal_global_job`, before the batch. -/
  | stealingBatch
  /-- In `steal_single_global_job`. -/
  | stealingSingle
  /-- In `steal_worker_job`, before the first victim. -/
  | choosing
  /-- Before it looks at the victim. -/
  | scanning (start offset : ℕ)
  /-- Before it steals from the deque of the victim. -/
  | stealingLocal (start offset : ℕ)
  /-- Before it steals from the inbox of the victim. -/
  | stealingInbox (start offset : ℕ)
  /-- It has claimed a batch, which is not in its deque yet. -/
  | publishing (job : Job) (batch : List Job) (spread : Bool)
  /-- Before it looks whether its deque is empty. -/
  | spreading (job : Job)
  /-- Before `notify_one`, with jobs left in its deque. -/
  | waking (job : Job)
  /-- At the beginning of `accept_claimed_job`. -/
  | accepting (job : Job)
  /-- In `mark_queued_job_running`, before `fetch_sub`. -/
  | marking (job : Job)
  /-- In `mark_queued_job_running`, before `fetch_add`. -/
  | markingRunning (job : Job)
  /-- In `job.run()`. -/
  | running (job : Job)
  /-- In `finish_running_job`, before `fetch_sub`. -/
  | finishing
  /-- In `finish_running_job`, before `completed_task_count.fetch_add`. -/
  | completing (last : Bool)
  /-- In `finish_running_job`, before it looks at `queued_task_count`. -/
  | settling
  /-- In `finish_running_job`, before `notify_all`. -/
  | announcing
  /-- In `cancel_claimed_job`, called by `accept_claimed_job` or for a job of the deque, or else
  with the jobs that are still to be cancelled after this one. -/
  | cancelling (stage : CancelStage) (job : Job) (rest : Option (List Job))
  /-- In `cancel_worker_jobs`, before `local.pop()`. -/
  | clearing
  /-- In `queue.drain()`, at the deque. -/
  | draining (jobs : List Job)
  /-- In `queue.drain()`, at the inbox. -/
  | drainingInbox (jobs : List Job)
  /-- In `wait_for_fixed_pool_work`, before the monitor is taken. -/
  | locking
  /-- With the monitor, at the head of the loop. -/
  | judging
  /-- In `Shutdown`, before the second look at `queued_task_count`. -/
  | rejudging
  /-- In `Shutdown`, before the look at `inflight_submissions`. -/
  | judgingInflight
  /-- Before `mark_fixed_worker_idle`, in `Shutdown` or in `Running`. -/
  | idling (orderly : Bool)
  /-- Marked idle, before the look at `queued_task_count`. -/
  | recheckingQueued (orderly : Bool)
  /-- Marked idle, before the look at `inflight_submissions`. -/
  | recheckingInflight
  /-- Marked idle, before the look at `pending_worker_wakes`. -/
  | recheckingPending (orderly : Bool)
  /-- About to wait. -/
  | parking
  /-- In `state.wait()`. -/
  | parked
  /-- Before `unmark_fixed_worker_idle`, on the way out or back to the head of the loop. -/
  | unmarking (again : Bool)
  /-- In `consume_pending_worker_wake`, before the load. -/
  | consuming (again : Bool)
  /-- In `consume_pending_worker_wake`, before the exchange. -/
  | consumingFrom (current : ℕ) (again : Bool)
  /-- Before the monitor is released, to look for jobs again or to exit. -/
  | unlocking (again : Bool)
  /-- In `worker_exited`, before `deactivate`. -/
  | deactivating
  /-- In `worker_exited`, before `live_workers` is lowered. -/
  | leaving
  /-- In `worker_exited`, before `notify_all`. -/
  | exiting
  /-- Gone. -/
  | exited
  deriving DecidableEq, Repr

namespace WorkerPhase

/-- The loop over the jobs drained by `cancel_worker_jobs`. -/
def cancelAll : List Job → WorkerPhase
  | [] => locking
  | job :: rest => cancelling .uncounting job (some rest)

/-- After `unmark_fixed_worker_idle`: `return true`, or back to the head of the loop. -/
def resumed (again : Bool) : WorkerPhase := if again then unlocking true else judging

/-- The next step of a worker. -/
def advance (s : Inner) (k : ℕ) (c : Choice) : WorkerPhase → Option (Inner × WorkerPhase)
  | activating => some (s.setActive k true, taking)
  | taking =>
    some (s, if s.stopNow then clearing
      else if s.useWorkerLocalQueues then poppingLocal else stealingSingle)
  | poppingLocal => s.claim (.localOf k) 0 poppingInbox fun job _ => accepting job
  | poppingInbox =>
    s.claim (.inboxOf k) c.batch stealingBatch fun job batch => publishing job batch false
  | stealingBatch =>
    s.claim .injector c.batch stealingSingle fun job batch => publishing job batch true
  | stealingSingle =>
    s.claim .injector 0 (if s.useWorkerLocalQueues then choosing else locking)
      fun job _ => accepting job
  | choosing => do
    let queue ← s.workerQueues[k]?
    if s.workerQueues.length ≤ 1 then return (s, locking)
    else return (s.bumpStealCursor k, scanning (queue.stealCursor % s.workerQueues.length) 0)
  | scanning start offset =>
    if offset < s.workerQueues.length then do
      let index := (start + offset) % s.workerQueues.length
      let victim ← s.workerQueues[index]?
      return (s, if index ≠ k ∧ victim.active then stealingLocal start offset
        else scanning start (offset + 1))
    else some (s, locking)
  | stealingLocal start offset =>
    s.claim (.localOf ((start + offset) % s.workerQueues.length)) c.batch
      (stealingInbox start offset) fun job batch => publishing job batch true
  | stealingInbox start offset =>
    s.claim (.inboxOf ((start + offset) % s.workerQueues.length)) c.batch
      (scanning start (offset + 1)) fun job batch => publishing job batch true
  | publishing job batch spread => do
    let s ← s.push (.localOf k) batch
    return (s, if spread then spreading job else accepting job)
  | spreading job => do
    let jobs ← s.jobsAt (.localOf k)
    return (s, if jobs = [] then accepting job else waking job)
  | waking job => do return (← s.notifyOne c.target, accepting job)
  | accepting job => some (s, if s.stopNow then cancelling .uncounting job none else marking job)
  | marking job =>
    some ({ s with queuedTaskCount := s.queuedTaskCount - 1 }, markingRunning job)
  | markingRunning job =>
    some ({ s with runningTaskCount := s.runningTaskCount + 1 }, running job)
  | running job => some ({ s with ran := s.ran ++ [job] }, finishing)
  | finishing =>
    some ({ s with runningTaskCount := s.runningTaskCount - 1 },
      completing (s.runningTaskCount == 1))
  | completing last =>
    some ({ s with completedTaskCount := s.completedTaskCount + 1 },
      if last then settling else taking)
  | settling => some (s, if s.queuedTaskCount = 0 then announcing else taking)
  | announcing => some (s.notifyAll, taking)
  | cancelling .uncounting job rest =>
    some ({ s with queuedTaskCount := s.queuedTaskCount - 1 }, cancelling .counting job rest)
  | cancelling .counting job rest =>
    some ({ s with cancelledTaskCount := s.cancelledTaskCount + 1 },
      cancelling .cancelling job rest)
  | cancelling .cancelling job rest =>
    some ({ s with cancelled := s.cancelled ++ [job] }, cancelling .announcing job rest)
  | cancelling .announcing _ rest => some (s.notifyAll, rest.elim clearing cancelAll)
  | clearing =>
    s.claim (.localOf k) 0 (draining []) fun job _ => cancelling .uncounting job none
  | draining jobs =>
    s.claim (.localOf k) 0 (drainingInbox jobs) fun job _ => draining (jobs ++ [job])
  | drainingInbox jobs =>
    s.claim (.inboxOf k) 0 (cancelAll jobs) fun job _ => drainingInbox (jobs ++ [job])
  | locking => do return (← s.lock k, judging)
  | judging =>
    some (s, match s.lifecycle with
      | .running => if 0 < s.queuedTaskCount then unlocking true else idling false
      | .shutdown => if 0 < s.queuedTaskCount then unlocking true else rejudging
      | .stopping => unlocking false)
  | rejudging => some (s, if s.queuedTaskCount = 0 then judgingInflight else idling true)
  | judgingInflight =>
    some (s, if s.inflightSubmissions = 0 then unlocking false else idling true)
  | idling orderly =>
    some ({ s with idleWorkers := s.idleWorkers + 1, idleWorkerCount := s.idleWorkerCount + 1 },
      recheckingQueued orderly)
  | recheckingQueued orderly =>
    some (s, if 0 < s.queuedTaskCount then unmarking (!orderly)
      else if orderly then recheckingInflight else recheckingPending false)
  | recheckingInflight =>
    some (s, if s.inflightSubmissions = 0 then unmarking false else recheckingPending true)
  | recheckingPending orderly =>
    some (s, if 0 < s.pendingWorkerWakes then unmarking (!orderly) else parking)
  | parking => some (s.park k, parked)
  | parked => do return (← s.unpark k, unmarking false)
  | unmarking again =>
    some ({ s with idleWorkers := s.idleWorkers - 1, idleWorkerCount := s.idleWorkerCount - 1 },
      consuming again)
  | consuming again =>
    some (s, if s.pendingWorkerWakes = 0 then resumed again
      else consumingFrom s.pendingWorkerWakes again)
  | consumingFrom current again =>
    if s.pendingWorkerWakes = current ∧ c.spurious = false then
      some ({ s with pendingWorkerWakes := s.pendingWorkerWakes - 1 }, resumed again)
    else
      some (s, if s.pendingWorkerWakes = 0 then resumed again
        else consumingFrom s.pendingWorkerWakes again)
  | unlocking again => some (s.unlock, if again then taking else deactivating)
  | deactivating => some (s.setActive k false, leaving)
  | leaving => if s.owner = none then some ({ s with liveWorkers := s.liveWorkers - 1 }, exiting)
      else none
  | exiting => some (s.notifyAll, exited)
  | exited => none

end WorkerPhase

/-! ### Those who submit -/

/-- Where a call of `submit` stands. -/
inductive SubmitPhase
  /-- In `begin_submit`, before the first look at `accepting`. -/
  | checking
  /-- In `begin_submit`, before `inflight_submissions.fetch_add`. -/
  | entering
  /-- In `begin_submit`, before the second look at `accepting`. -/
  | rechecking
  /-- In `begin_submit`, before `inflight_submissions.fetch_sub`. -/
  | retreating
  /-- In `begin_submit`, before `notify_all`. -/
  | retreatAnnouncing
  /-- In `reserve_queue_slot`, before the load or the `fetch_add`. -/
  | reserving
  /-- In `reserve_queue_slot`, before the exchange. -/
  | reservingFrom (current : ℕ)
  /-- Before the third look at `accepting`. -/
  | reverifying
  /-- In `rollback_queue_slot`. -/
  | unreserving
  /-- Accepted, before `submitted_task_count.fetch_add`. -/
  | counting
  /-- In `try_enqueue_to_worker`, with so many probes left. -/
  | probing (left : ℕ)
  /-- In `try_enqueue_to_worker`, before it looks at a worker. -/
  | probingActive (left index : ℕ)
  /-- Before the job is pushed. -/
  | pushing (place : Place)
  /-- In `wake_one_idle_worker`, before the look at `idle_worker_count`. -/
  | waking
  /-- In `wake_one_idle_worker`, before the look at `pending_worker_wakes`. -/
  | wakingPending (idleWorkers : ℕ)
  /-- In `wake_one_idle_worker`, before the exchange. -/
  | wakingFrom (pendingWakes : ℕ)
  /-- In `wake_one_idle_worker`, before `notify_one`. -/
  | wakingNotify
  /-- The guard is dropped: before `inflight_submissions.fetch_sub`. -/
  | dropping (result : Except RejectedExecution Unit)
  /-- The guard is dropped: before the look at `accepting`. -/
  | droppingLast (result : Except RejectedExecution Unit)
  /-- The guard is dropped: before `notify_all`. -/
  | droppingAnnounce (result : Except RejectedExecution Unit)
  /-- Returned. -/
  | returned (result : Except RejectedExecution Unit)
  deriving DecidableEq, Repr

/-- The next step of a submission. -/
def SubmitPhase.advance (s : Inner) (job : Job) (c : Choice) :
    SubmitPhase → Option (Inner × SubmitPhase)
  | checking => some (s, if s.accepting then entering else returned (.error .shutdown))
  | entering =>
    some ({ s with inflightSubmissions := s.inflightSubmissions + 1 }, rechecking)
  | rechecking => some (s, if s.accepting then reserving else retreating)
  | retreating =>
    some ({ s with inflightSubmissions := s.inflightSubmissions - 1 },
      if s.inflightSubmissions = 1 then retreatAnnouncing else returned (.error .shutdown))
  | retreatAnnouncing => some (s.notifyAll, returned (.error .shutdown))
  | reserving =>
    match s.queueCapacity with
    | some capacity =>
      some (s, if capacity ≤ s.queuedTaskCount then dropping (.error .saturated)
        else reservingFrom s.queuedTaskCount)
    | none => some ({ s with queuedTaskCount := s.queuedTaskCount + 1 }, reverifying)
  | reservingFrom current =>
    if s.queuedTaskCount = current then
      some ({ s with queuedTaskCount := current + 1 }, reverifying)
    else some (s, reserving)
  | reverifying => some (s, if s.accepting then counting else unreserving)
  | unreserving =>
    some ({ s with queuedTaskCount := s.queuedTaskCount - 1 }, dropping (.error .shutdown))
  | counting =>
    some ({ s with submittedTaskCount := s.submittedTaskCount + 1 },
      if s.useWorkerLocalQueues then probing (min s.workerQueues.length localEnqueueMaxProbes)
      else pushing .injector)
  | probing 0 => some (s, pushing .injector)
  | probing (left + 1) =>
    some ({ s with nextEnqueueWorker := (s.nextEnqueueWorker + 1) % usizeModulus },
      probingActive left (s.nextEnqueueWorker % s.workerQueues.length))
  | probingActive left index => do
    let queue ← s.workerQueues[index]?
    return (s, if queue.active then pushing (.inboxOf index) else probing left)
  | pushing place => do return (← s.push place [job], waking)
  | waking =>
    some (s, if s.idleWorkerCount = 0 then dropping (.ok ()) else wakingPending s.idleWorkerCount)
  | wakingPending idleWorkers =>
    some (s, if idleWorkers ≤ s.pendingWorkerWakes then dropping (.ok ())
      else wakingFrom s.pendingWorkerWakes)
  | wakingFrom pendingWakes =>
    if s.pendingWorkerWakes = pendingWakes ∧ c.spurious = false then
      some ({ s with pendingWorkerWakes := pendingWakes + 1 }, wakingNotify)
    else some (s, waking)
  | wakingNotify => do return (← s.notifyOne c.target, dropping (.ok ()))
  | dropping result =>
    some ({ s with inflightSubmissions := s.inflightSubmissions - 1 },
      if s.inflightSubmissions = 1 then droppingLast result else returned result)
  | droppingLast result =>
    some (s, if s.accepting then returned result else droppingAnnounce result)
  | droppingAnnounce result => some (s.notifyAll, returned result)
  | returned _ => none

/-! ### Those who shut down -/

/-- Where a call of `shutdown` stands. -/
inductive ShutdownPhase
  /-- Before `accepting.store`. -/
  | closing
  /-- Before the lifecycle is changed. -/
  | switching
  /-- Before `notify_all`. -/
  | announcing
  /-- Returned. -/
  | returned
  deriving DecidableEq, Repr

/-- The next step of a `shutdown`. -/
def ShutdownPhase.advance (s : Inner) : ShutdownPhase → Option (Inner × ShutdownPhase)
  | closing => some ({ s with accepting := false }, switching)
  | switching =>
    if s.owner = none then
      some ({ s with lifecycle := if s.lifecycle = .running then .shutdown else s.lifecycle },
        announcing)
    else none
  | announcing => some (s.notifyAll, returned)
  | returned => none

/-- Where a call of `shutdown_now` stands. -/
inductive ShutdownNowPhase
  /-- Before `accepting.store`. -/
  | closing
  /-- Before `stop_now.store`. -/
  | stopping
  /-- Before the look at `running_task_count`. -/
  | counting
  /-- Before the monitor is taken. -/
  | locking (running : ℕ)
  /-- With the monitor, before the look at `inflight_submissions`. -/
  | testing (running : ℕ)
  /-- About to wait. -/
  | parking (running : ℕ)
  /-- In `state.wait()`. -/
  | parked (running : ℕ)
  /-- Before the monitor is released. -/
  | unlocking (running : ℕ)
  /-- In `drain_visible_queued_jobs`, at a queue, with what was drained so far and how much
  that was at the beginning of the round. -/
  | draining (running : ℕ) (jobs : List Job) (previous : ℕ) (place : Place)
  /-- Before `queued_task_count.fetch_sub`. -/
  | uncounting (running : ℕ) (jobs : List Job)
  /-- Before `cancelled_task_count.fetch_add`. -/
  | countingCancelled (running : ℕ) (jobs : List Job)
  /-- In the loop over the drained jobs, with those still to be cancelled. -/
  | cancelling (running count : ℕ) (jobs : List Job)
  /-- Before `notify_all`. -/
  | announcing (running count : ℕ)
  /-- Returned. -/
  | returned (report : ShutdownReport)
  deriving DecidableEq, Repr

namespace ShutdownNowPhase

/-- After `drain_visible_queued_jobs`. -/
def drained (running : ℕ) : List Job → ShutdownNowPhase
  | [] => announcing running 0
  | job :: jobs => uncounting running (job :: jobs)

/-- `drain_visible_queued_jobs` after it has found a queue empty: at the next queue, or at the
end of a round. -/
def drainNext (running : ℕ) (jobs : List Job) (previous : ℕ) : Option Place → ShutdownNowPhase
  | some place => draining running jobs previous place
  | none =>
    if jobs.length = previous then drained running jobs
    else draining running jobs jobs.length .injector

/-- The next step of a `shutdown_now`. -/
def advance (s : Inner) (k : ℕ) : ShutdownNowPhase → Option (Inner × ShutdownNowPhase)
  | closing => some ({ s with accepting := false }, stopping)
  | stopping => some ({ s with stopNow := true }, counting)
  | counting => some (s, locking s.runningTaskCount)
  | locking running => do return ({ ← s.lock k with lifecycle := .stopping }, testing running)
  | testing running =>
    some (s, if 0 < s.inflightSubmissions then parking running else unlocking running)
  | parking running => some (s.park k, parked running)
  | parked running => do return (← s.unpark k, testing running)
  | unlocking running => some (s.unlock, draining running [] 0 .injector)
  | draining running jobs previous place =>
    s.claim place 0 (drainNext running jobs previous (s.nextPlace place))
      fun job _ => draining running (jobs ++ [job]) previous place
  | uncounting running jobs =>
    some ({ s with queuedTaskCount := s.queuedTaskCount - jobs.length },
      countingCancelled running jobs)
  | countingCancelled running jobs =>
    some ({ s with cancelledTaskCount := s.cancelledTaskCount + jobs.length },
      cancelling running jobs.length jobs)
  | cancelling running count [] => some (s, announcing running count)
  | cancelling running count (job :: jobs) =>
    some ({ s with cancelled := s.cancelled ++ [job] }, cancelling running count jobs)
  | announcing running count => some (s.notifyAll, returned ⟨count, running, count⟩)
  | returned _ => none

end ShutdownNowPhase

/-! ### Those who ask for the end -/

/-- Where a call of `is_terminated` or `wait_for_termination` stands. -/
inductive TerminationPhase
  /-- Before the monitor is taken, and the lifecycle and `live_workers` are looked at. -/
  | locking
  /-- Before the look at `queued_task_count`. -/
  | readingQueued
  /-- Before the look at `running_task_count`. -/
  | readingRunning
  /-- Before the look at `inflight_submissions`. -/
  | readingInflight
  /-- With an answer. -/
  | answering (terminated : Bool)
  /-- In `state.wait()`. -/
  | parked
  /-- Returned. -/
  | returned (terminated : Bool)
  deriving DecidableEq, Repr

namespace TerminationPhase

/-- The first two conjuncts of `is_terminated_locked`. -/
def judged (s : Inner) : TerminationPhase :=
  if s.lifecycle ≠ .running ∧ s.liveWorkers = 0 then readingQueued else answering false

/-- The next step of an `is_terminated`, or of a `wait_for_termination`, which waits. -/
def advance (s : Inner) (k : ℕ) (waits : Bool) :
    TerminationPhase → Option (Inner × TerminationPhase)
  | locking => do return (← s.lock k, judged s)
  | readingQueued => some (s, if s.queuedTaskCount = 0 then readingRunning else answering false)
  | readingRunning =>
    some (s, if s.runningTaskCount = 0 then readingInflight else answering false)
  | readingInflight => some (s, answering (s.inflightSubmissions == 0))
  | answering terminated =>
    if waits && !terminated then some (s.park k, parked)
    else some (s.unlock, returned terminated)
  | parked => do return (← s.unpark k, judged s)
  | returned _ => none

end TerminationPhase

/-! ### The pool -/

/-- A thread. -/
inductive Thread
  /-- A worker. -/
  | worker (phase : WorkerPhase)
  /-- Somebody submits a job. -/
  | submit (job : Job) (phase : SubmitPhase)
  /-- Somebody calls `shutdown`, or drops the pool. -/
  | shutdown (phase : ShutdownPhase)
  /-- Somebody calls `shutdown_now`. -/
  | shutdownNow (phase : ShutdownNowPhase)
  /-- Somebody calls `is_terminated`, or `wait_for_termination`. -/
  | termination (waits : Bool) (phase : TerminationPhase)
  deriving DecidableEq, Repr

/-- The next step of a thread. -/
def Thread.advance (s : Inner) (k : ℕ) (c : Choice) : Thread → Option (Inner × Thread)
  | worker phase => (phase.advance s k c).map fun r => (r.1, worker r.2)
  | submit job phase => (phase.advance s job c).map fun r => (r.1, submit job r.2)
  | shutdown phase => (phase.advance s).map fun r => (r.1, shutdown r.2)
  | shutdownNow phase => (phase.advance s k).map fun r => (r.1, shutdownNow r.2)
  | termination waits phase =>
    (phase.advance s k waits).map fun r => (r.1, termination waits r.2)

/-- The state of a run: what is shared, and the threads, workers first. -/
structure Pool where
  /-- What is shared. -/
  inner : Inner
  /-- The threads. -/
  threads : List Thread
  deriving DecidableEq, Repr

/-- The calls one can make. -/
inductive Call
  | submit | shutdown | shutdownNow | isTerminated | waitForTermination
  deriving DecidableEq, Repr

/-- The thread that makes a call, the `k`-th of them all. -/
def Call.thread (k : ℕ) : Call → Thread
  | submit => .submit k .checking
  | shutdown => .shutdown .closing
  | shutdownNow => .shutdownNow .closing
  | isTerminated => .termination false .locking
  | waitForTermination => .termination true .locking

/-- The steps of a run. -/
inductive Action
  /-- Somebody makes a call. -/
  | call (c : Call)
  /-- A thread goes on. -/
  | go (k : ℕ) (c : Choice)
  /-- A thread that waits wakes up for no reason. -/
  | wakeUp (k : ℕ)

/-- One step. -/
def step (p : Pool) : Action → Option Pool
  | .call c => some { p with threads := p.threads ++ [c.thread p.threads.length] }
  | .go k c => do
    let t ← p.threads[k]?
    let (inner, t') ← t.advance p.inner k c
    return { inner, threads := p.threads.set k t' }
  | .wakeUp k =>
    if k ∈ p.inner.waiters then
      some { p with inner := { p.inner with waiters := p.inner.waiters.erase k } }
    else none

/-- `n` steps in a row of the thread `k`, none of which has to choose. -/
def steps (n k : ℕ) : List Action := List.replicate n (.go k {})

/-- A fixed pool, of any size and capacity that the builder lets pass. -/
def machine : Machine Pool Action where
  init p := ∃ poolSize queueCapacity stackSize, validate poolSize queueCapacity stackSize = .ok () ∧
    p = ⟨.initial poolSize queueCapacity, List.replicate poolSize (.worker .activating)⟩
  step := step

/-- **The steps**: a call, a step of a thread, or a wake-up. -/
theorem step_cases {p p' : Pool} {a : Action} (h : step p a = some p') :
    (∃ c, a = .call c ∧ p' = { p with threads := p.threads ++ [c.thread p.threads.length] }) ∨
      (∃ k c t inner t', a = .go k c ∧ p.threads[k]? = some t ∧
        t.advance p.inner k c = some (inner, t') ∧ p' = ⟨inner, p.threads.set k t'⟩) ∨
      ∃ k, a = .wakeUp k ∧ k ∈ p.inner.waiters ∧
        p' = { p with inner := { p.inner with waiters := p.inner.waiters.erase k } } := by
  cases a with
  | call c => exact Or.inl ⟨c, rfl, (Option.some.inj h).symm⟩
  | go k c =>
    obtain ⟨t, ht, h⟩ := Option.bind_eq_some_iff.mp h
    obtain ⟨⟨inner, t'⟩, hadvance, h⟩ := Option.bind_eq_some_iff.mp h
    exact Or.inr (Or.inl ⟨k, c, t, inner, t', rfl, ht, hadvance, (Option.some.inj h).symm⟩)
  | wakeUp k =>
    simp only [step] at h
    split_ifs at h with hk
    exact Or.inr (Or.inr ⟨k, rfl, hk, (Option.some.inj h).symm⟩)

end FixedPool

end QubitConcurrent
