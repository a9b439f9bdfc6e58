import QubitConcurrent.ThreadPool.Pool

/-!
# The critical sections of the pool

The functions of `ThreadPoolInner` and of the worker loop, each as far as it runs
while holding the state monitor. What comes after the monitor is released – a
notification, a cancel callback – is left behind as a
`QubitConcurrent.ThreadPool.Call` and taken up by the machine.

The functions live in `EStateM`, whose failures keep the state: a Rust panic
drops the guard, the lock tolerates poisoning, and whatever the critical section
had written before is there for the next one to see. That can happen where one of
the four counters is decremented with `checked_sub(1).expect(..)`
(`QubitConcurrent.ThreadPool.checkedSub`), and where a worker thread is created:
`thread::Builder::spawn` panics on a name with an interior NUL.

How `thread::Builder::spawn` ends is not up to the pool: the functions that may
spawn take it as an argument.
-/

namespace QubitConcurrent

namespace ThreadPool

variable {Job : Type}

/-- Code that runs inside the monitor: it acts on the pool, and a panic carries
its message. -/
abbrev PoolM (Job : Type) := EStateM String (Pool Job)

/-- Write to the state behind the monitor. -/
def modifyState (f : ThreadPoolState Job → ThreadPoolState Job) : PoolM Job Unit :=
  modify fun s => { s with state := f s.state }

/-- Mapping the result of a critical section leaves the state it ends in
alone. -/
@[simp] theorem PoolM.run_map {α β : Type} (f : α → β) (m : PoolM Job α) (s : Pool Job) :
    (f <$> m).run s = match m.run s with
      | .ok a s' => .ok (f a) s'
      | .error e s' => .error e s' := by
  simp only [EStateM.run, Functor.map, EStateM.map]
  cases m s <;> rfl

/-- A panic ends a critical section where it stands. -/
@[simp] theorem PoolM.run_throw {α : Type} (message : String) (s : Pool Job) :
    (throw message : PoolM Job α).run s = .error message s := rfl

/-- `checked_sub(1).expect(message)`. -/
def checkedSub (n : ℕ) (message : String) : PoolM Job ℕ :=
  match n with
  | 0 => throw message
  | n + 1 => pure n

@[simp] theorem modifyState_run (f : ThreadPoolState Job → ThreadPoolState Job) (s : Pool Job) :
    (modifyState f).run s = .ok () { s with state := f s.state } := rfl

@[simp] theorem checkedSub_run_zero (message : String) (s : Pool Job) :
    (checkedSub 0 message).run s = .error message s := rfl

@[simp] theorem checkedSub_run_succ (n : ℕ) (message : String) (s : Pool Job) :
    (checkedSub (n + 1) message).run s = .ok n s := rfl

/-- A counter that is not zero is decremented. -/
theorem checkedSub_run_of_pos {n : ℕ} (h : 0 < n) (message : String) (s : Pool Job) :
    (checkedSub n message).run s = .ok (n - 1) s := by
  obtain ⟨m, rfl⟩ := Nat.exists_eq_succ_of_ne_zero h.ne'
  rfl

/-- `ThreadPoolInner::notify_if_terminated`. -/
def notifyIfTerminated : PoolM Job Unit := do
  if (← get).state.isTerminated then
    modify Pool.wakeAll

/-! ### Worker queues -/

/-- `register_worker_queue_locked`. -/
def registerWorkerQueueLocked (workerIndex : ℕ) : PoolM Job Unit :=
  modify fun s => { s with workerQueues := s.workerQueues ++ [.new workerIndex] }

/-- The registered queues without the one of a worker, and the jobs that were
left in it. -/
def removeQueue (workerIndex : ℕ) :
    List (WorkerQueue Job) → List Job × List (WorkerQueue Job)
  | [] => ([], [])
  | q :: queues =>
    if q.workerIndex = workerIndex then (q.jobs, queues)
    else
      let (jobs, queues') := removeQueue workerIndex queues
      (jobs, q :: queues')

/-- `remove_worker_queue_locked`: the jobs left in the removed queue. -/
def removeWorkerQueueLocked (workerIndex : ℕ) : PoolM Job (List Job) := do
  let (jobs, queues) := removeQueue workerIndex (← get).workerQueues
  modify fun s => { s with workerQueues := queues }
  return jobs

/-- `next_enqueue_worker.fetch_add(1)`: the cursor before the increment. -/
def fetchAddCursor : PoolM Job ℕ :=
  modifyGet fun s =>
    (s.nextEnqueueWorker, { s with nextEnqueueWorker := (s.nextEnqueueWorker + 1) % usizeModulus })

/-- `try_enqueue_worker_job_locked`: push the job on the queue the cursor picks;
`false` when no queue is registered. -/
def tryEnqueueWorkerJobLocked (job : Job) : PoolM Job Bool := do
  if (← get).workerQueues.isEmpty then
    return false
  let start ← fetchAddCursor
  modify fun s =>
    let slot := start % s.workerQueues.length
    { s with workerQueues := s.workerQueues.modify slot (·.pushBack job) }
  return true

/-- `worker_queue.pop_front()` on the queue the worker owns. -/
def popOwn (workerIndex : ℕ) :
    List (WorkerQueue Job) → Option (Job × List (WorkerQueue Job))
  | [] => none
  | q :: queues =>
    if q.workerIndex = workerIndex then
      q.stealOne.map fun (job, q') => (job, q' :: queues)
    else
      (popOwn workerIndex queues).map fun (job, queues') => (job, q :: queues')

/-- The probing loop of `try_steal_job_locked`, over the offsets still to be
tried: the job of the first victim that has one, and the queues without it. -/
def probeVictims (workerIndex start : ℕ) (queues : List (WorkerQueue Job)) :
    List ℕ → Option (Job × List (WorkerQueue Job))
  | [] => none
  | offset :: offsets =>
    let slot := (start + offset) % queues.length
    match queues[slot]? with
    | none => none
    | some victim =>
      if victim.workerIndex = workerIndex then probeVictims workerIndex start queues offsets
      else
        match victim.stealOne with
        | some (job, victim') => some (job, queues.set slot victim')
        | none => probeVictims workerIndex start queues offsets

/-- `try_steal_job_locked`. -/
def tryStealJobLocked (workerIndex : ℕ) : PoolM Job (Option Job) := do
  let queueCount := (← get).workerQueues.length
  if queueCount ≤ 1 then
    return none
  let start := (← fetchAddCursor) % queueCount
  match probeVictims workerIndex start (← get).workerQueues (List.range queueCount) with
  | none => return none
  | some (job, queues) =>
    modify fun s => { s with workerQueues := queues }
    return some job

/-- What taking a job does to the counters. -/
def accountClaim : PoolM Job Unit := do
  let queued ← checkedSub (← get).state.queuedTasks "thread pool queued task counter underflow"
  modifyState fun st => { st with queuedTasks := queued, runningTasks := st.runningTasks + 1 }

/-- `try_take_queued_job_locked`: the worker's own queue first, then the others',
then the global one. Unbounded pools only ever use the global queue. -/
def tryTakeQueuedJobLocked (workerIndex : ℕ) : PoolM Job (Option Job) := do
  if (← get).state.queueCapacity.isSome then
    match popOwn workerIndex (← get).workerQueues with
    | some (job, queues) =>
      modify fun s => { s with workerQueues := queues }
      accountClaim
      return some job
    | none =>
      if let some job ← tryStealJobLocked workerIndex then
        accountClaim
        return some job
  match (← get).state.queue with
  | job :: queue =>
    modifyState fun st => { st with queue := queue }
    accountClaim
    return some job
  | [] => return none

/-! ### Spawning -/

/-- How `thread::Builder::spawn` ends. -/
inductive SpawnOutcome
  /-- The thread was created. -/
  | ok
  /-- It was not, for want of resources. -/
  | error (source : IoError)
  /-- It was not, and the call has panicked, as it does over a NUL in the name. -/
  | panicked (message : String)

/-- A worker and the name of its thread, written down where it starts. -/
def addWorker (index : ℕ) (phase : WorkerPhase Job) : PoolM Job Unit :=
  modify fun s =>
    { s with workers := s.workers ++
        [{ index := index
           name := s.threadNamePrefix ++ "-" ++ toString index
           phase := phase }] }

/-- `spawn_worker_locked`; `spawned` is how `thread::Builder::spawn` ends. A panic
drops the first task with the closure it was moved into, and takes nothing back. -/
def spawnWorkerLocked (firstTask : Option Job) (spawned : SpawnOutcome) :
    PoolM Job (Except RejectedExecution Unit) := do
  let index := (← get).state.nextWorkerIndex
  modifyState fun st => { st with nextWorkerIndex := index + 1, liveWorkers := st.liveWorkers + 1 }
  if firstTask.isSome then
    modifyState fun st => { st with runningTasks := st.runningTasks + 1 }
  registerWorkerQueueLocked index
  match spawned with
  | .ok =>
    addWorker index (firstTask.elim .ready .holding)
    return .ok ()
  | .panicked message =>
    addWorker index .unborn
    throw message
  | .error source =>
    let _ ← removeWorkerQueueLocked index
    let live ← checkedSub (← get).state.liveWorkers "thread pool live worker counter underflow"
    modifyState fun st => { st with liveWorkers := live }
    -- whether or not a first task was counted above
    if (← get).state.runningTasks > 0 then
      modifyState fun st => { st with runningTasks := st.runningTasks - 1 }
    notifyIfTerminated
    return .error (.workerSpawnFailed source)

/-! ### Submission and prestart -/

/-- The branches of `submit` that hand the job to a new worker. -/
def submitToNewWorker (job : Job) (spawned : SpawnOutcome) : PoolM Job (Call Job) := do
  match ← spawnWorkerLocked (some job) spawned with
  | .error error => return .returned (.submit (.error error))
  | .ok () =>
    modifyState fun st => { st with submittedTasks := st.submittedTasks + 1 }
    return .returned (.submit (.ok ()))

/-- `submit` puts the job into the queue its policy picks. -/
def pushQueuedJob (job : Job) (useLocalQueue : Bool) : PoolM Job Unit := do
  let accepted ← if useLocalQueue then tryEnqueueWorkerJobLocked job else pure false
  if !accepted then
    modifyState fun st => { st with queue := st.queue ++ [job] }

/-- `submit` takes back the job it has queued, since no worker can be created
for it. -/
def popQueuedJob (error : RejectedExecution) : PoolM Job (Call Job) := do
  match (← get).state.queue.getLast? with
  | none => return .returned (.submit (.error error))
  | some job =>
    modifyState fun st => { st with queue := st.queue.dropLast }
    let submitted ← checkedSub (← get).state.submittedTasks
      "thread pool submitted task counter underflow"
    modifyState fun st => { st with submittedTasks := submitted }
    let queued ← checkedSub (← get).state.queuedTasks "thread pool queued task counter underflow"
    modifyState fun st => { st with queuedTasks := queued }
    return .submitRollback job error false

/-- The branch of `submit` that queues the job. -/
def submitToQueue (job : Job) (spawned : SpawnOutcome) : PoolM Job (Call Job) := do
  modifyState fun st =>
    { st with submittedTasks := st.submittedTasks + 1, queuedTasks := st.queuedTasks + 1 }
  let st := (← get).state
  let shouldWakeOneIdleWorker := decide (st.idleWorkers > 0)
  let useLocalQueue :=
    st.queueCapacity.isSome && st.idleWorkers == 0 && decide (st.liveWorkers > 0)
  pushQueuedJob job useLocalQueue
  let served ← if st.liveWorkers = 0 then spawnWorkerLocked none spawned else pure (.ok ())
  match served with
  | .error error => popQueuedJob error
  | .ok () =>
    return if shouldWakeOneIdleWorker then .submitNotify else .returned (.submit (.ok ()))

/-- `ThreadPoolInner::submit`, up to the release of the monitor. -/
def submit (job : Job) (spawned : SpawnOutcome) : PoolM Job (Call Job) := do
  let st := (← get).state
  if !st.lifecycle.isRunning then
    return .returned (.submit (.error .shutdown))
  else if st.liveWorkers < st.corePoolSize then
    submitToNewWorker job spawned
  else if !st.isSaturated then
    submitToQueue job spawned
  else if st.liveWorkers < st.maximumPoolSize then
    submitToNewWorker job spawned
  else
    return .returned (.submit (.error .saturated))

/-- `ThreadPoolInner::prestart_core_thread`. -/
def prestartCoreThread (spawned : SpawnOutcome) :
    PoolM Job (Except RejectedExecution Bool) := do
  let st := (← get).state
  if !st.lifecycle.isRunning then
    return .error .shutdown
  if st.liveWorkers ≥ st.corePoolSize then
    return .ok false
  match ← spawnWorkerLocked none spawned with
  | .error error => return .error error
  | .ok () => return .ok true

/-- One round of the loop of `prestart_all_core_threads`. -/
def prestartAllNext (started : ℕ) (spawned : SpawnOutcome) : PoolM Job (Call Job) := do
  match ← prestartCoreThread spawned with
  | .error error => return .returned (.prestartAllCoreThreads (.error error))
  | .ok false => return .returned (.prestartAllCoreThreads (.ok started))
  | .ok true => return .prestartAll (started + 1)

/-! ### Setters -/

/-- `set_core_pool_size`. -/
def setCorePoolSize (corePoolSize : ℕ) : PoolM Job (Call Job) := do
  let st := (← get).state
  if corePoolSize > st.maximumPoolSize then
    return .returned
      (.setter (.error (.corePoolSizeExceedsMaximum corePoolSize st.maximumPoolSize)))
  modifyState fun st => { st with corePoolSize := corePoolSize }
  return .setterNotify

/-- `set_maximum_pool_size`. -/
def setMaximumPoolSize (maximumPoolSize : ℕ) : PoolM Job (Call Job) := do
  if maximumPoolSize = 0 then
    return .returned (.setter (.error .zeroMaximumPoolSize))
  let st := (← get).state
  if st.corePoolSize > maximumPoolSize then
    return .returned
      (.setter (.error (.corePoolSizeExceedsMaximum st.corePoolSize maximumPoolSize)))
  modifyState fun st => { st with maximumPoolSize := maximumPoolSize }
  return .setterNotify

/-- `set_keep_alive`. -/
def setKeepAlive (keepAlive : Duration) : PoolM Job (Call Job) := do
  if keepAlive = 0 then
    return .returned (.setter (.error .zeroKeepAlive))
  modifyState fun st => { st with keepAlive := keepAlive }
  return .setterNotify

/-- `allow_core_thread_timeout`. -/
def allowCoreThreadTimeout (allow : Bool) : PoolM Job (Call Job) := do
  modifyState fun st => { st with allowCoreThreadTimeout := allow }
  return .setterNotify

/-! ### Shutdown -/

/-- `ThreadPoolInner::shutdown`. -/
def shutdown : PoolM Job (Call Job) := do
  if (← get).state.lifecycle.isRunning then
    modifyState fun st => { st with lifecycle := .shutdown }
  modify Pool.wakeAll
  notifyIfTerminated
  return .returned .shutdown

/-- `drain_all_worker_queued_jobs_locked`. -/
def drainAllWorkerQueuedJobsLocked : PoolM Job (List Job) :=
  modifyGet fun s =>
    (s.workerQueues.flatMap WorkerQueue.jobs,
      { s with workerQueues := s.workerQueues.map fun q => { q with jobs := [] } })

/-- `ThreadPoolInner::shutdown_now`, up to the release of the monitor. -/
def shutdownNow : PoolM Job (Call Job) := do
  let st := (← get).state
  if st.lifecycle.isRunning || st.lifecycle.isShutdown then
    modifyState fun st => { st with lifecycle := .stopping }
  let queued := st.queuedTasks
  let running := st.runningTasks
  modifyState fun st => { st with queue := [] }
  let jobs := st.queue ++ (← drainAllWorkerQueuedJobsLocked)
  modifyState fun st =>
    { st with queuedTasks := 0, cancelledTasks := st.cancelledTasks + queued }
  modify Pool.wakeAll
  notifyIfTerminated
  return .shutdownNow jobs none ⟨queued, running, queued⟩

/-- `ThreadPoolInner::is_terminated`. -/
def isTerminated : PoolM Job (Call Job) := do
  return .returned (.isTerminated (← get).state.isTerminated)

/-- `ThreadPoolInner::wait_for_termination`, from acquiring the lock to either
returning or parking. -/
def waitForTermination : PoolM Job (Call Job) := do
  if (← get).state.isTerminated then
    return .returned .waitForTermination
  return .waitForTermination false

/-! ### The worker loop -/

/-- How a critical section of `wait_for_job` ends. -/
inductive WaitOutcome (Job : Type)
  /-- A job was taken. -/
  | job (job : Job)
  /-- The worker has unregistered itself and leaves its loop. -/
  | exit
  /-- The worker parks, with a timeout or without. -/
  | park (timeout : Option Duration)

/-- `unregister_exiting_worker`. -/
def unregisterExitingWorker (workerIndex : ℕ) : PoolM Job Unit := do
  let requeuedJobs ← removeWorkerQueueLocked workerIndex
  modifyState fun st => { st with queue := st.queue ++ requeuedJobs }
  let live ← checkedSub (← get).state.liveWorkers "thread pool live worker counter underflow"
  modifyState fun st => { st with liveWorkers := live }
  notifyIfTerminated

/-- One round of the loop of `wait_for_job`, up to the next wait. -/
def waitForJob (workerIndex : ℕ) : PoolM Job (WaitOutcome Job) := do
  match (← get).state.lifecycle with
  | .running =>
    if let some job ← tryTakeQueuedJobLocked workerIndex then
      return .job job
    let st := (← get).state
    if st.liveWorkers > st.maximumPoolSize ∧ st.liveWorkers > 0 then
      unregisterExitingWorker workerIndex
      return .exit
    modifyState fun st => { st with idleWorkers := st.idleWorkers + 1 }
    if st.workerWaitIsTimed then
      return .park (some st.keepAlive)
    else
      return .park none
  | .shutdown =>
    if let some job ← tryTakeQueuedJobLocked workerIndex then
      return .job job
    unregisterExitingWorker workerIndex
    return .exit
  | .stopping =>
    unregisterExitingWorker workerIndex
    return .exit

/-- `wait_for_job` from the return of a wait to the next one. -/
def resumeFromWait (workerIndex : ℕ) (timeout : Option Duration) (status : WaitTimeoutStatus) :
    PoolM Job (WaitOutcome Job) := do
  let idle ← checkedSub (← get).state.idleWorkers "thread pool idle worker counter underflow"
  modifyState fun st => { st with idleWorkers := idle }
  let st := (← get).state
  if timeout.isSome ∧ status = .timedOut ∧ st.queuedTasks = 0 ∧ st.idleWorkerCanRetire = true then
    unregisterExitingWorker workerIndex
    return .exit
  else
    waitForJob workerIndex

/-- `finish_running_job`. -/
def finishRunningJob : PoolM Job Unit := do
  let running ← checkedSub (← get).state.runningTasks "thread pool running task counter underflow"
  modifyState fun st => { st with runningTasks := running }
  modifyState fun st => { st with completedTasks := st.completedTasks + 1 }
  notifyIfTerminated

end ThreadPool

end QubitConcurrent
