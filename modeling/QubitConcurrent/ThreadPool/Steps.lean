import QubitConcurrent.Lib.Machine
import QubitConcurrent.ThreadPool.Inner

/-!
# The machine of a thread pool

Every action a thread can take next on a pool, and what it does. An action is
one critical section of the state monitor, or one of the things that happen
between two of them: a callback is invoked or returns, a notification is
delivered, a parked thread leaves the wait set.

A run is then any interleaving of any number of users and workers. Nothing is
assumed about the users – they may submit, resize, shut down and wait for
termination at any time, in any order and number – except that a job they hand
to `submit` is theirs to hand over: `PoolJob` is consumed by the call, so no job
is presented twice.

What is *not* up to the pool is left to the run: how a thread creation ends,
which parked thread a `notify_one` picks, when a wait wakes up
spuriously or times out, and whether a callback returns or unwinds.
-/

namespace QubitConcurrent

namespace ThreadPool

variable {Job : Type}

/-- A thread that may be parked on the condition variable. -/
inductive Sleeper
  /-- A worker, waiting for a job. -/
  | worker (k : ℕ)
  /-- A user, waiting for termination. -/
  | caller (k : ℕ)
  deriving DecidableEq, Repr

/-- The actions of a pool. Workers and calls are named by their position among
the workers spawned and the calls made so far. -/
inductive Action (Job : Type)
  /-- A user calls `submit` or `submit_job`. -/
  | submit (job : Job) (spawned : SpawnOutcome)
  /-- A `submit` that has released the monitor executes its `notify_one`. -/
  | notifyOne (call : ℕ) (target : Option Sleeper)
  /-- A user calls `prestart_core_thread`. -/
  | prestartCoreThread (spawned : SpawnOutcome)
  /-- A user calls `prestart_all_core_threads`. -/
  | prestartAllCoreThreads
  /-- `prestart_all_core_threads` executes one round of its loop. -/
  | prestartAllNext (call : ℕ) (spawned : SpawnOutcome)
  /-- A user calls `set_core_pool_size`. -/
  | setCorePoolSize (corePoolSize : ℕ)
  /-- A user calls `set_maximum_pool_size`. -/
  | setMaximumPoolSize (maximumPoolSize : ℕ)
  /-- A user calls `set_keep_alive`. -/
  | setKeepAlive (keepAlive : Duration)
  /-- A user calls `allow_core_thread_timeout`. -/
  | allowCoreThreadTimeout (allow : Bool)
  /-- A setter that has released the monitor executes its `notify_all`. -/
  | notifySetter (call : ℕ)
  /-- A user calls `shutdown`. -/
  | shutdown
  /-- A user calls `shutdown_now`. -/
  | shutdownNow
  /-- A call invokes the cancel callback of the next job it has to cancel. -/
  | invokeCancel (call : ℕ)
  /-- That cancel callback returns. -/
  | cancelReturns (call : ℕ)
  /-- That cancel callback unwinds, out of the call. -/
  | cancelUnwinds (call : ℕ) (message : String)
  /-- `shutdown_now` has cancelled all it drained and returns. -/
  | shutdownNowReturns (call : ℕ)
  /-- A user calls `is_terminated`. -/
  | isTerminated
  /-- A user calls `wait_for_termination`. -/
  | waitForTermination
  /-- A user parked in `wait_for_termination` wakes up spuriously. -/
  | wakeCaller (call : ℕ)
  /-- A user woken up in `wait_for_termination` reacquires the lock. -/
  | resumeCaller (call : ℕ)
  /-- A worker invokes the run callback of the job it holds. -/
  | invokeRun (worker : ℕ)
  /-- That run callback returns. -/
  | runReturns (worker : ℕ)
  /-- That run callback unwinds. -/
  | runUnwinds (worker : ℕ)
  /-- A worker executes `finish_running_job`. -/
  | finishRunningJob (worker : ℕ)
  /-- A worker enters `wait_for_job`. -/
  | waitForJob (worker : ℕ)
  /-- A parked worker wakes up spuriously, or its wait times out. -/
  | wakeWorker (worker : ℕ) (status : WaitTimeoutStatus)
  /-- A worker woken up reacquires the lock. -/
  | resumeWorker (worker : ℕ)

namespace Pool

/-- Write down what happened to a job. -/
def record (f : Ledger Job → Ledger Job) (s : Pool Job) : Pool Job :=
  { s with ledger := f s.ledger }

/-- A new call. -/
def addCall (c : Call Job) (s : Pool Job) : Pool Job := { s with calls := s.calls ++ [c] }

/-- A call moves on. -/
def setCall (k : ℕ) (c : Call Job) (s : Pool Job) : Pool Job := { s with calls := s.calls.set k c }

/-- A worker moves on. -/
def setPhase (k : ℕ) (phase : WorkerPhase Job) (s : Pool Job) : Pool Job :=
  { s with workers := s.workers.modify k fun w => { w with phase := phase } }

/-- Whether a thread is in the wait set. -/
def isParked (s : Pool Job) : Sleeper → Bool
  | .worker k => (s.workers[k]?).any fun w => w.phase.isParked
  | .caller k => (s.calls[k]?).any Call.isParked

/-- Whether nobody is in the wait set. -/
def noneParked (s : Pool Job) : Bool :=
  s.workers.all (fun w => !w.phase.isParked) && s.calls.all fun c => !c.isParked

/-- A thread leaves the wait set. -/
def wakeOne (s : Pool Job) : Sleeper → Pool Job
  | .worker k => { s with workers := s.workers.modify k Worker.wake }
  | .caller k => { s with calls := s.calls.modify k Call.wake }

end Pool

/-- Run a critical section of a user to its end; a panic ends the call. -/
def critical (m : PoolM Job (Call Job)) (s : Pool Job) : Call Job × Pool Job :=
  match m.run s with
  | .ok call s' => (call, s')
  | .error message s' => (.returned (.panicked message), s')

/-- Whether a `submit` that leaves this behind has accepted its job; `counted` says
whether it has raised `submitted_tasks`. If it panics after that, the job is in the
queue and stays there. -/
def Call.accepts (counted : Bool) : Call Job → Bool
  | submitNotify | returned (.submit (.ok ())) => true
  | returned (.panicked _) => counted
  | _ => false

/-- What a `submit` leaves behind, written down. -/
def Ledger.recordSubmit (job : Job) (counted : Bool) (call : Call Job) (l : Ledger Job) :
    Ledger Job :=
  { l with presented := l.presented ++ [job]
           accepted := if call.accepts counted then l.accepted ++ [job] else l.accepted }

/-- A `submit` on `s` ends its critical section in the pool `t`. -/
def Pool.recordSubmit (s : Pool Job) (job : Job) (call : Call Job) (t : Pool Job) : Pool Job :=
  (t.addCall call).record (Ledger.recordSubmit job
    (decide (s.state.submittedTasks < t.state.submittedTasks)) call)

/-- The worker at position `k` ends a critical section of `wait_for_job`. -/
def Pool.settleWait (k : ℕ) (s : Pool Job) : WaitOutcome Job → Pool Job
  | .job job =>
    (s.setPhase k (.holding job)).record fun l => { l with claimed := l.claimed ++ [job] }
  | .exit => s.setPhase k .exited
  | .park timeout => s.setPhase k (.waiting timeout none)

/-- Run a critical section of the worker at position `k`; a panic unwinds it. -/
def workerCritical (k : ℕ) (m : PoolM Job (WaitOutcome Job)) (s : Pool Job) : Pool Job :=
  match m.run s with
  | .ok outcome s' => s'.settleWait k outcome
  | .error _ s' => s'.setPhase k .unwound

section Step

variable [DecidableEq Job]

/-- What an action of a user does. -/
def callerStep (s : Pool Job) : Action Job → Option (Pool Job)
  | .submit job spawned =>
    if job ∈ s.ledger.presented then none
    else
      let (call, s') := critical (submit job spawned) s
      some (s.recordSubmit job call s')
  | .notifyOne k target =>
    match s.calls[k]?, target with
    | some .submitNotify, some t =>
      if s.isParked t then some ((s.wakeOne t).setCall k (.returned (.submit (.ok ())))) else none
    | some .submitNotify, none =>
      if s.noneParked then some (s.setCall k (.returned (.submit (.ok ())))) else none
    | _, _ => none
  | .prestartCoreThread spawned =>
    let (call, s') := critical
      (do return .returned (.prestartCoreThread (← prestartCoreThread spawned))) s
    some (s'.addCall call)
  | .prestartAllCoreThreads => some (s.addCall (.prestartAll 0))
  | .prestartAllNext k spawned =>
    match s.calls[k]? with
    | some (.prestartAll started) =>
      let (call, s') := critical (prestartAllNext started spawned) s
      some (s'.setCall k call)
    | _ => none
  | .setCorePoolSize n =>
    let (call, s') := critical (setCorePoolSize n) s
    some (s'.addCall call)
  | .setMaximumPoolSize n =>
    let (call, s') := critical (setMaximumPoolSize n) s
    some (s'.addCall call)
  | .setKeepAlive d =>
    let (call, s') := critical (setKeepAlive d) s
    some (s'.addCall call)
  | .allowCoreThreadTimeout b =>
    let (call, s') := critical (allowCoreThreadTimeout b) s
    some (s'.addCall call)
  | .notifySetter k =>
    match s.calls[k]? with
    | some .setterNotify => some (s.wakeAll.setCall k (.returned (.setter (.ok ()))))
    | _ => none
  | .shutdown =>
    let (call, s') := critical shutdown s
    some (s'.addCall call)
  | .shutdownNow =>
    let (call, s') := critical shutdownNow s
    some (s'.addCall call)
  | .invokeCancel k =>
    match s.calls[k]? with
    | some (.shutdownNow (job :: jobs) none report) =>
      some ((s.setCall k (.shutdownNow jobs (some job) report)).record fun l =>
        { l with cancelInvoked := l.cancelInvoked ++ [job] })
    | some (.submitRollback job error false) =>
      some ((s.setCall k (.submitRollback job error true)).record fun l =>
        { l with rollbackInvoked := l.rollbackInvoked ++ [job] })
    | _ => none
  | .cancelReturns k =>
    match s.calls[k]? with
    | some (.shutdownNow jobs (some job) report) =>
      some ((s.setCall k (.shutdownNow jobs none report)).record fun l =>
        { l with cancelReturned := l.cancelReturned ++ [job] })
    | some (.submitRollback job error true) =>
      some ((s.setCall k (.returned (.submit (.error error)))).record fun l =>
        { l with rollbackReturned := l.rollbackReturned ++ [job] })
    | _ => none
  | .cancelUnwinds k message =>
    match s.calls[k]? with
    | some (.shutdownNow jobs (some job) _) =>
      -- the iterator over the drained jobs is dropped, and they with it
      some (s.setCall k (.shutdownNowUnwound (job :: jobs) message))
    | some (.submitRollback _ _ true) => some (s.setCall k (.returned (.panicked message)))
    | _ => none
  | .shutdownNowReturns k =>
    match s.calls[k]? with
    | some (.shutdownNow [] none report) => some (s.setCall k (.returned (.shutdownNow report)))
    | _ => none
  | .isTerminated =>
    let (call, s') := critical isTerminated s
    some (s'.addCall call)
  | .waitForTermination =>
    let (call, s') := critical waitForTermination s
    some (s'.addCall call)
  | .wakeCaller k =>
    match s.calls[k]? with
    | some (.waitForTermination false) => some (s.setCall k (.waitForTermination true))
    | _ => none
  | .resumeCaller k =>
    match s.calls[k]? with
    | some (.waitForTermination true) =>
      let (call, s') := critical waitForTermination s
      some (s'.setCall k call)
    | _ => none
  | _ => none

/-- What an action of a worker does, given where the worker stands. -/
def workerStep (s : Pool Job) (k index : ℕ) : Action Job → WorkerPhase Job → Option (Pool Job)
  | .invokeRun _, .holding job =>
    some ((s.setPhase k (.running job)).record fun l =>
      { l with runInvoked := l.runInvoked ++ [job] })
  | .runReturns _, .running job =>
    some ((s.setPhase k (.finishing job)).record fun l =>
      { l with runReturned := l.runReturned ++ [job] })
  | .runUnwinds _, .running job =>
    some ((s.setPhase k .unwound).record fun l => { l with runUnwound := l.runUnwound ++ [job] })
  | .finishRunningJob _, .finishing job =>
    match finishRunningJob.run s with
    | .ok () s' =>
      some ((s'.setPhase k .ready).record fun l => { l with completed := l.completed ++ [job] })
    | .error _ s' =>
      some ((s'.setPhase k .unwound).record fun l => { l with abandoned := l.abandoned ++ [job] })
  | .waitForJob _, .ready => some (workerCritical k (waitForJob index) s)
  | .wakeWorker _ status, .waiting timeout none =>
    -- an untimed wait has no timeout to run into
    if status = .timedOut ∧ timeout = none then none
    else some (s.setPhase k (.waiting timeout (some status)))
  | .resumeWorker _, .waiting timeout (some status) =>
    some (workerCritical k (resumeFromWait index timeout status) s)
  | _, _ => none

/-- The worker an action belongs to, if it is one of a worker. -/
def Action.worker? : Action Job → Option ℕ
  | .invokeRun k | .runReturns k | .runUnwinds k | .finishRunningJob k | .waitForJob k
  | .wakeWorker k _ | .resumeWorker k => some k
  | _ => none

/-- One step of a pool. -/
def step (s : Pool Job) (a : Action Job) : Option (Pool Job) :=
  match a.worker? with
  | none => callerStep s a
  | some k =>
    match s.workers[k]? with
    | none => none
    | some w => workerStep s k w.index a w.phase

/-- `ThreadPoolBuilder::build`, up to the prestart of the core workers, which is
the first call in progress on the new pool. -/
def build (b : ThreadPoolBuilder) : Except ThreadPoolBuildError (Pool Job) := do
  b.validate
  let s := Pool.new b.config
  return if b.prestartCoreThreads then s.addCall (.prestartAll 0) else s

/-- The pool `ThreadPool::new` hands out, once the size has been accepted. -/
def Pool.ofSize (n : ℕ) : Pool Job :=
  Pool.new ((ThreadPoolBuilder.default none).poolSize n).config

/-- **The machine of a thread pool.** -/
def machine (Job : Type) [DecidableEq Job] : Machine (Pool Job) (Action Job) where
  init s := ∃ b : ThreadPoolBuilder, build b = .ok s
  step := step

/-- A pool of any positive size is one a run may start from. -/
theorem machine_init_ofSize (Job : Type) [DecidableEq Job] (n : ℕ) :
    (machine Job).init (Pool.ofSize (n + 1)) := by
  refine ⟨(ThreadPoolBuilder.default none).poolSize (n + 1), ?_⟩
  have hvalid : ((ThreadPoolBuilder.default none).poolSize (n + 1)).validate = .ok () :=
    ThreadPoolBuilder.validate_eq_ok.mpr ⟨by simp [ThreadPoolBuilder.poolSize], le_rfl,
      by simp [ThreadPoolBuilder.poolSize, ThreadPoolBuilder.default],
      by simp [ThreadPoolBuilder.poolSize, ThreadPoolBuilder.default],
      by simp [ThreadPoolBuilder.poolSize, ThreadPoolBuilder.default,
        ThreadPoolBuilder.defaultKeepAlive]⟩
  rw [build, hvalid]
  rfl

end Step

end ThreadPool

end QubitConcurrent
