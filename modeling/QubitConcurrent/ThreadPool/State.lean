import Mathlib.Data.List.Basic
import Mathlib.Data.PNat.Basic

/-!
# The state a thread pool keeps under its monitor

The data of `ThreadPool`: the lifecycle, the counters and the configuration that
the state monitor protects, the worker-local queues that live beside it, and the
builder that decides which configurations a pool may start from.

A `PoolJob` is a pair of callbacks the pool never looks into, and the pool owns
it from the moment it is handed to `submit`. All the pool can do with it is to
move it about and, once, to call one of the two callbacks. So a job is modelled
by its identity, an element of an arbitrary type `Job`; what the callbacks do is
the business of the machine of `QubitConcurrent.ThreadPool.Pool`.

Counters are natural numbers. The one place where the width of a machine word
matters is the round-robin cursor, which wraps
(`QubitConcurrent.ThreadPool.usizeModulus`).
-/

namespace QubitConcurrent

namespace ThreadPool

/-- A `Duration`, in nanoseconds. -/
abbrev Duration := ℕ

/-- The number of values of a `usize`: an `AtomicUsize` counts modulo this. -/
def usizeModulus : ℕ := 2 ^ 64

/-! ### Errors -/

/-- The kinds of operating system error a failed thread creation reports. -/
inductive IoErrorKind
  /-- `ErrorKind::WouldBlock`. -/
  | wouldBlock
  /-- `ErrorKind::OutOfMemory`. -/
  | outOfMemory
  /-- `ErrorKind::InvalidInput`. -/
  | invalidInput
  /-- `ErrorKind::Other`, the kind of `io::Error::other`. -/
  | other
  deriving DecidableEq, Repr

/-- An `io::Error`: its kind and its text. -/
structure IoError where
  /-- The kind. -/
  kind : IoErrorKind
  /-- The text. -/
  text : String
  deriving DecidableEq, Repr

/-- Why a service refuses a task. -/
inductive RejectedExecution
  /-- The service has been shut down. -/
  | shutdown
  /-- The queue and the workers are all taken. -/
  | saturated
  /-- A worker thread was needed and could not be created. -/
  | workerSpawnFailed (source : IoError)
  deriving DecidableEq, Repr

/-- Why a configuration is refused. -/
inductive ThreadPoolBuildError
  /-- The maximum pool size is zero. -/
  | zeroMaximumPoolSize
  /-- The core pool size exceeds the maximum. -/
  | corePoolSizeExceedsMaximum (corePoolSize maximumPoolSize : ℕ)
  /-- The queue capacity is zero. -/
  | zeroQueueCapacity
  /-- The stack size is zero. -/
  | zeroStackSize
  /-- The keep-alive timeout is zero. -/
  | zeroKeepAlive
  /-- A worker could not be created while prestarting. -/
  | spawnWorker (index : ℕ) (source : IoError)
  deriving DecidableEq, Repr

/-- `ThreadPoolBuildError::from_rejected_execution`. -/
def ThreadPoolBuildError.fromRejectedExecution : RejectedExecution → ThreadPoolBuildError
  | .workerSpawnFailed source => .spawnWorker 0 ⟨source.kind, source.text⟩
  | .shutdown => .spawnWorker 0 ⟨.other, "thread pool shut down during prestart"⟩
  | .saturated => .spawnWorker 0 ⟨.other, "thread pool saturated during prestart"⟩

/-! ### Lifecycle and state -/

/-- Where a pool stands between its creation and its end. -/
inductive ThreadPoolLifecycle
  /-- Accepts submissions. -/
  | running
  /-- Refuses submissions and drains what is queued. -/
  | shutdown
  /-- Refuses submissions; what was queued has been cancelled. -/
  | stopping
  deriving DecidableEq, Repr

/-- `ThreadPoolLifecycle::is_running`. -/
def ThreadPoolLifecycle.isRunning : ThreadPoolLifecycle → Bool
  | .running => true
  | _ => false

/-- `ThreadPoolLifecycle::is_shutdown`. -/
def ThreadPoolLifecycle.isShutdown : ThreadPoolLifecycle → Bool
  | .shutdown => true
  | _ => false

@[simp] theorem ThreadPoolLifecycle.isRunning_eq_true {l : ThreadPoolLifecycle} :
    l.isRunning = true ↔ l = .running := by
  cases l <;> simp [isRunning]

@[simp] theorem ThreadPoolLifecycle.isRunning_eq_false {l : ThreadPoolLifecycle} :
    l.isRunning = false ↔ l ≠ .running := by
  cases l <;> simp [isRunning]

/-- The configuration a pool starts from. -/
structure ThreadPoolConfig where
  /-- Workers kept for normal load. -/
  corePoolSize : ℕ
  /-- Most workers the pool may create. -/
  maximumPoolSize : ℕ
  /-- Most jobs that may wait, if there is a bound. -/
  queueCapacity : Option ℕ
  /-- What worker threads are named after. -/
  threadNamePrefix : String
  /-- Stack size of worker threads, if one was asked for. -/
  stackSize : Option ℕ
  /-- How long an idle worker that may retire waits. -/
  keepAlive : Duration
  /-- Whether core workers may retire too. -/
  allowCoreThreadTimeout : Bool
  deriving DecidableEq, Repr

/-- The mutable state behind the monitor of a pool. -/
structure ThreadPoolState (Job : Type) where
  /-- Decides about submissions and worker exits. -/
  lifecycle : ThreadPoolLifecycle
  /-- The global queue. -/
  queue : List Job
  /-- Accepted jobs waiting in the global queue or in a worker-local one. -/
  queuedTasks : ℕ
  /-- Most jobs that may wait, if there is a bound. -/
  queueCapacity : Option ℕ
  /-- Jobs held by workers. -/
  runningTasks : ℕ
  /-- Worker loops that have not exited. -/
  liveWorkers : ℕ
  /-- Workers waiting for work. -/
  idleWorkers : ℕ
  /-- Jobs accepted so far. -/
  submittedTasks : ℕ
  /-- Worker-held jobs completed so far. -/
  completedTasks : ℕ
  /-- Queued jobs cancelled so far. -/
  cancelledTasks : ℕ
  /-- Current core pool size. -/
  corePoolSize : ℕ
  /-- Current maximum pool size. -/
  maximumPoolSize : ℕ
  /-- Current keep-alive timeout. -/
  keepAlive : Duration
  /-- Whether core workers may retire too. -/
  allowCoreThreadTimeout : Bool
  /-- Index of the next worker to be spawned. -/
  nextWorkerIndex : ℕ
  deriving DecidableEq, Repr

namespace ThreadPoolState

variable {Job : Type}

/-- `ThreadPoolState::new`. -/
def new (config : ThreadPoolConfig) : ThreadPoolState Job where
  lifecycle := .running
  queue := []
  queuedTasks := 0
  queueCapacity := config.queueCapacity
  runningTasks := 0
  liveWorkers := 0
  idleWorkers := 0
  submittedTasks := 0
  completedTasks := 0
  cancelledTasks := 0
  corePoolSize := config.corePoolSize
  maximumPoolSize := config.maximumPoolSize
  keepAlive := config.keepAlive
  allowCoreThreadTimeout := config.allowCoreThreadTimeout
  nextWorkerIndex := 0

/-- `ThreadPoolState::is_saturated`: the queue is bounded, and full. -/
def isSaturated (s : ThreadPoolState Job) : Bool :=
  s.queueCapacity.any fun capacity => decide (s.queuedTasks ≥ capacity)

/-- `ThreadPoolState::is_terminated`. -/
def isTerminated (s : ThreadPoolState Job) : Bool :=
  !s.lifecycle.isRunning && s.queuedTasks == 0 && s.runningTasks == 0 && s.liveWorkers == 0

/-- `ThreadPoolState::worker_wait_is_timed`. -/
def workerWaitIsTimed (s : ThreadPoolState Job) : Bool :=
  s.allowCoreThreadTimeout || decide (s.liveWorkers > s.corePoolSize)

/-- `ThreadPoolState::idle_worker_can_retire`. -/
def idleWorkerCanRetire (s : ThreadPoolState Job) : Bool :=
  decide (s.liveWorkers > s.maximumPoolSize) ||
    (s.workerWaitIsTimed &&
      (decide (s.liveWorkers > s.corePoolSize) || s.allowCoreThreadTimeout))

/-- **Termination, read out**: shutdown was requested, nothing waits, nothing
runs and no worker is left. -/
theorem isTerminated_iff {s : ThreadPoolState Job} :
    s.isTerminated = true ↔
      s.lifecycle ≠ .running ∧ s.queuedTasks = 0 ∧ s.runningTasks = 0 ∧ s.liveWorkers = 0 := by
  simp [isTerminated, and_assoc]

end ThreadPoolState

/-- The queue one worker owns. Its index is what the worker is known by. -/
structure WorkerQueue (Job : Type) where
  /-- Index of the owner. -/
  workerIndex : ℕ
  /-- The jobs assigned to it. The `Injector` behind it is a FIFO queue whose
  `Retry` answers are masked by `steal_one`. -/
  jobs : List Job
  deriving DecidableEq, Repr

/-- `WorkerQueue::new`: a queue with no jobs. -/
def WorkerQueue.new {Job : Type} (workerIndex : ℕ) : WorkerQueue Job := ⟨workerIndex, []⟩

/-- `WorkerQueue::push_back`. -/
def WorkerQueue.pushBack {Job : Type} (q : WorkerQueue Job) (job : Job) : WorkerQueue Job :=
  { q with jobs := q.jobs ++ [job] }

/-- `WorkerQueue::steal_one`, which `pop_front` and `steal_back` both are: the
oldest job, and the queue without it. -/
def WorkerQueue.stealOne {Job : Type} (q : WorkerQueue Job) : Option (Job × WorkerQueue Job) :=
  match q.jobs with
  | [] => none
  | job :: jobs => some (job, { q with jobs := jobs })

/-! ### The builder -/

/-- `ThreadPoolBuilder`. -/
structure ThreadPoolBuilder where
  /-- Workers kept for normal load. -/
  corePoolSize : ℕ
  /-- Most workers the pool may create. -/
  maximumPoolSize : ℕ
  /-- Most jobs that may wait, if there is a bound. -/
  queueCapacity : Option ℕ
  /-- What worker threads are named after. -/
  threadNamePrefix : String
  /-- Stack size of worker threads, if one was asked for. -/
  stackSize : Option ℕ
  /-- How long an idle worker that may retire waits. -/
  keepAlive : Duration
  /-- Whether core workers may retire too. -/
  allowCoreThreadTimeout : Bool
  /-- Whether `build` starts the core workers. -/
  prestartCoreThreads : Bool
  deriving DecidableEq, Repr

namespace ThreadPoolBuilder

/-- `DEFAULT_THREAD_NAME_PREFIX`. -/
def defaultThreadNamePrefix : String := "qubit-thread-pool"

/-- `DEFAULT_KEEP_ALIVE`: a minute. -/
def defaultKeepAlive : Duration := 60 * 10 ^ 9

/-- `default_pool_size`; `available` is the answer of
`thread::available_parallelism`. -/
def defaultPoolSize (available : Option ℕ+) : ℕ := (available.map PNat.val).getD 1

/-- `ThreadPoolBuilder::default`. -/
def default (available : Option ℕ+) : ThreadPoolBuilder where
  corePoolSize := defaultPoolSize available
  maximumPoolSize := defaultPoolSize available
  queueCapacity := none
  threadNamePrefix := defaultThreadNamePrefix
  stackSize := none
  keepAlive := defaultKeepAlive
  allowCoreThreadTimeout := false
  prestartCoreThreads := false

/-- `ThreadPoolBuilder::pool_size`. -/
def poolSize (n : ℕ) (b : ThreadPoolBuilder) : ThreadPoolBuilder :=
  { b with corePoolSize := n, maximumPoolSize := n }

/-- `ThreadPoolBuilder::validate`. -/
def validate (b : ThreadPoolBuilder) : Except ThreadPoolBuildError Unit :=
  if b.maximumPoolSize = 0 then
    .error .zeroMaximumPoolSize
  else if b.corePoolSize > b.maximumPoolSize then
    .error (.corePoolSizeExceedsMaximum b.corePoolSize b.maximumPoolSize)
  else if b.queueCapacity = some 0 then
    .error .zeroQueueCapacity
  else if b.stackSize = some 0 then
    .error .zeroStackSize
  else if b.keepAlive = 0 then
    .error .zeroKeepAlive
  else
    .ok ()

/-- The configuration `build` hands to the pool. -/
def config (b : ThreadPoolBuilder) : ThreadPoolConfig where
  corePoolSize := b.corePoolSize
  maximumPoolSize := b.maximumPoolSize
  queueCapacity := b.queueCapacity
  threadNamePrefix := b.threadNamePrefix
  stackSize := b.stackSize
  keepAlive := b.keepAlive
  allowCoreThreadTimeout := b.allowCoreThreadTimeout

/-- **What validation accepts**, read out. -/
theorem validate_eq_ok {b : ThreadPoolBuilder} :
    b.validate = .ok () ↔
      b.maximumPoolSize ≠ 0 ∧ b.corePoolSize ≤ b.maximumPoolSize ∧
        b.queueCapacity ≠ some 0 ∧ b.stackSize ≠ some 0 ∧ b.keepAlive ≠ 0 := by
  unfold validate
  split_ifs <;> simp_all

/-- The default configuration passes its own validation. -/
theorem validate_default (available : Option ℕ+) : (default available).validate = .ok () := by
  refine validate_eq_ok.mpr ⟨?_, le_rfl, by simp [default], by simp [default],
    by simp [default, defaultKeepAlive]⟩
  cases available with
  | none => simp [default, defaultPoolSize]
  | some n => simp [default, defaultPoolSize]

end ThreadPoolBuilder

end ThreadPool

end QubitConcurrent
