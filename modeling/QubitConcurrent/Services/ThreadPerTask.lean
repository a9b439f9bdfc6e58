import QubitConcurrent.Services.Core
import QubitConcurrent.TaskHandle.Cell

/-!
# One thread for each task

`ThreadPerTaskExecutorService` creates a thread for every task it accepts. There is no
queue: a task is counted in `active_tasks` from the moment it is admitted, under the
submission lock, until its thread takes the count back. No guard does so: where the thread is
never created, or a panic ends it before, the task stays counted.

Whoever waits for termination blocks on a condition variable, with `termination_lock` held
between the look at the two atomics and the wait. But neither `shutdown` nor a thread that
ends takes that lock: it keeps two waiters apart, and nobody else.

The holder of the submission lock is kept where the lock is, with how far it has come, so
that there is never more than one.
-/

namespace QubitConcurrent

namespace ThreadPerTask

open Services

open ThreadPool (ShutdownReport)

open TaskHandle (TaskHandleInner Outcome runCallable)

variable {R E W : Type}

/-! ### The threads -/

/-- Where a call of `wait_for_termination` stands. -/
inductive Waiting
  /-- `termination_lock` is to be taken. -/
  | locking
  /-- Inside the lock, `shutdown.load()` is to come. -/
  | loadShutdown
  /-- Inside the lock, `active_tasks.is_zero()` is to come. -/
  | loadActive
  /-- Inside the lock, about to wait. -/
  | failed
  /-- In the wait set, or woken up and about to take the lock again. -/
  | parked (woken : Bool)
  /-- Returned. -/
  | returned
  deriving DecidableEq, Repr

namespace Waiting

/-- Reached by `notify_all`. -/
def wake : Waiting → Waiting
  | parked _ => parked true
  | a => a

/-- Between a failed evaluation of the predicate and the wait. -/
def isExposed : Waiting → Bool
  | failed => true
  | _ => false

/-- Parked, and not notified. -/
def isParked : Waiting → Bool
  | parked false => true
  | _ => false

instance : Waiter Waiting where
  wake := wake
  isExposed := isExposed
  isWaiting := isParked
  isExposed_wake a := by cases a <;> rfl
  isWaiting_wake a := by cases a <;> rfl

end Waiting

/-- Where the thread of a task stands, from the admission of the task on. -/
inductive TaskPhase
  /-- Admitted; `thread::spawn` is to come. -/
  | unspawned
  /-- `thread::spawn` has panicked, and `submit_callable` with it. -/
  | unborn
  /-- The thread runs; `start` is to come. -/
  | spawned
  /-- Inside `run_callable`. -/
  | executing
  /-- In `start_and_complete`, where the start was refused or the result is published;
  `active_tasks.dec()` is to come. -/
  | leaving
  /-- Left by a panic, and `active_tasks.dec()` with it. -/
  | unwound
  /-- Inside `notify_if_terminated`. -/
  | announcing (a : Announce)
  /-- Ended. -/
  | finished
  deriving DecidableEq, Repr

/-- A task: the cell of its handle, and its thread. -/
structure Task (R E W : Type) where
  /-- The cell behind the handle. -/
  cell : TaskHandleInner R E W
  /-- Where its thread stands. -/
  phase : TaskPhase

/-- Who holds the submission lock, and how far they have come. -/
inductive Holder
  /-- `submit_callable`; `shutdown.load()` is to come. -/
  | submitChecking
  /-- `submit_callable`; `active_tasks.inc()` is to come. -/
  | submitCounting
  /-- `submit_callable`, about to release the lock. -/
  | submitReleasing
  /-- `shutdown`; `shutdown.store(true)` is to come. -/
  | shutdownStoring
  /-- `shutdown`, inside `notify_if_terminated`. -/
  | shutdownAnnouncing (a : Announce)
  /-- `shutdown_now`; `shutdown.store(true)` is to come. -/
  | shutdownNowStoring
  /-- `shutdown_now`; `active_tasks.get()` is to come. -/
  | shutdownNowReading
  /-- `shutdown_now`, inside `notify_if_terminated`. -/
  | shutdownNowAnnouncing (a : Announce) (report : ShutdownReport)
  deriving DecidableEq, Repr

/-- `ThreadPerTaskExecutorServiceState`, and the threads around it. -/
structure Service (R E W : Type) extends Core Waiting where
  /-- Who holds `submission_lock`. -/
  submissionLock : Option Holder
  /-- Which waiter holds `termination_lock`. -/
  terminationLock : Option ℕ
  /-- The tasks admitted so far. -/
  tasks : List (Task R E W)
  /-- What the calls on the service have returned so far. -/
  replies : List Reply

namespace Service

/-- `ThreadPerTaskExecutorService::new`. -/
def new : Service R E W := ⟨.new, none, none, [], []⟩

/-! ### The steps -/

/-- The holder of the submission lock moves on. -/
def hold (s : Service R E W) (h : Holder) : Service R E W := { s with submissionLock := some h }

/-- The submission lock is released by a call that returns. -/
def release (s : Service R E W) (reply : Reply) : Service R E W :=
  { s with submissionLock := none, replies := s.replies ++ [reply] }

/-- The holder of the submission lock takes its next step. -/
def holderNext (s : Service R E W) : Holder → Service R E W
  | .submitChecking =>
    if s.shutdown then s.release (.submit (.error .shutdown)) else s.hold .submitCounting
  | .submitCounting => { s with toCore := s.enter }.hold .submitReleasing
  | .submitReleasing =>
    { s with submissionLock := none, tasks := s.tasks ++ [⟨.new, .unspawned⟩] }
  | .shutdownStoring => { s with toCore := s.close }.hold (.shutdownAnnouncing .loadShutdown)
  | .shutdownAnnouncing a =>
    match s.announce a with
    | (some a', c) => { s with toCore := c }.hold (.shutdownAnnouncing a')
    | (none, c) => { s with toCore := c }.release .shutdown
  | .shutdownNowStoring => { s with toCore := s.close }.hold .shutdownNowReading
  | .shutdownNowReading => s.hold (.shutdownNowAnnouncing .loadShutdown ⟨0, s.activeTasks, 0⟩)
  | .shutdownNowAnnouncing a report =>
    match s.announce a with
    | (some a', c) => { s with toCore := c }.hold (.shutdownNowAnnouncing a' report)
    | (none, c) => { s with toCore := c }.release (.shutdownNow report)

/-- A task moves on. -/
def setTask (s : Service R E W) (i : ℕ) (t : Task R E W) : Service R E W :=
  { s with tasks := s.tasks.set i t }

/-- What comes after a step that may end inside `notify_if_terminated`. -/
def afterAnnounce : Option Announce → TaskPhase
  | some a => .announcing a
  | none => .finished

/-- The thread of a task takes its next step, but for the callable itself. -/
def taskNext (s : Service R E W) (i : ℕ) : Option (Service R E W) :=
  match s.tasks[i]? with
  | some ⟨cell, .spawned⟩ =>
    some (s.setTask i ⟨cell.start.2, if cell.start.1 then .executing else .leaving⟩)
  | some ⟨cell, .leaving⟩ =>
    some ({ s with toCore := s.leave.2 }.setTask i ⟨cell, afterAnnounce s.leave.1⟩)
  | some ⟨cell, .announcing a⟩ =>
    some ({ s with toCore := (s.announce a).2 }.setTask i ⟨cell, afterAnnounce (s.announce a).1⟩)
  | _ => none

/-- The callable of a task ends, and its result is completed with. -/
def callReturns (s : Service R E W) (i : ℕ) (outcome : Outcome R E) : Option (Service R E W) :=
  match s.tasks[i]? with
  | some ⟨cell, .executing⟩ =>
    some (s.setTask i ⟨(cell.complete (runCallable outcome)).2, .leaving⟩)
  | _ => none

/-- A panic that is not caught ends the thread of a task: `run_callable` catches those of the
callable, but not one of dropping the callable or what it has panicked with, nor one of the waker
that is called when the result is published. -/
def taskUnwinds (s : Service R E W) (i : ℕ) : Option (Service R E W) :=
  match s.tasks[i]? with
  | some ⟨cell, .executing⟩ | some ⟨cell, .leaving⟩ => some (s.setTask i ⟨cell, .unwound⟩)
  | _ => none

/-- `submit_callable` calls `thread::spawn`, which panics where no thread can be
created. -/
def spawn (s : Service R E W) (i : ℕ) (created : Bool) : Option (Service R E W) :=
  match s.tasks[i]? with
  | some ⟨cell, .unspawned⟩ =>
    some (if created then
      { s.setTask i ⟨cell, .spawned⟩ with replies := s.replies ++ [.submit (.ok i)] }
    else { s.setTask i ⟨cell, .unborn⟩ with replies := s.replies ++ [.submitPanicked] })
  | _ => none

/-- `TaskHandle::cancel`, by whoever `submit_callable` has returned the handle to. -/
def handleCancel (s : Service R E W) (i : ℕ) : Option (Service R E W) :=
  match s.tasks[i]? with
  | some ⟨_, .unspawned⟩ | some ⟨_, .unborn⟩ | none => none
  | some t => some (s.setTask i { t with cell := t.cell.cancel.2 })

/-- A call of `wait_for_termination` takes its next step. -/
def waitNext (s : Service R E W) (k : ℕ) : Option (Service R E W) :=
  match s.waiters[k]? with
  | some .locking | some (.parked true) =>
    if s.terminationLock = none then
      some { s with toCore := s.setWaiter k .loadShutdown, terminationLock := some k }
    else none
  | some .loadShutdown =>
    some { s with toCore := s.setWaiter k (if s.shutdown then .loadActive else .failed) }
  | some .loadActive =>
    if s.activeTasks = 0 then
      some { s with toCore := s.setWaiter k .returned, terminationLock := none }
    else some { s with toCore := s.setWaiter k .failed }
  | some .failed =>
    -- the wait enters the wait set and releases the lock at once
    some { s with toCore := s.setWaiter k (.parked false), terminationLock := none }
  | _ => none

/-- A waiter wakes up spuriously. -/
def wakeWaiter (s : Service R E W) (k : ℕ) : Option (Service R E W) :=
  match s.waiters[k]? with
  | some (.parked false) => some { s with toCore := s.setWaiter k (.parked true) }
  | _ => none

end Service

/-- The actions of the service. -/
inductive Action (R E : Type)
  /-- A call of `submit_callable` takes the submission lock. -/
  | submit
  /-- A call of `shutdown` takes the submission lock. -/
  | shutdown
  /-- A call of `shutdown_now` takes the submission lock. -/
  | shutdownNow
  /-- The holder of the submission lock takes its next step. -/
  | holderNext
  /-- `submit_callable` calls `thread::spawn`. -/
  | spawn (task : ℕ) (created : Bool)
  /-- The thread of a task takes its next step. -/
  | taskNext (task : ℕ)
  /-- The callable of a task ends. -/
  | callReturns (task : ℕ) (outcome : Outcome R E)
  /-- A panic ends the thread of a task before it takes the count back. -/
  | taskUnwinds (task : ℕ)
  /-- The handle of a task is asked to cancel. -/
  | handleCancel (task : ℕ)
  /-- A user calls `wait_for_termination`. -/
  | wait
  /-- A call of `wait_for_termination` takes its next step. -/
  | waitNext (waiter : ℕ)
  /-- A call of `wait_for_termination` wakes up spuriously. -/
  | wakeWaiter (waiter : ℕ)
  /-- A user calls `is_terminated`. -/
  | isTerminated
  /-- A call of `is_terminated` takes its next step. -/
  | queryNext (query : ℕ)

namespace Service

/-- A call takes the submission lock, if it is free. -/
def acquire (s : Service R E W) (h : Holder) : Option (Service R E W) :=
  if s.submissionLock = none then some (s.hold h) else none

/-- One step of the service. -/
def step (s : Service R E W) : Action R E → Option (Service R E W)
  | .submit => s.acquire .submitChecking
  | .shutdown => s.acquire .shutdownStoring
  | .shutdownNow => s.acquire .shutdownNowStoring
  | .holderNext => s.submissionLock.map s.holderNext
  | .spawn i created => s.spawn i created
  | .taskNext i => s.taskNext i
  | .callReturns i outcome => s.callReturns i outcome
  | .taskUnwinds i => s.taskUnwinds i
  | .handleCancel i => s.handleCancel i
  | .wait => some { s with toCore := { s.toCore with waiters := s.waiters ++ [.locking] } }
  | .waitNext k => s.waitNext k
  | .wakeWaiter k => s.wakeWaiter k
  | .isTerminated => some { s with toCore := s.query }
  | .queryNext k => (s.toCore.queryNext k).map fun c => { s with toCore := c }

end Service

/-- **The machine of a thread-per-task service.** -/
def machine (R E W : Type) : Machine (Service R E W) (Action R E) where
  init s := s = .new
  step := Service.step

end ThreadPerTask

end QubitConcurrent
