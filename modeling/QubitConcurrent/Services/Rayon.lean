import QubitConcurrent.Services.Core
import QubitConcurrent.TaskHandle.Cell

/-!
# Tasks on a Rayon pool

`RayonExecutorService` hands its tasks to a Rayon pool, which cannot be asked to forget
one. A task that is to be cancelled before it starts is cancelled by its cell: the closure
in the pool finds that it cannot start any more and returns. Whoever publishes the
cancellation does the bookkeeping of the task; whoever starts it does it otherwise.

The bookkeeping is in two counters and a map. A task is in `active_tasks` from its
admission to its end, in `queued_tasks` from its admission until it is started or
cancelled, and in `pending_tasks`, with the closure that cancels it, for about as long.
`shutdown_now` drains the map under the submission lock, and runs the closures after it has
released it.

The submission lock is kept with its holder. Task numbers are the positions in the list of
tasks; the counter behind them is taken to be unbounded.
-/

namespace QubitConcurrent

namespace Rayon

open Services

open ThreadPool (ShutdownReport)

open TaskHandle (TaskHandleInner Outcome runCallable)

variable {R E W : Type}

/-! ### The threads -/

/-- Where the closure of a task stands, from the moment the task has a number. -/
inductive RunPhase
  /-- `submit_callable` has the submission lock. -/
  | submitting
  /-- `submit_callable` has released it; `spawn_fifo` is to come. -/
  | unspawned
  /-- In the Rayon pool; `start` is to come. -/
  | spawned
  /-- Started; `on_task_started` is to remove the task from the map. -/
  | unregistering
  /-- `on_task_started` is to take the task out of `queued_tasks`. -/
  | unqueueing
  /-- Inside `run_callable`. -/
  | executing
  /-- Completed; `on_task_completed` is to take the task out of `active_tasks`. -/
  | leaving
  /-- Inside `notify_if_terminated`. -/
  | announcing (a : Announce)
  /-- Returned. -/
  | finished
  /-- Returned, because the task was cancelled before. -/
  | skipped
  deriving DecidableEq, Repr

/-- A task: the cell of its handle, and its closure. -/
structure Task (R E W : Type) where
  /-- The cell behind the handle. -/
  cell : TaskHandleInner R E W
  /-- Where its closure stands. -/
  run : RunPhase

/-- Where a call of the closure that cancels a task stands. -/
inductive CancelPhase
  /-- `completion.cancel()` is to come. -/
  | publishing
  /-- Published; `on_task_cancelled` is to remove the task from the map. -/
  | unregistering
  /-- `on_task_cancelled` is to take the task out of `queued_tasks`. -/
  | unqueueing
  /-- `on_task_cancelled` is to take the task out of `active_tasks`. -/
  | leaving
  /-- Inside `notify_if_terminated`. -/
  | announcing (a : Announce)
  /-- Returned. -/
  | returned (answer : Bool)
  deriving DecidableEq, Repr

/-- A call of the closure that cancels a task. -/
structure Cancel where
  /-- The task. -/
  task : ℕ
  /-- Where the call stands. -/
  phase : CancelPhase
  deriving DecidableEq, Repr

/-- A call of `shutdown_now` that has released the submission lock. -/
inductive Sweep
  /-- Cancels what it has drained, one after the other. -/
  | cancelling (pending : List ℕ) (current : Option Cancel) (report : ShutdownReport)
  /-- Inside `notify_if_terminated`. -/
  | announcing (a : Announce) (report : ShutdownReport)
  /-- Returned. -/
  | returned (report : ShutdownReport)
  deriving DecidableEq, Repr

/-- Who holds the submission lock, and how far they have come. -/
inductive Holder
  /-- `submit_callable`; `shutdown.load()` is to come. -/
  | submitChecking
  /-- `submit_callable`; `next_task_id()` is to come. -/
  | submitNumbering
  /-- `submit_callable`; `active_tasks.inc()` is to come. -/
  | submitCounting (task : ℕ)
  /-- `submit_callable`; `queued_tasks.inc()` is to come. -/
  | submitQueueing (task : ℕ)
  /-- `submit_callable`; `register_pending_task` is to come. -/
  | submitRegistering (task : ℕ)
  /-- `submit_callable`, about to release the lock. -/
  | submitReleasing (task : ℕ)
  /-- `shutdown`; `shutdown.store(true)` is to come. -/
  | shutdownStoring
  /-- `shutdown`, inside `notify_if_terminated`. -/
  | shutdownAnnouncing (a : Announce)
  /-- `shutdown_now`; `shutdown.store(true)` is to come. -/
  | shutdownNowStoring
  /-- `shutdown_now`; `queued_tasks.get()` is to come. -/
  | shutdownNowCounting
  /-- `shutdown_now`; `active_tasks.get()` is to come. -/
  | shutdownNowReading (queued : ℕ)
  /-- `shutdown_now`; `drain_pending_tasks` is to come. -/
  | shutdownNowDraining (queued running : ℕ)
  /-- `shutdown_now`, about to release the lock. -/
  | shutdownNowReleasing (pending : List ℕ) (queued running : ℕ)
  deriving DecidableEq, Repr

/-- `RayonExecutorServiceState`, and the threads around it. -/
structure Service (R E W : Type) extends Core Await where
  /-- `queued_tasks`. -/
  queuedTasks : ℕ
  /-- The numbers in `pending_tasks`. -/
  pendingTasks : List ℕ
  /-- Who holds `submission_lock`. -/
  submissionLock : Option Holder
  /-- The tasks that were given a number so far. -/
  tasks : List (Task R E W)
  /-- The calls of `RayonTaskHandle::cancel` made so far. -/
  cancels : List Cancel
  /-- The calls of `shutdown_now` that have released the submission lock. -/
  sweeps : List Sweep
  /-- What the calls of `submit_callable` and `shutdown` have returned so far. -/
  replies : List Reply

namespace Service

/-- `RayonExecutorService::new`. -/
def new : Service R E W := ⟨.new, 0, [], none, [], [], [], []⟩

/-! ### The steps -/

/-- The holder of the submission lock moves on. -/
def hold (s : Service R E W) (h : Holder) : Service R E W := { s with submissionLock := some h }

/-- The submission lock is released. -/
def release (s : Service R E W) : Service R E W := { s with submissionLock := none }

/-- A task moves on. -/
def setTask (s : Service R E W) (i : ℕ) (t : Task R E W) : Service R E W :=
  { s with tasks := s.tasks.set i t }

/-- `remove_pending_task`. -/
def unregister (s : Service R E W) (i : ℕ) : Service R E W :=
  { s with pendingTasks := s.pendingTasks.filter (· ≠ i) }

/-- `queued_tasks.dec()`. -/
def unqueue (s : Service R E W) : Service R E W := { s with queuedTasks := s.queuedTasks - 1 }

/-- The holder of the submission lock takes its next step. `order` is the order in which
`drain_pending_tasks` finds the closures, where it is called. -/
def holderNext (s : Service R E W) (order : List ℕ) : Holder → Option (Service R E W)
  | .submitChecking =>
    some (if s.shutdown then { s.release with replies := s.replies ++ [.submit (.error .shutdown)] }
      else s.hold .submitNumbering)
  | .submitNumbering =>
    some ({ s with tasks := s.tasks ++ [Task.mk .new .submitting] }.hold
      (.submitCounting s.tasks.length))
  | .submitCounting i => some ({ s with toCore := s.enter }.hold (.submitQueueing i))
  | .submitQueueing i =>
    some ({ s with queuedTasks := s.queuedTasks + 1 }.hold (.submitRegistering i))
  | .submitRegistering i =>
    some ({ s with pendingTasks := s.pendingTasks ++ [i] }.hold (.submitReleasing i))
  | .submitReleasing i =>
    match s.tasks[i]? with
    | some ⟨cell, .submitting⟩ => some (s.release.setTask i ⟨cell, .unspawned⟩)
    | _ => none
  | .shutdownStoring => some ({ s with toCore := s.close }.hold (.shutdownAnnouncing .loadShutdown))
  | .shutdownAnnouncing a =>
    match s.announce a with
    | (some a', c) => some ({ s with toCore := c }.hold (.shutdownAnnouncing a'))
    | (none, c) =>
      some { s with toCore := c, submissionLock := none, replies := s.replies ++ [.shutdown] }
  | .shutdownNowStoring => some ({ s with toCore := s.close }.hold .shutdownNowCounting)
  | .shutdownNowCounting => some (s.hold (.shutdownNowReading s.queuedTasks))
  | .shutdownNowReading queued =>
    some (s.hold (.shutdownNowDraining queued (s.activeTasks - queued)))
  | .shutdownNowDraining queued running =>
    if order.Perm s.pendingTasks then
      some ({ s with pendingTasks := [] }.hold (.shutdownNowReleasing order queued running))
    else none
  | .shutdownNowReleasing pending queued running =>
    some { s.release with
      sweeps := s.sweeps ++ [.cancelling pending none ⟨queued, running, 0⟩] }

/-- `submit_callable` calls `spawn_fifo` and returns. -/
def spawn (s : Service R E W) (i : ℕ) : Option (Service R E W) :=
  match s.tasks[i]? with
  | some ⟨cell, .unspawned⟩ =>
    some { s.setTask i ⟨cell, .spawned⟩ with replies := s.replies ++ [.submit (.ok i)] }
  | _ => none

/-- What comes after a step of a closure that may end inside `notify_if_terminated`. -/
def runAfter : Option Announce → RunPhase
  | some a => .announcing a
  | none => .finished

/-- The closure of a task takes its next step, but for the callable itself. -/
def runNext (s : Service R E W) (i : ℕ) : Option (Service R E W) :=
  match s.tasks[i]? with
  | some ⟨cell, .spawned⟩ =>
    some (s.setTask i ⟨cell.start.2, if cell.start.1 then .unregistering else .skipped⟩)
  | some ⟨cell, .unregistering⟩ => some ((s.unregister i).setTask i ⟨cell, .unqueueing⟩)
  | some ⟨cell, .unqueueing⟩ => some (s.unqueue.setTask i ⟨cell, .executing⟩)
  | some ⟨cell, .leaving⟩ =>
    some ({ s with toCore := s.leave.2 }.setTask i ⟨cell, runAfter s.leave.1⟩)
  | some ⟨cell, .announcing a⟩ =>
    some ({ s with toCore := (s.announce a).2 }.setTask i ⟨cell, runAfter (s.announce a).1⟩)
  | _ => none

/-- The callable of a task ends, and its result is completed with. -/
def callReturns (s : Service R E W) (i : ℕ) (outcome : Outcome R E) : Option (Service R E W) :=
  match s.tasks[i]? with
  | some ⟨cell, .executing⟩ =>
    some (s.setTask i ⟨(cell.complete (runCallable outcome)).2, .leaving⟩)
  | _ => none

/-- What comes after a step of a cancellation that may end inside
`notify_if_terminated`. -/
def cancelAfter : Option Announce → CancelPhase
  | some a => .announcing a
  | none => .returned true

/-- The closure that cancels a task takes its next step: what becomes of it, and of the
service. -/
def cancelNext (s : Service R E W) (c : Cancel) : Option (Cancel × Service R E W) :=
  match c.phase with
  | .publishing =>
    match s.tasks[c.task]? with
    | some t =>
      some (⟨c.task, if t.cell.cancel.1.1 then .unregistering else .returned false⟩,
        s.setTask c.task { t with cell := t.cell.cancel.2 })
    | none => none
  | .unregistering => some (⟨c.task, .unqueueing⟩, s.unregister c.task)
  | .unqueueing => some (⟨c.task, .leaving⟩, s.unqueue)
  | .leaving => some (⟨c.task, cancelAfter s.leave.1⟩, { s with toCore := s.leave.2 })
  | .announcing a =>
    some (⟨c.task, cancelAfter (s.announce a).1⟩, { s with toCore := (s.announce a).2 })
  | .returned _ => none

/-- A call of `RayonTaskHandle::cancel`, by whoever `submit_callable` has returned the
handle to. -/
def cancel (s : Service R E W) (i : ℕ) : Option (Service R E W) :=
  if .submit (.ok i) ∈ s.replies then
    some { s with cancels := s.cancels ++ [⟨i, .publishing⟩] }
  else none

/-- A call of `RayonTaskHandle::cancel` takes its next step. -/
def handleNext (s : Service R E W) (k : ℕ) : Option (Service R E W) :=
  match s.cancels[k]? with
  | some c => (s.cancelNext c).map fun r => { r.2 with cancels := r.2.cancels.set k r.1 }
  | none => none

/-- One more task was cancelled. -/
def count (report : ShutdownReport) : ShutdownReport :=
  { report with cancelled := report.cancelled + 1 }

/-- A call of `shutdown_now` that has released the submission lock moves on. -/
def setSweep (s : Service R E W) (k : ℕ) (w : Sweep) : Service R E W :=
  { s with sweeps := s.sweeps.set k w }

/-- A call of `shutdown_now` that has released the submission lock takes its next step. -/
def sweepNext (s : Service R E W) (k : ℕ) : Option (Service R E W) :=
  match s.sweeps[k]? with
  | some (.cancelling pending (some ⟨_, .returned answer⟩) report) =>
    some (s.setSweep k (.cancelling pending none (if answer then count report else report)))
  | some (.cancelling pending (some c) report) =>
    (s.cancelNext c).map fun r => r.2.setSweep k (.cancelling pending (some r.1) report)
  | some (.cancelling (i :: pending) none report) =>
    some (s.setSweep k (.cancelling pending (some ⟨i, .publishing⟩) report))
  | some (.cancelling [] none report) =>
    some (s.setSweep k (.announcing .loadShutdown report))
  | some (.announcing a report) =>
    match s.announce a with
    | (some a', c) => some ({ s with toCore := c }.setSweep k (.announcing a' report))
    | (none, c) => some ({ s with toCore := c }.setSweep k (.returned report))
  | _ => none

end Service

/-- The actions of the service. -/
inductive Action (R E : Type)
  /-- A call of `submit_callable` takes the submission lock. -/
  | submit
  /-- A call of `shutdown` takes the submission lock. -/
  | shutdown
  /-- A call of `shutdown_now` takes the submission lock. -/
  | shutdownNow
  /-- The holder of the submission lock takes its next step. -/
  | holderNext (order : List ℕ)
  /-- `submit_callable` calls `spawn_fifo` and returns. -/
  | spawn (task : ℕ)
  /-- The closure of a task takes its next step. -/
  | runNext (task : ℕ)
  /-- The callable of a task ends. -/
  | callReturns (task : ℕ) (outcome : Outcome R E)
  /-- A user calls `RayonTaskHandle::cancel`. -/
  | cancel (task : ℕ)
  /-- A call of `RayonTaskHandle::cancel` takes its next step. -/
  | handleNext (call : ℕ)
  /-- A call of `shutdown_now` that has released the submission lock takes its next
  step. -/
  | sweepNext (call : ℕ)
  /-- A user calls `await_termination`. -/
  | await
  /-- A future of `await_termination` takes its next step. -/
  | awaitNext (waiter : ℕ)
  /-- A future of `await_termination` is dropped. -/
  | awaitDrop (waiter : ℕ)
  /-- A user calls `is_terminated`. -/
  | isTerminated
  /-- A call of `is_terminated` takes its next step. -/
  | queryNext (query : ℕ)

namespace Service

/-- A call takes the submission lock, if it is free. -/
def acquire (s : Service R E W) (h : Holder) : Option (Service R E W) :=
  if s.submissionLock = none then some (s.hold h) else none

/-- One step of the service. -/
def step (s : Service R E W) : Action R E → Option (Service R E W)
  | .submit => s.acquire .submitChecking
  | .shutdown => s.acquire .shutdownStoring
  | .shutdownNow => s.acquire .shutdownNowStoring
  | .holderNext order => s.submissionLock.bind (s.holderNext order)
  | .spawn i => s.spawn i
  | .runNext i => s.runNext i
  | .callReturns i outcome => s.callReturns i outcome
  | .cancel i => s.cancel i
  | .handleNext k => s.handleNext k
  | .sweepNext k => s.sweepNext k
  | .await => some { s with toCore := s.toCore.await }
  | .awaitNext k => (s.toCore.awaitNext k).map fun c => { s with toCore := c }
  | .awaitDrop k => (s.toCore.awaitDrop k).map fun c => { s with toCore := c }
  | .isTerminated => some { s with toCore := s.query }
  | .queryNext k => (s.toCore.queryNext k).map fun c => { s with toCore := c }

end Service

/-- **The machine of a Rayon service.** -/
def machine (R E W : Type) : Machine (Service R E W) (Action R E) where
  init s := s = .new
  step := Service.step

end Rayon

end QubitConcurrent
