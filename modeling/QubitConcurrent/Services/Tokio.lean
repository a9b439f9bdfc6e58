import QubitConcurrent.Services.Core
import QubitConcurrent.TaskHandle.Cell

/-!
# Tasks on a Tokio runtime

`TokioExecutorService` and `TokioIoExecutorService` differ in what a task is: a callable,
which the one runs on a blocking thread and awaits, or a future, which the other awaits. All
the rest is the same text twice, and is written here once.

A task is a future with a guard in it. When the future is done with – because it is ready,
because it panics, or because the runtime drops it after an abort – the guard is dropped,
and takes the task out of `active_tasks`. Only then the output is there for the join handle.
An abort is a signal: the runtime heeds it when it would poll the future next. What runs on
a blocking thread is not affected by it, and does run, even if it had not begun.

`shutdown_now` signals every abort handle in `abort_handles`. A submission puts its handle
there after it has released the submission lock. Nobody takes a handle out when its task
ends.

`tokio::spawn` panics outside a runtime; the future, and the guard in it, is then dropped by
the submission. The submission lock is kept with its holder.
-/

namespace QubitConcurrent

namespace Tokio

open Services

open ThreadPool (ShutdownReport)

open TaskHandle (TaskResult Outcome runCallable)

variable {R E : Type}

/-! ### The tasks -/

/-- Where the submission of a task stands, after it has released the submission lock. -/
inductive SubmitPhase
  /-- `tokio::spawn` is to come. -/
  | spawning
  /-- The abort handle is to be put into `abort_handles`. -/
  | listing
  /-- Returned. -/
  | returned
  /-- Left by a panic of `tokio::spawn`. -/
  | panicked
  deriving DecidableEq, Repr

/-- Where the future of a task stands. -/
inductive FuturePhase (R E : Type)
  /-- Not in the runtime. -/
  | unspawned
  /-- In the runtime, and not polled yet. -/
  | scheduled
  /-- Polled, and not ready. -/
  | suspended
  /-- Done with; the guard's `active_tasks.dec()` is to come. -/
  | dropping (output : Option (TaskResult R E))
  /-- Done with, and the guard is inside `notify_if_terminated`. -/
  | announcing (a : Announce) (output : Option (TaskResult R E))
  /-- Gone. The join handle, if there is one, has its output. -/
  | ended (output : Option (TaskResult R E))

/-- Where the callable of a task stands on its blocking thread. -/
inductive ClosurePhase (R E : Type)
  /-- `spawn_blocking` was not called. -/
  | absent
  /-- Waits for a blocking thread. -/
  | queued
  /-- Inside `run_callable`. -/
  | executing
  /-- Returned. -/
  | returned (result : TaskResult R E)

/-- A task. -/
structure Task (R E : Type) where
  /-- Where its submission stands. -/
  submit : SubmitPhase
  /-- Where its future stands. -/
  future : FuturePhase R E
  /-- Where its callable stands. -/
  closure : ClosurePhase R E
  /-- Whether an abort was signalled. -/
  aborted : Bool

namespace Task

/-- A task that was just admitted. -/
def new : Task R E := ⟨.spawning, .unspawned, .absent, false⟩

/-- What a poll does to the future of a task: `none` where the runtime does not poll it, or
where the poll makes no progress. -/
abbrev Poll (R E : Type) := Task R E → Option (Outcome R E) → Option (Task R E)

/-- A poll of a future of `TokioExecutorService`: the first one calls `spawn_blocking`, and
one after the callable has returned is ready with its result. -/
def pollCallable : Poll R E
  | ⟨submit, .scheduled, _, false⟩, none => some ⟨submit, .suspended, .queued, false⟩
  | ⟨submit, .suspended, .returned result, false⟩, none =>
    some ⟨submit, .dropping (some result), .returned result, false⟩
  | _, _ => none

/-- A poll of a future of `TokioIoExecutorService`: the user's future is pending, or it ends
one way or another. An error is `Failed`, and a panic reaches the join handle as
`Panicked`, as they do where a callable is run. -/
def pollFuture : Poll R E
  | ⟨submit, .scheduled, closure, false⟩, answer | ⟨submit, .suspended, closure, false⟩, answer =>
    some ⟨submit, answer.elim .suspended fun outcome => .dropping (some (runCallable outcome)),
      closure, false⟩
  | _, _ => none

/-- The runtime drops the future of a task that was aborted. It does not drop others: it is not
shut down as long as the service is in use. -/
def drop : Task R E → Option (Task R E)
  | ⟨submit, .scheduled, closure, true⟩ | ⟨submit, .suspended, closure, true⟩ =>
    some ⟨submit, .dropping (some (.error .cancelled)), closure, true⟩
  | _ => none

/-- A blocking thread takes the callable. -/
def closureStarts : Task R E → Option (Task R E)
  | ⟨submit, future, .queued, aborted⟩ => some ⟨submit, future, .executing, aborted⟩
  | _ => none

/-- The callable ends on its blocking thread. -/
def closureReturns (outcome : Outcome R E) : Task R E → Option (Task R E)
  | ⟨submit, future, .executing, aborted⟩ =>
    some ⟨submit, future, .returned (runCallable outcome), aborted⟩
  | _ => none

/-- `TokioTaskHandle::cancel`, by whoever the submission has returned the handle to. -/
def cancel (t : Task R E) : Option (Task R E) :=
  if t.submit = .returned then some { t with aborted := true } else none

/-- The submission calls `tokio::spawn`, in a runtime or not. -/
def spawn (inRuntime : Bool) : Task R E → Option (Task R E)
  | ⟨.spawning, .unspawned, closure, aborted⟩ =>
    some (if inRuntime then ⟨.listing, .scheduled, closure, aborted⟩
      else ⟨.panicked, .dropping none, closure, aborted⟩)
  | _ => none

end Task

/-! ### The service -/

/-- Who holds the submission lock, and how far they have come. -/
inductive Holder
  /-- A submission; `shutdown.load()` is to come. -/
  | submitChecking
  /-- A submission; `active_tasks.inc()` is to come. -/
  | submitCounting
  /-- A submission, about to release the lock. -/
  | submitReleasing
  /-- `shutdown`; `shutdown.store(true)` is to come. -/
  | shutdownStoring
  /-- `shutdown`, inside `notify_if_terminated`. -/
  | shutdownAnnouncing (a : Announce)
  /-- `shutdown_now`; `shutdown.store(true)` is to come. -/
  | shutdownNowStoring
  /-- `shutdown_now`; `active_tasks.get()` is to come. -/
  | shutdownNowReading
  /-- `shutdown_now`; the lock of `abort_handles` is to be taken. -/
  | shutdownNowLocking (running : ℕ)
  /-- `shutdown_now` with both locks, about to signal the handles it drains. -/
  | shutdownNowAborting (pending : List ℕ) (report : ShutdownReport)
  /-- `shutdown_now`, inside `notify_if_terminated`. -/
  | shutdownNowAnnouncing (a : Announce) (report : ShutdownReport)
  deriving DecidableEq, Repr

/-- Whether a holder of the submission lock also holds the one of `abort_handles`. -/
def Holder.locksHandles : Holder → Bool
  | shutdownNowAborting _ _ => true
  | _ => false

/-- `TokioExecutorServiceState` and `TokioIoExecutorServiceState`, and the threads around
them. -/
structure Service (R E : Type) extends Core Await where
  /-- The tasks whose handles are in `abort_handles`. -/
  abortHandles : List ℕ
  /-- Who holds `submission_lock`. -/
  submissionLock : Option Holder
  /-- The tasks admitted so far. -/
  tasks : List (Task R E)
  /-- What the calls on the service have returned so far. -/
  replies : List Reply

namespace Service

/-- `TokioExecutorService::new` and `TokioIoExecutorService::new`. -/
def new : Service R E := ⟨.new, [], none, [], []⟩

/-- The holder of the submission lock moves on. -/
def hold (s : Service R E) (h : Holder) : Service R E := { s with submissionLock := some h }

/-- The submission lock is released by a call that returns. -/
def release (s : Service R E) (reply : Reply) : Service R E :=
  { s with submissionLock := none, replies := s.replies ++ [reply] }

/-- A task moves on. -/
def setTask (s : Service R E) (i : ℕ) (t : Task R E) : Service R E :=
  { s with tasks := s.tasks.set i t }

/-- A step of one task that concerns nobody else. -/
def onTask (s : Service R E) (i : ℕ) (f : Task R E → Option (Task R E)) : Option (Service R E) :=
  (s.tasks[i]?).bind fun t => (f t).map (s.setTask i)

/-- `abort`, on the handle of a task. -/
def abort (s : Service R E) (i : ℕ) : Service R E :=
  match s.tasks[i]? with
  | some t => s.setTask i { t with aborted := true }
  | none => s

/-- The holder of the submission lock takes its next step. -/
def holderNext (s : Service R E) : Holder → Service R E
  | .submitChecking =>
    if s.shutdown then s.release (.submit (.error .shutdown)) else s.hold .submitCounting
  | .submitCounting => { s with toCore := s.enter }.hold .submitReleasing
  | .submitReleasing => { s with submissionLock := none, tasks := s.tasks ++ [.new] }
  | .shutdownStoring => { s with toCore := s.close }.hold (.shutdownAnnouncing .loadShutdown)
  | .shutdownAnnouncing a =>
    match s.announce a with
    | (some a', c) => { s with toCore := c }.hold (.shutdownAnnouncing a')
    | (none, c) => { s with toCore := c }.release .shutdown
  | .shutdownNowStoring => { s with toCore := s.close }.hold .shutdownNowReading
  | .shutdownNowReading => s.hold (.shutdownNowLocking s.activeTasks)
  | .shutdownNowLocking running =>
    { s with abortHandles := [] }.hold
      (.shutdownNowAborting s.abortHandles ⟨0, running, s.abortHandles.length⟩)
  | .shutdownNowAborting (i :: pending) report =>
    (s.abort i).hold (.shutdownNowAborting pending report)
  | .shutdownNowAborting [] report => s.hold (.shutdownNowAnnouncing .loadShutdown report)
  | .shutdownNowAnnouncing a report =>
    match s.announce a with
    | (some a', c) => { s with toCore := c }.hold (.shutdownNowAnnouncing a' report)
    | (none, c) => { s with toCore := c }.release (.shutdownNow report)

/-- A submission puts its abort handle into `abort_handles` and returns. -/
def list (s : Service R E) (i : ℕ) : Option (Service R E) :=
  match s.tasks[i]? with
  | some ⟨.listing, future, closure, aborted⟩ =>
    if s.submissionLock.any Holder.locksHandles then none
    else some { s.setTask i ⟨.returned, future, closure, aborted⟩ with
      abortHandles := s.abortHandles ++ [i], replies := s.replies ++ [.submit (.ok i)] }
  | _ => none

/-- What comes after a step of a guard that may end inside `notify_if_terminated`. -/
def guardAfter (output : Option (TaskResult R E)) : Option Announce → FuturePhase R E
  | some a => .announcing a output
  | none => .ended output

/-- The guard of a task takes its next step. -/
def guardNext (s : Service R E) (i : ℕ) : Option (Service R E) :=
  match s.tasks[i]? with
  | some ⟨submit, .dropping output, closure, aborted⟩ =>
    some ({ s with toCore := s.leave.2 }.setTask i
      ⟨submit, guardAfter output s.leave.1, closure, aborted⟩)
  | some ⟨submit, .announcing a output, closure, aborted⟩ =>
    some ({ s with toCore := (s.announce a).2 }.setTask i
      ⟨submit, guardAfter output (s.announce a).1, closure, aborted⟩)
  | _ => none

end Service

/-- The actions of the services. -/
inductive Action (R E : Type)
  /-- A submission takes the submission lock. -/
  | submit
  /-- A call of `shutdown` takes the submission lock. -/
  | shutdown
  /-- A call of `shutdown_now` takes the submission lock. -/
  | shutdownNow
  /-- The holder of the submission lock takes its next step. -/
  | holderNext
  /-- A submission calls `tokio::spawn`. -/
  | spawn (task : ℕ) (inRuntime : Bool)
  /-- A submission puts its abort handle into `abort_handles` and returns. -/
  | list (task : ℕ)
  /-- The runtime polls the future of a task; `answer` is how a future of the user ends, if
  it does. -/
  | poll (task : ℕ) (answer : Option (Outcome R E))
  /-- The runtime drops the future of a task that was aborted. -/
  | drop (task : ℕ)
  /-- The guard of a task takes its next step. -/
  | guardNext (task : ℕ)
  /-- A blocking thread takes the callable of a task. -/
  | closureStarts (task : ℕ)
  /-- The callable of a task ends on its blocking thread. -/
  | closureReturns (task : ℕ) (outcome : Outcome R E)
  /-- A user calls `TokioTaskHandle::cancel`. -/
  | cancel (task : ℕ)
  /-- A user calls `await_termination`. -/
  | await
  /-- A future of `await_termination` takes its next step. -/
  | awaitNext (waiter : ℕ)
  /-- A future of `await_termination` is dropped. -/
  | awaitDrop (waiter : ℕ)
  /-- A user calls `is_terminated`. -/
  | isTerminated
  /-- A call of `is_terminated` takes its next step. -/
  | queryNext (query : ℕ)

namespace Service

/-- A call takes the submission lock, if it is free. -/
def acquire (s : Service R E) (h : Holder) : Option (Service R E) :=
  if s.submissionLock = none then some (s.hold h) else none

/-- One step of a service whose futures are polled by `poll`. -/
def step (poll : Task.Poll R E) (s : Service R E) : Action R E → Option (Service R E)
  | .submit => s.acquire .submitChecking
  | .shutdown => s.acquire .shutdownStoring
  | .shutdownNow => s.acquire .shutdownNowStoring
  | .holderNext => s.submissionLock.map s.holderNext
  | .spawn i inRuntime =>
    (s.onTask i (Task.spawn inRuntime)).map fun s' =>
      if inRuntime then s' else { s' with replies := s'.replies ++ [.submitPanicked] }
  | .list i => s.list i
  | .poll i answer => s.onTask i fun t => poll t answer
  | .drop i => s.onTask i Task.drop
  | .guardNext i => s.guardNext i
  | .closureStarts i => s.onTask i Task.closureStarts
  | .closureReturns i outcome => s.onTask i (Task.closureReturns outcome)
  | .cancel i => s.onTask i Task.cancel
  | .await => some { s with toCore := s.toCore.await }
  | .awaitNext k => (s.toCore.awaitNext k).map fun c => { s with toCore := c }
  | .awaitDrop k => (s.toCore.awaitDrop k).map fun c => { s with toCore := c }
  | .isTerminated => some { s with toCore := s.query }
  | .queryNext k => (s.toCore.queryNext k).map fun c => { s with toCore := c }

end Service

/-- A service on a Tokio runtime, given how its futures are polled. -/
def machine (poll : Task.Poll R E) : Machine (Service R E) (Action R E) where
  init s := s = .new
  step := Service.step poll

/-- **The machine of a `TokioExecutorService`.** -/
def executorMachine (R E : Type) : Machine (Service R E) (Action R E) :=
  machine Task.pollCallable

/-- **The machine of a `TokioIoExecutorService`.** -/
def ioExecutorMachine (R E : Type) : Machine (Service R E) (Action R E) :=
  machine Task.pollFuture

end Tokio

end QubitConcurrent
