import QubitConcurrent.Lib.Machine
import QubitConcurrent.Lib.Lists

/-!
# The cell behind a task handle

A task that runs outside the stack of its caller reports to a cell: a result that
is published once, a flag that the task was started, a flag that the result is
there, and the waker of whoever polls for it. `TaskCompletion` is the endpoint the
runner has, and may be cloned; `TaskHandle` is the endpoint the caller has, and may
not: `get` consumes it.

The first part is the cell and what each critical section of its monitor does to
it. The second is the machine: any number of calls on clones of the completion, the
one handle, and every interleaving of their critical sections and of what they do
after them – `finish` notifies and wakes after releasing the lock.

What is kept besides is the `trace`, the answers the critical sections have given so
far in their order.
-/

namespace QubitConcurrent

namespace TaskHandle

/-- Why an accepted task has no value to show. -/
inductive TaskExecutionError (E : Type)
  /-- The task ran and returned an error. -/
  | failed (error : E)
  /-- The task panicked. -/
  | panicked
  /-- The task was cancelled before it started. -/
  | cancelled
  deriving DecidableEq, Repr

/-- `TaskResult`. -/
abbrev TaskResult (R E : Type) := Except (TaskExecutionError E) R

variable {R E W : Type}

/-- How a call of `Callable::call` ends. -/
inductive Outcome (R E : Type)
  /-- It returns a value. -/
  | value (value : R)
  /-- It returns an error. -/
  | error (error : E)
  /-- It panics. -/
  | panic

/-- `run_callable`: whatever the callable does, there is a result. -/
def runCallable : Outcome R E → TaskResult R E
  | .value value => .ok value
  | .error error => .error (.failed error)
  | .panic => .error .panicked

/-! ### The cell -/

/-- `TaskHandleInner`: what the monitor protects, and the atomic mirror beside
it. -/
structure TaskHandleInner (R E W : Type) where
  /-- The result, between completion and retrieval. -/
  result : Option (TaskResult R E)
  /-- Whether a runner has started the task. -/
  started : Bool
  /-- Whether a result was published. -/
  completed : Bool
  /-- The waker of the last poll before completion. -/
  waker : Option W
  /-- The atomic flag behind `is_done`. -/
  done : Bool

namespace TaskHandleInner

/-- The cell `completion_pair` starts from. -/
def new : TaskHandleInner R E W := ⟨none, false, false, none, false⟩

/-- `TaskCompletion::start`. -/
def start (c : TaskHandleInner R E W) : Bool × TaskHandleInner R E W :=
  if c.completed then (false, c) else (true, { c with started := true })

/-- `TaskCompletion::finish`, as far as it runs inside the monitor: whether the
result was published, and the waker to be woken if so. -/
def finish (result : TaskResult R E) (canFinish : TaskHandleInner R E W → Bool)
    (c : TaskHandleInner R E W) : (Bool × Option W) × TaskHandleInner R E W :=
  if c.completed || !canFinish c then
    ((false, none), c)
  else
    ((true, c.waker),
      { c with result := some result, completed := true, done := true, waker := none })

/-- `TaskCompletion::complete`. -/
def complete (result : TaskResult R E) :
    TaskHandleInner R E W → (Bool × Option W) × TaskHandleInner R E W :=
  finish result fun _ => true

/-- `TaskCompletion::cancel`. -/
def cancel : TaskHandleInner R E W → (Bool × Option W) × TaskHandleInner R E W :=
  finish (.error .cancelled) fun c => !c.started

/-- How `poll`, or a round of `get`, ends. -/
inductive Taken (R E : Type)
  /-- No result was published yet. -/
  | notYet
  /-- The result was taken. -/
  | result (result : TaskResult R E)
  /-- `expect("task handle completed without a result")`. -/
  | missing

/-- A round of the wait loop of `TaskHandle::get`, and the body of `poll` but for the
waker. -/
def take (c : TaskHandleInner R E W) : Taken R E × TaskHandleInner R E W :=
  if c.completed then
    match c.result with
    | some result => (.result result, { c with result := none })
    | none => (.missing, c)
  else
    (.notYet, c)

/-- `TaskHandle::poll`. -/
def poll (waker : W) (c : TaskHandleInner R E W) : Taken R E × TaskHandleInner R E W :=
  match c.take with
  | (.notYet, c') => (.notYet, { c' with waker := some waker })
  | r => r

end TaskHandleInner

/-! ### The threads around the cell -/

/-- What a call on a clone of the completion returned. -/
inductive Reply
  /-- `start`. -/
  | start (won : Bool)
  /-- `complete`. -/
  | complete
  /-- `cancel`, of a clone or of the handle. -/
  | cancel (published : Bool)
  /-- `start_and_complete`. -/
  | startAndComplete (executed : Bool)
  /-- The closure of `start_and_complete` unwound. -/
  | unwound
  deriving DecidableEq, Repr

/-- A call on a clone of the completion: what it still has to do, or what it
returned. -/
inductive Call (W : Type)
  /-- `start_and_complete` has won the start and is inside the closure. -/
  | executing
  /-- `finish` has published and still has to notify the waiters. -/
  | notify (waker : Option W) (reply : Reply)
  /-- `finish` has notified the waiters and still has to wake the poller. -/
  | wake (waker : W) (reply : Reply)
  /-- Returned. -/
  | returned (reply : Reply)

/-- Whether the call has returned. -/
def Call.isReturned : Call W → Bool
  | returned _ => true
  | _ => false

/-- Where the handle is. -/
inductive HandlePhase
  /-- With its owner, who may use it. -/
  | owned
  /-- Consumed by a `get` that waits, woken up or not. -/
  | getting (woken : Bool)
  /-- Consumed by a `get` that has returned. -/
  | consumed
  deriving DecidableEq, Repr

/-- The two ways to finish a task. -/
inductive FinishKind
  /-- `complete`, also at the end of `start_and_complete`. -/
  | complete
  /-- `cancel`. -/
  | cancel
  deriving DecidableEq, Repr

/-- What a critical section has answered. -/
inductive Event (R E : Type)
  /-- `start`. -/
  | start (won : Bool)
  /-- `finish`, with its result. -/
  | finish (kind : FinishKind) (result : TaskResult R E) (published : Bool)
  /-- `poll` returned `Pending`. -/
  | pending
  /-- `poll` returned `Ready`. -/
  | ready (result : TaskResult R E)
  /-- `get` returned. -/
  | got (result : TaskResult R E)
  /-- `expect("task handle completed without a result")` failed. -/
  | missing
  /-- `is_done` answered. -/
  | isDone (answer : Bool)
  deriving DecidableEq

/-- A cell and the threads around it. -/
structure Task (R E W : Type) where
  /-- The cell. -/
  inner : TaskHandleInner R E W
  /-- Where the handle is. -/
  handle : HandlePhase
  /-- The calls made on clones of the completion so far. -/
  calls : List (Call W)
  /-- The wakers woken so far. -/
  woken : List W
  /-- What the critical sections have answered so far. -/
  trace : List (Event R E)

/-- `completion_pair`. -/
def Task.new : Task R E W := ⟨.new, .owned, [], [], []⟩

/-- The actions on a cell. -/
inductive Action (R E W : Type)
  /-- `start`, on some clone. -/
  | start
  /-- `complete`, on some clone. -/
  | complete (result : TaskResult R E)
  /-- `cancel`, on some clone. -/
  | cancel
  /-- `start_and_complete`, on some clone. -/
  | startAndComplete
  /-- The closure of a `start_and_complete` returns, and `complete` publishes. -/
  | taskReturns (call : ℕ) (result : TaskResult R E)
  /-- The closure of a `start_and_complete` unwinds. -/
  | taskUnwinds (call : ℕ)
  /-- A `finish` that has published notifies the waiters. -/
  | notify (call : ℕ)
  /-- A `finish` that has notified wakes the poller. -/
  | wake (call : ℕ)
  /-- The handle is asked to cancel. -/
  | handleCancel
  /-- The handle is asked whether the task is done. -/
  | isDone
  /-- The handle is polled. -/
  | poll (waker : W)
  /-- The handle is consumed by `get`. -/
  | get
  /-- The waiting `get` wakes up spuriously. -/
  | wakeGetter
  /-- The `get` that was woken up reacquires the lock. -/
  | resumeGetter

namespace Task

/-- What comes after the critical section of `finish`. -/
def afterFinish (reply : Bool → Reply) : Bool × Option W → Call W
  | (false, _) => .returned (reply false)
  | (true, waker) => .notify waker (reply true)

/-- A new call, with the answer of its critical section. -/
def addCall (c : Call W) (e : Event R E) (t : Task R E W) : Task R E W :=
  { t with calls := t.calls ++ [c], trace := t.trace ++ [e] }

/-- `cancel`, on a clone or on the handle. -/
def cancelStep (t : Task R E W) : Task R E W :=
  let (answer, inner) := t.inner.cancel
  { t with inner := inner }.addCall (afterFinish .cancel answer)
    (.finish .cancel (.error .cancelled) answer.1)

/-- A round of the wait loop of `get`. -/
def getStep (t : Task R E W) : Task R E W :=
  match t.inner.take with
  | (.notYet, inner) => { t with inner := inner, handle := .getting false }
  | (.result result, inner) =>
    { t with inner := inner, handle := .consumed, trace := t.trace ++ [.got result] }
  | (.missing, inner) =>
    { t with inner := inner, handle := .consumed, trace := t.trace ++ [.missing] }

/-- `poll`. -/
def pollStep (waker : W) (t : Task R E W) : Task R E W :=
  match t.inner.poll waker with
  | (.notYet, inner) => { t with inner := inner, trace := t.trace ++ [.pending] }
  | (.result result, inner) => { t with inner := inner, trace := t.trace ++ [.ready result] }
  | (.missing, inner) => { t with inner := inner, trace := t.trace ++ [.missing] }

/-- One step on the cell. -/
def step (t : Task R E W) : Action R E W → Option (Task R E W)
  | .start =>
    let (won, inner) := t.inner.start
    some ({ t with inner := inner }.addCall (.returned (.start won)) (.start won))
  | .complete result =>
    let (answer, inner) := t.inner.complete result
    some ({ t with inner := inner }.addCall (afterFinish (fun _ => .complete) answer)
      (.finish .complete result answer.1))
  | .cancel => some t.cancelStep
  | .startAndComplete =>
    let (won, inner) := t.inner.start
    some ({ t with inner := inner }.addCall
      (if won then .executing else .returned (.startAndComplete false)) (.start won))
  | .taskReturns k result =>
    match t.calls[k]? with
    | some .executing =>
      let (answer, inner) := t.inner.complete result
      some { t with
        inner := inner
        -- the answer of `complete` is not looked at
        calls := t.calls.set k (afterFinish (fun _ => .startAndComplete true) answer)
        trace := t.trace ++ [.finish .complete result answer.1] }
    | _ => none
  | .taskUnwinds k =>
    match t.calls[k]? with
    | some .executing => some { t with calls := t.calls.set k (.returned .unwound) }
    | _ => none
  | .notify k =>
    match t.calls[k]? with
    | some (.notify waker reply) =>
      some { t with
        handle := if t.handle = .getting false then .getting true else t.handle
        calls := t.calls.set k (waker.elim (.returned reply) fun w => .wake w reply) }
    | _ => none
  | .wake k =>
    match t.calls[k]? with
    | some (.wake waker reply) =>
      some { t with calls := t.calls.set k (.returned reply), woken := t.woken ++ [waker] }
    | _ => none
  | .handleCancel => if t.handle = .owned then some t.cancelStep else none
  | .isDone =>
    if t.handle = .owned then some { t with trace := t.trace ++ [.isDone t.inner.done] } else none
  | .poll waker => if t.handle = .owned then some (t.pollStep waker) else none
  | .get => if t.handle = .owned then some t.getStep else none
  | .wakeGetter =>
    if t.handle = .getting false then some { t with handle := .getting true } else none
  | .resumeGetter => if t.handle = .getting true then some t.getStep else none

end Task

/-- **The machine of a task handle.** -/
def machine (R E W : Type) : Machine (Task R E W) (Action R E W) where
  init t := t = .new
  step := Task.step

end TaskHandle

end QubitConcurrent
