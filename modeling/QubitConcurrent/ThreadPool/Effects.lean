import QubitConcurrent.ThreadPool.Sections
import QubitConcurrent.ThreadPool.Steps

/-!
# What a step of the pool can do

A step of the machine is a whole critical section, and the same small things
happen in many of them: a job is claimed, a worker parks, a thread is woken up.
Here they are said once. `QubitConcurrent.ThreadPool.Effect` lists the effects a
step is composed of, each with what the code has checked before it happens, and
`QubitConcurrent.ThreadPool.step_effects` says that every step is a chain of
them. An invariant of the pool is from then on checked effect by effect
(`QubitConcurrent.ThreadPool.reach_invariant`).

Some effects are defects: a run callback that unwinds, a count that is taken
back without having been made, a notification that reaches somebody it was not
meant for. Each needs a permission in the `QubitConcurrent.ThreadPool.Mode` the
step is made under, so that a statement about runs without them is a statement
about another mode.

That a step decomposes rests on facts no critical section checks for itself –
that the counters count what they are named after, and that worker indices are
distinct. They are `QubitConcurrent.ThreadPool.Wf`, and hold in *every* run,
defects included.
-/

namespace QubitConcurrent

namespace ThreadPool

variable {Job : Type}

/-- What a step is permitted to do besides what the pool expects. -/
structure Mode where
  /-- Run callbacks may unwind, thread creations may panic, and one that fails
  without a first task while other jobs run may take back a count it has not made. -/
  faulty : Prop
  /-- A `notify_one` may wake a `wait_for_termination` of a running pool. -/
  stray : Prop
  /-- `wait_for_termination` may be called on a running pool. -/
  early : Prop
  /-- A worker may leave. -/
  leaves : Prop

/-- Everything is permitted. -/
def Mode.any : Mode := ⟨True, True, True, True⟩

/-- Whether a call holds no job, is not parked, owes no notification and is not
one of `shutdown_now`. -/
def Call.isQuiet : Call Job → Bool
  | prestartAll _ => true
  | returned (.shutdownNow _) => false
  | returned _ => true
  | _ => false

/-- A quiet call holds no drained job. -/
theorem Call.drained_of_isQuiet {c : Call Job} (h : c.isQuiet = true) : c.drained = [] := by
  cases c with
  | shutdownNow jobs current report => exact absurd h (by simp [isQuiet])
  | shutdownNowUnwound jobs message => exact absurd h (by simp [isQuiet])
  | _ => rfl

/-- A call of `shutdown_now` is not quiet. -/
theorem Call.isQuiet_of_isShutdownNow {c : Call Job} (h : c.isShutdownNow = true) :
    c.isQuiet = false := by
  cases c with
  | shutdownNow jobs current report => rfl
  | shutdownNowUnwound jobs message => rfl
  | returned reply =>
    cases reply with
    | shutdownNow report => rfl
    | _ => exact absurd h (by simp [isShutdownNow])
  | _ => exact absurd h (by simp [isShutdownNow])

/-- What `submit` leaves behind holds no drained job. -/
@[simp] theorem Call.drained_enqueueCall (st : ThreadPoolState Job) :
    (st.enqueueCall).drained = [] := by
  rw [ThreadPoolState.enqueueCall]
  split_ifs <;> rfl

/-- The call of a `submit` that has queued its job holds no drained job. -/
theorem Call.drained_of_enqueued {c : Call Job} {st : ThreadPoolState Job}
    (hc : c = st.enqueueCall ∨ c.isQuiet = true ∧ st.idleWorkers = 0) : c.drained = [] := by
  rcases hc with rfl | ⟨hquiet, -⟩
  · exact Call.drained_enqueueCall st
  · exact Call.drained_of_isQuiet hquiet

/-- Whether a call is a `wait_for_termination` that has not returned. -/
def Call.isAwaiting : Call Job → Bool
  | waitForTermination _ => true
  | _ => false

/-- A job was handed to `submit` and not accepted. -/
def Ledger.present (job : Job) (l : Ledger Job) : Ledger Job :=
  { l with presented := l.presented ++ [job] }

/-- A job was handed to `submit` and accepted. -/
def Ledger.accept (job : Job) (l : Ledger Job) : Ledger Job :=
  { l with presented := l.presented ++ [job], accepted := l.accepted ++ [job] }

/-- **The effects a step of the pool is composed of.** -/
inductive Effect (m : Mode) (s : Pool Job) : Pool Job → Prop
  /-- An index is used up by a thread that could not be created. -/
  | skipIndex :
      Effect m s { s with state := { s.state with
        nextWorkerIndex := s.state.nextWorkerIndex + 1 } }
  /-- The round-robin cursor moves. -/
  | moveCursor (c : ℕ) : Effect m s { s with nextEnqueueWorker := c }
  /-- A call that concerns nobody else is made. -/
  | call (c : Call Job) (hc : c.isQuiet = true) : Effect m s { s with calls := s.calls ++ [c] }
  /-- A call that concerns nobody else moves on. -/
  | callMoves (c₁ c₂ : List (Call Job)) (c c' : Call Job) (hcalls : s.calls = c₁ ++ c :: c₂)
      (hc : c.isQuiet = true) (hc' : c'.isQuiet = true) :
      Effect m s { s with calls := c₁ ++ c' :: c₂ }
  /-- A setter writes its value. -/
  | configure (core maximum : ℕ) (keepAlive : Duration) (allow : Bool)
      (hsizes : SizesOk s.state.corePoolSize s.state.maximumPoolSize s.state.keepAlive →
        SizesOk core maximum keepAlive) :
      Effect m s { s with state := s.state.configured core maximum keepAlive allow
                          calls := s.calls ++ [.setterNotify] }
  /-- A setter has told everybody. -/
  | setterDone (c₁ c₂ : List (Call Job)) (hcalls : s.calls = c₁ ++ .setterNotify :: c₂)
      (hparked : s.noneParked = true) :
      Effect m s { s with calls := c₁ ++ .returned (.setter (.ok ())) :: c₂ }
  /-- `submit` does not accept a job. -/
  | reject (job : Job) (c : Call Job) (hc : c.isQuiet = true)
      (hnew : job ∉ s.ledger.presented) :
      Effect m s { s with calls := s.calls ++ [c]
                          ledger := s.ledger.present job }
  /-- `submit` has taken a job back and will cancel it. -/
  | rollback (job : Job) (error : RejectedExecution) (hnew : job ∉ s.ledger.presented) :
      Effect m s { s with calls := s.calls ++ [.submitRollback job error false]
                          ledger := s.ledger.present job }
  /-- The cancel callback of a job taken back is invoked. -/
  | rollbackInvoked (c₁ c₂ : List (Call Job)) (job : Job) (error : RejectedExecution)
      (hcalls : s.calls = c₁ ++ .submitRollback job error false :: c₂) :
      Effect m s { s with
        calls := c₁ ++ .submitRollback job error true :: c₂
        ledger := { s.ledger with rollbackInvoked := s.ledger.rollbackInvoked ++ [job] } }
  /-- The cancel callback of a job taken back returns. -/
  | rollbackReturned (c₁ c₂ : List (Call Job)) (job : Job) (error : RejectedExecution)
      (hcalls : s.calls = c₁ ++ .submitRollback job error true :: c₂) :
      Effect m s { s with
        calls := c₁ ++ .returned (.submit (.error error)) :: c₂
        ledger := { s.ledger with rollbackReturned := s.ledger.rollbackReturned ++ [job] } }
  /-- The cancel callback of a job taken back unwinds. -/
  | rollbackUnwound (c₁ c₂ : List (Call Job)) (job : Job) (error : RejectedExecution)
      (message : String) (hcalls : s.calls = c₁ ++ .submitRollback job error true :: c₂) :
      Effect m s { s with calls := c₁ ++ .returned (.panicked message) :: c₂ }
  /-- A worker without a first task is created. -/
  | spawnIdle (hrun : s.state.lifecycle = .running)
      (hroom : s.state.liveWorkers < s.state.corePoolSize ∨ s.state.liveWorkers = 0) :
      Effect m s (s.spawned none)
  /-- A worker is created for an accepted job. -/
  | spawnFor (job : Job) (hnew : job ∉ s.ledger.presented) (hrun : s.state.lifecycle = .running)
      (hroom : s.state.liveWorkers < s.state.corePoolSize ∨
        s.state.isSaturated = true ∧ s.state.liveWorkers < s.state.maximumPoolSize) :
      Effect m s { s.spawned (some job) with
        state := { (s.spawned (some job)).state with
          submittedTasks := s.state.submittedTasks + 1 }
        calls := s.calls ++ [.returned (.submit (.ok ()))]
        ledger := s.ledger.accept job }
  /-- Creating a worker panics. It stays registered, and whatever was counted for it
  stays counted. -/
  | spawnPanics (firstTask : Option Job) (hm : m.faulty) (hrun : s.state.lifecycle = .running)
      (hroom : s.state.liveWorkers < s.state.corePoolSize ∨ s.state.liveWorkers = 0 ∨
        s.state.isSaturated = true ∧ s.state.liveWorkers < s.state.maximumPoolSize) :
      Effect m s (s.stillborn firstTask)
  /-- An accepted job goes to the global queue. A call that ends by that is not to
  notify anybody. -/
  | enqueueGlobal (job : Job) (c : Call Job)
      (hc : c = s.state.enqueueCall ∨ c.isQuiet = true ∧ s.state.idleWorkers = 0)
      (hnew : job ∉ s.ledger.presented)
      (hrun : s.state.lifecycle = .running) (hlive : 0 < s.state.liveWorkers) :
      Effect m s { s with
        state := { s.state.enqueue with queue := s.state.queue ++ [job] }
        calls := s.calls ++ [c]
        ledger := s.ledger.accept job }
  /-- An accepted job goes to a local queue. -/
  | enqueueLocal (job : Job) (hnew : job ∉ s.ledger.presented)
      (hrun : s.state.lifecycle = .running) (hlive : 0 < s.state.liveWorkers)
      (hcap : s.state.queueCapacity.isSome = true) (hidle : s.state.idleWorkers = 0)
      (q₁ q₂ : List (WorkerQueue Job)) (q : WorkerQueue Job)
      (hqs : s.workerQueues = q₁ ++ q :: q₂) :
      Effect m s { s with
        state := s.state.enqueue
        workerQueues := q₁ ++ q.pushBack job :: q₂
        calls := s.calls ++ [s.state.enqueueCall]
        ledger := s.ledger.accept job }
  /-- A `notify_one` is over: it has found a parked worker, or none was there, or
  it does not matter – or somebody else was woken up in its place. -/
  | notifyDone (c₁ c₂ : List (Call Job)) (hcalls : s.calls = c₁ ++ .submitNotify :: c₂)
      (hwoken : m.stray ∨ s.state.lifecycle ≠ .running ∨
        (∀ w ∈ s.workers, w.phase.isParked = false) ∨
        ∃ w ∈ s.workers, w.phase.isWaiting = true ∧ w.phase.isParked = false) :
      Effect m s { s with calls := c₁ ++ .returned (.submit (.ok ())) :: c₂ }
  /-- A worker leaves the wait set. -/
  | wakeWorker (l₁ l₂ : List (Worker Job)) (w : Worker Job) (hw : s.workers = l₁ ++ w :: l₂)
      (timeout : Option Duration) (status : WaitTimeoutStatus)
      (hp : w.phase = .waiting timeout none) :
      Effect m s { s with
        workers := l₁ ++ { w with phase := .waiting timeout (some status) } :: l₂ }
  /-- A user waiting for termination leaves the wait set. -/
  | wakeCaller (c₁ c₂ : List (Call Job))
      (hcalls : s.calls = c₁ ++ .waitForTermination false :: c₂) :
      Effect m s { s with calls := c₁ ++ .waitForTermination true :: c₂ }
  /-- Everybody leaves the wait set. -/
  | wakeAll : Effect m s s.wakeAll
  /-- A worker takes the oldest job of the global queue. -/
  | claimGlobal (l₁ l₂ : List (Worker Job)) (w : Worker Job) (hw : s.workers = l₁ ++ w :: l₂)
      (hp : w.phase = .ready) (j : Job) (js : List Job) (hlife : s.state.lifecycle ≠ .stopping)
      (hq : s.state.queue = j :: js) :
      Effect m s { s with
        state := { s.state.claim with queue := js }
        workers := l₁ ++ { w with phase := .holding j } :: l₂
        ledger := { s.ledger with claimed := s.ledger.claimed ++ [j] } }
  /-- A worker takes the oldest job of a local queue. -/
  | claimLocal (l₁ l₂ : List (Worker Job)) (w : Worker Job) (hw : s.workers = l₁ ++ w :: l₂)
      (hp : w.phase = .ready) (q₁ q₂ : List (WorkerQueue Job)) (v : ℕ) (j : Job) (js : List Job)
      (hlife : s.state.lifecycle ≠ .stopping) (hqs : s.workerQueues = q₁ ++ ⟨v, j :: js⟩ :: q₂) :
      Effect m s { s with
        state := s.state.claim
        workerQueues := q₁ ++ ⟨v, js⟩ :: q₂
        workers := l₁ ++ { w with phase := .holding j } :: l₂
        ledger := { s.ledger with claimed := s.ledger.claimed ++ [j] } }
  /-- A worker for whom there is nothing to do parks. -/
  | park (l₁ l₂ : List (Worker Job)) (w : Worker Job) (hw : s.workers = l₁ ++ w :: l₂)
      (hp : w.phase = .ready) (hrun : s.state.lifecycle = .running) (hnil : s.queuedJobs = [])
      (hmax : s.state.liveWorkers ≤ s.state.maximumPoolSize) :
      Effect m s { s with
        state := { s.state with idleWorkers := s.state.idleWorkers + 1 }
        workers := l₁ ++ { w with phase := .waiting s.state.waitTimeout none } :: l₂ }
  /-- A worker woken up comes back. -/
  | unpark (l₁ l₂ : List (Worker Job)) (w : Worker Job) (hw : s.workers = l₁ ++ w :: l₂)
      (timeout : Option Duration) (status : WaitTimeoutStatus)
      (hp : w.phase = .waiting timeout (some status)) :
      Effect m s { s.unparked with workers := l₁ ++ { w with phase := .ready } :: l₂ }
  /-- A worker for whom there is nothing to do leaves. -/
  | exit (hm : m.leaves) (l₁ l₂ : List (Worker Job)) (w : Worker Job)
      (hw : s.workers = l₁ ++ w :: l₂)
      (hp : w.phase = .ready) (hnil : s.queuedJobs = [])
      (hwhy : s.state.lifecycle ≠ .running ∨ s.state.idleWorkerCanRetire = true)
      (q₁ q₂ : List (WorkerQueue Job)) (hqs : s.workerQueues = q₁ ++ ⟨w.index, []⟩ :: q₂) :
      Effect m s (Pool.notifyTerminated
        { s.unregistered q₁ q₂ with workers := l₁ ++ { w with phase := .exited } :: l₂ })
  /-- A run callback is invoked. -/
  | invokeRun (l₁ l₂ : List (Worker Job)) (w : Worker Job) (hw : s.workers = l₁ ++ w :: l₂)
      (j : Job) (hp : w.phase = .holding j) :
      Effect m s { s with
        workers := l₁ ++ { w with phase := .running j } :: l₂
        ledger := { s.ledger with runInvoked := s.ledger.runInvoked ++ [j] } }
  /-- A run callback returns. -/
  | runReturns (l₁ l₂ : List (Worker Job)) (w : Worker Job) (hw : s.workers = l₁ ++ w :: l₂)
      (j : Job) (hp : w.phase = .running j) :
      Effect m s { s with
        workers := l₁ ++ { w with phase := .finishing j } :: l₂
        ledger := { s.ledger with runReturned := s.ledger.runReturned ++ [j] } }
  /-- A job is accounted as finished. -/
  | finish (l₁ l₂ : List (Worker Job)) (w : Worker Job) (hw : s.workers = l₁ ++ w :: l₂)
      (j : Job) (hp : w.phase = .finishing j) (hpos : 0 < s.state.runningTasks) :
      Effect m s (Pool.notifyTerminated
        { s with
          state := { s.state with runningTasks := s.state.runningTasks - 1
                                  completedTasks := s.state.completedTasks + 1 }
          workers := l₁ ++ { w with phase := .ready } :: l₂
          ledger := { s.ledger with completed := s.ledger.completed ++ [j] } })
  /-- The pool stops accepting submissions. -/
  | shutdown (hparked : s.noneParked = true) :
      Effect m s { s with
        state := { s.state with lifecycle :=
          if s.state.lifecycle = .running then .shutdown else s.state.lifecycle }
        calls := s.calls ++ [.returned .shutdown] }
  /-- The queues are drained. -/
  | drain (hparked : s.noneParked = true) :
      Effect m s { s.drain with
        calls := s.calls ++ [.shutdownNow s.queuedJobs none
          ⟨s.state.queuedTasks, s.state.runningTasks, s.state.queuedTasks⟩] }
  /-- The cancel callback of a drained job is invoked. -/
  | cancelInvoked (c₁ c₂ : List (Call Job)) (job : Job) (jobs : List Job) (report : ShutdownReport)
      (hcalls : s.calls = c₁ ++ .shutdownNow (job :: jobs) none report :: c₂) :
      Effect m s { s with
        calls := c₁ ++ .shutdownNow jobs (some job) report :: c₂
        ledger := { s.ledger with cancelInvoked := s.ledger.cancelInvoked ++ [job] } }
  /-- The cancel callback of a drained job returns. -/
  | cancelReturned (c₁ c₂ : List (Call Job)) (job : Job) (jobs : List Job)
      (report : ShutdownReport)
      (hcalls : s.calls = c₁ ++ .shutdownNow jobs (some job) report :: c₂) :
      Effect m s { s with
        calls := c₁ ++ .shutdownNow jobs none report :: c₂
        ledger := { s.ledger with cancelReturned := s.ledger.cancelReturned ++ [job] } }
  /-- The cancel callback of a drained job unwinds. -/
  | cancelUnwound (c₁ c₂ : List (Call Job)) (job : Job) (jobs : List Job)
      (report : ShutdownReport) (message : String)
      (hcalls : s.calls = c₁ ++ .shutdownNow jobs (some job) report :: c₂) :
      Effect m s { s with calls := c₁ ++ .shutdownNowUnwound (job :: jobs) message :: c₂ }
  /-- `shutdown_now` returns. -/
  | shutdownNowReturned (c₁ c₂ : List (Call Job)) (report : ShutdownReport)
      (hcalls : s.calls = c₁ ++ .shutdownNow [] none report :: c₂) :
      Effect m s { s with calls := c₁ ++ .returned (.shutdownNow report) :: c₂ }
  /-- A user parks until termination. -/
  | parkCaller (hterm : s.state.isTerminated = false)
      (hearly : m.early ∨ s.state.lifecycle ≠ .running) :
      Effect m s { s with calls := s.calls ++ [.waitForTermination false] }
  /-- A user woken up too early parks again. -/
  | reparkCaller (c₁ c₂ : List (Call Job)) (hcalls : s.calls = c₁ ++ .waitForTermination true :: c₂)
      (hterm : s.state.isTerminated = false) :
      Effect m s { s with calls := c₁ ++ .waitForTermination false :: c₂ }
  /-- A user has waited long enough. -/
  | callerReturns (c₁ c₂ : List (Call Job))
      (hcalls : s.calls = c₁ ++ .waitForTermination true :: c₂)
      (hterm : s.state.isTerminated = true) :
      Effect m s { s with calls := c₁ ++ .returned .waitForTermination :: c₂ }
  /-- A run callback unwinds, and its worker with it. -/
  | unwind (l₁ l₂ : List (Worker Job)) (w : Worker Job) (hw : s.workers = l₁ ++ w :: l₂)
      (j : Job) (hp : w.phase = .running j) (hm : m.faulty) :
      Effect m s { s with
        workers := l₁ ++ { w with phase := .unwound } :: l₂
        ledger := { s.ledger with runUnwound := s.ledger.runUnwound ++ [j] } }
  /-- A job is to be accounted as finished, and none is counted as running. -/
  | finishPanics (l₁ l₂ : List (Worker Job)) (w : Worker Job) (hw : s.workers = l₁ ++ w :: l₂)
      (j : Job) (hp : w.phase = .finishing j) (hzero : s.state.runningTasks = 0) :
      Effect m s { s with
        workers := l₁ ++ { w with phase := .unwound } :: l₂
        ledger := { s.ledger with abandoned := s.ledger.abandoned ++ [j] } }
  /-- A count of a running job is taken back that was not made. -/
  | dropRunning (hm : m.faulty) (hpos : 0 < s.state.runningTasks) :
      Effect m s { s with state := { s.state with runningTasks := s.state.runningTasks - 1 } }

end ThreadPool

end QubitConcurrent
