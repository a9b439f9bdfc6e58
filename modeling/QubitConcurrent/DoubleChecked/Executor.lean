import QubitConcurrent.Lib.History

/-!
# The double-checked lock executor

An invocation of `DoubleCheckedLockExecutor` evaluates the tester, runs the prepare action if
there is one, takes the write lock, evaluates the tester again, runs the task with the data,
releases the lock, and then commits or rolls back what it has prepared. Invocations on clones
of one executor share the lock, the data behind it, and the configuration; all the rest of an
invocation is where its control stands, a `QubitConcurrent.DoubleChecked.Phase`.

What the tester, the hooks and the task do is not the executor's, and neither is how an error
of the task is made text. Each time one of them is invoked the run says how that call ends: it
returns something, or it panics. A panic of the logger, or of what is dropped after a call, is
one of the call that it follows. A panic inside the critical section releases the lock, and
poisons it where the lock is one of the standard library's.
-/

namespace QubitConcurrent

namespace DoubleChecked

/-! ### Results -/

/-- `ExecutorError`. -/
inductive ExecutorError (E : Type)
  /-- The task returned an error. -/
  | taskFailed (err : E)
  /-- The prepare action failed. -/
  | prepareFailed (msg : String)
  /-- The commit action failed. -/
  | prepareCommitFailed (msg : String)
  /-- The rollback action failed, after another failure. -/
  | prepareRollbackFailed (original rollback : String)
  /-- The lock is poisoned. -/
  | lockPoisoned (msg : String)
  deriving DecidableEq, Repr

/-- `fmt` of `ExecutorError`. -/
def ExecutorError.fmt {E : Type} [ToString E] : ExecutorError E → String
  | taskFailed e => "Task execution failed: " ++ toString e
  | prepareFailed msg => "Preparation action failed: " ++ msg
  | prepareCommitFailed msg => "Prepare commit action failed: " ++ msg
  | prepareRollbackFailed original rollback =>
    "Prepare rollback failed: original error = " ++ original ++ ", rollback error = " ++ rollback
  | lockPoisoned msg => "Lock poisoned: " ++ msg

/-- `ExecutionResult`. -/
inductive ExecutionResult (R E : Type)
  /-- The task returned a value. -/
  | success (value : R)
  /-- One of the checks was false. -/
  | conditionNotMet
  /-- Something failed. -/
  | failed (err : ExecutorError E)
  deriving DecidableEq, Repr

namespace ExecutionResult

variable {R E : Type}

/-- `unmet`. -/
def unmet : ExecutionResult R E := .conditionNotMet

/-- `task_failed`. -/
def taskFailed (err : E) : ExecutionResult R E := .failed (.taskFailed err)

/-- `prepare_failed`. -/
def prepareFailed (msg : String) : ExecutionResult R E := .failed (.prepareFailed msg)

/-- `prepare_commit_failed`. -/
def prepareCommitFailed (msg : String) : ExecutionResult R E := .failed (.prepareCommitFailed msg)

/-- `prepare_rollback_failed`. -/
def prepareRollbackFailed (original rollback : String) : ExecutionResult R E :=
  .failed (.prepareRollbackFailed original rollback)

/-- `is_success`. -/
def isSuccess : ExecutionResult R E → Bool
  | success _ => true
  | _ => false

/-- The result of the critical section when the task has run. -/
def ofTask : Except E R → ExecutionResult R E
  | .ok value => success value
  | .error err => taskFailed err

/-- What `finalize_prepare` calls the original error. -/
def original [ToString E] : ExecutionResult R E → String
  | failed err => err.fmt
  | _ => "Condition not met"

end ExecutionResult

/-! ### The logger -/

/-- A level of the `log` crate. -/
inductive Level
  | error | warn | info | debug | trace
  deriving DecidableEq, Repr

/-- A record handed to the `log` crate. -/
abbrev Line := Level × String

/-- `ExecutionLogger`, with its defaults. -/
structure ExecutionLogger where
  /-- The level for unmet conditions, `none` where they are not logged. -/
  unmetConditionLevel : Option Level := none
  /-- What is logged of an unmet condition. -/
  unmetConditionMessage : String := ""
  /-- The level for failures of prepare. -/
  prepareFailedLevel : Option Level := some .error
  /-- What comes before the error of prepare. -/
  prepareFailedMessage : String := "Prepare action failed"
  /-- The level for failures of commit. -/
  prepareCommitFailedLevel : Option Level := some .error
  /-- What comes before the error of commit. -/
  prepareCommitFailedMessage : String := "Prepare commit action failed"
  /-- The level for failures of rollback. -/
  prepareRollbackFailedLevel : Option Level := some .error
  /-- What comes before the error of rollback. -/
  prepareRollbackFailedMessage : String := "Prepare rollback action failed"

namespace ExecutionLogger

/-- What is logged at a level that may be switched off. -/
def logAt (level : Option Level) (message : String) : List Line :=
  level.elim [] fun level => [(level, message)]

/-- `log_unmet_condition`. -/
def logUnmetCondition (l : ExecutionLogger) : List Line :=
  logAt l.unmetConditionLevel l.unmetConditionMessage

/-- `log_prepare_failed`. -/
def logPrepareFailed (l : ExecutionLogger) (err : String) : List Line :=
  logAt l.prepareFailedLevel (l.prepareFailedMessage ++ ": " ++ err)

/-- `log_prepare_commit_failed`. -/
def logPrepareCommitFailed (l : ExecutionLogger) (err : String) : List Line :=
  logAt l.prepareCommitFailedLevel (l.prepareCommitFailedMessage ++ ": " ++ err)

/-- `log_prepare_rollback_failed`. -/
def logPrepareRollbackFailed (l : ExecutionLogger) (err : String) : List Line :=
  logAt l.prepareRollbackFailedLevel (l.prepareRollbackFailedMessage ++ ": " ++ err)

end ExecutionLogger

/-! ### The lock, the callbacks and the invocations -/

/-- A lock and what it protects. -/
structure LockCell (T : Type) where
  /-- The protected value. -/
  value : T
  /-- The invocation inside the critical section. -/
  holder : Option ℕ
  /-- Whether a panic in the critical section poisons the lock: so it is with the locks of the
  standard library, and not with the others. -/
  poisons : Bool
  /-- Whether the lock is poisoned. -/
  poisoned : Bool

namespace LockCell

variable {T : Type}

/-- The guard is dropped. -/
def release (lock : LockCell T) : LockCell T := { lock with holder := none }

/-- The guard is dropped by a panic. -/
def unwind (lock : LockCell T) : LockCell T :=
  { lock with holder := none, poisoned := lock.poisoned || lock.poisons }

end LockCell

/-- How a call of a callback ends. -/
inductive Answer (α : Type)
  /-- It returns. -/
  | returned (a : α)
  /-- It panics. -/
  | panicked
  deriving DecidableEq, Repr

/-- What a caller hands in: the closure given to `execute_with_write_lock`. -/
inductive Task (T R E : Type)
  /-- `call` and `execute`: the task does not see the data. -/
  | plain (answer : Answer (Except E R))
  /-- `call_with` and `execute_with`: the task may change the data, also before a panic. -/
  | withData (run : T → T × Answer (Except E R))

/-- The task is run with the data. -/
def Task.run {T R E : Type} : Task T R E → T → T × Answer (Except E R)
  | plain answer, data => (data, answer)
  | withData run, data => run data

/-- `DoubleCheckedLockExecutor`, with its optional callbacks: whether they are there. -/
structure Executor where
  /-- The logger. -/
  logger : ExecutionLogger
  /-- Whether a prepare action is configured. -/
  prepareAction : Bool
  /-- Whether a rollback action is configured. -/
  rollbackPrepareAction : Bool
  /-- Whether a commit action is configured. -/
  commitPrepareAction : Bool

/-- Where an invocation stands. From the prepare action on it has `prepare_completed`, and
from the task on the result. -/
inductive Phase (R E : Type)
  /-- The first check is to come. -/
  | testing
  /-- Inside `run_prepare_action`, before the action. -/
  | preparing
  /-- Before `lock.write`. -/
  | locking (completed : Bool)
  /-- With the lock, before the second check. -/
  | retesting (completed : Bool)
  /-- With the lock, before or in the task. -/
  | running (completed : Bool)
  /-- With the lock, the result computed. -/
  | releasing (completed : Bool) (result : ExecutionResult R E)
  /-- Inside `finalize_prepare`, before the commit action. -/
  | committing (result : ExecutionResult R E)
  /-- Inside `finalize_prepare`, before the original error is made text. -/
  | formatting (err : ExecutorError E)
  /-- Inside `finalize_prepare`, before the rollback action. -/
  | rollingBack (original : String) (result : ExecutionResult R E)
  /-- Returned. -/
  | returned (result : ExecutionResult R E)
  /-- Left by a panic. -/
  | unwound
  deriving DecidableEq, Repr

/-- The next thing an invocation does, and how the callback it invokes ends. -/
inductive Move (T R E : Type)
  /-- The first check. -/
  | test (answer : Answer Bool)
  /-- The prepare action. -/
  | prepare (answer : Answer (Except String Unit))
  /-- The write lock is taken. -/
  | lock
  /-- The second check. -/
  | retest (answer : Answer Bool)
  /-- The task. -/
  | task (task : Task T R E)
  /-- The write lock is released. -/
  | release
  /-- The commit action. -/
  | commit (answer : Answer (Except String Unit))
  /-- `to_string` of the original error, which calls `fmt` of the error of the task. -/
  | format (answer : Answer Unit)
  /-- The rollback action. -/
  | rollback (answer : Answer (Except String Unit))

namespace Executor

variable {T R E : Type} [ToString E] (x : Executor)

/-- `run_prepare_action`, up to the action: without one there is nothing to complete. -/
def runPrepareAction : Phase R E :=
  if x.prepareAction then .preparing else .locking false

/-- `finalize_prepare`, from where it has the text of the original error up to the rollback
action, if there is one. -/
def rollBack (original : String) (result : ExecutionResult R E) : Phase R E :=
  if x.rollbackPrepareAction then .rollingBack original result else .returned result

/-- `finalize_prepare`, up to what it calls first, if it calls anything. The error of a failure is
made text whether or not there is a rollback action. -/
def finalizePrepare : ExecutionResult R E → Phase R E
  | .success value =>
    if x.commitPrepareAction then .committing (.success value) else .returned (.success value)
  | .failed err => .formatting err
  | .conditionNotMet => x.rollBack "Condition not met" .conditionNotMet

/-- `execute_with_write_lock`, one call or critical step at a time: what it does to the lock,
where it leaves the invocation, and what it logs. -/
def executeWithWriteLock (k : ℕ) (lock : LockCell T) :
    Phase R E → Move T R E → Option (LockCell T × Phase R E × List Line)
  | .testing, .test (.returned true) => some (lock, x.runPrepareAction, [])
  | .testing, .test (.returned false) =>
    some (lock, .returned .unmet, x.logger.logUnmetCondition)
  | .preparing, .prepare (.returned (.ok ())) => some (lock, .locking true, [])
  | .preparing, .prepare (.returned (.error err)) =>
    some (lock, .returned (.prepareFailed err), x.logger.logPrepareFailed err)
  -- `lock().unwrap()` of a poisoned lock panics, and lets go of it
  | .locking completed, .lock =>
    if lock.holder.isSome then none
    else if lock.poisoned then some (lock, .unwound, [])
    else some ({ lock with holder := some k }, .retesting completed, [])
  | .retesting completed, .retest (.returned true) => some (lock, .running completed, [])
  | .retesting completed, .retest (.returned false) =>
    some (lock, .releasing completed .unmet, x.logger.logUnmetCondition)
  | .running completed, .task task =>
    match task.run lock.value with
    | (data, .returned outcome) =>
      some ({ lock with value := data }, .releasing completed (.ofTask outcome), [])
    | (data, .panicked) => some ({ lock with value := data }.unwind, .unwound, [])
  | .releasing completed result, .release =>
    some (lock.release, if completed then x.finalizePrepare result else .returned result, [])
  | .committing result, .commit (.returned (.ok ())) => some (lock, .returned result, [])
  | .committing _, .commit (.returned (.error err)) =>
    some (lock, .returned (.prepareCommitFailed err), x.logger.logPrepareCommitFailed err)
  | .formatting err, .format (.returned ()) =>
    some (lock, x.rollBack err.fmt (.failed err), [])
  | .rollingBack _ result, .rollback (.returned (.ok ())) => some (lock, .returned result, [])
  | .rollingBack original _, .rollback (.returned (.error err)) =>
    some (lock, .returned (.prepareRollbackFailed original err),
      x.logger.logPrepareRollbackFailed err)
  -- a callback panics: under the lock, and outside of it
  | .retesting _, .retest .panicked => some (lock.unwind, .unwound, [])
  | .testing, .test .panicked | .preparing, .prepare .panicked
  | .committing _, .commit .panicked | .formatting _, .format .panicked
  | .rollingBack _ _, .rollback .panicked =>
    some (lock, .unwound, [])
  | _, _ => none

end Executor

/-! ### The moves of an invocation, one by one -/

section Turn

variable {T R E : Type} [ToString E]

/-- The moves of an invocation: where from, what lock it leaves, and where to. -/
inductive Turn (x : Executor) (k : ℕ) (lock : LockCell T) :
    Phase R E → Move T R E → LockCell T → Phase R E → Prop
  /-- The first check is true. -/
  | test : Turn x k lock .testing (.test (.returned true)) lock x.runPrepareAction
  /-- The first check is false. -/
  | testUnmet : Turn x k lock .testing (.test (.returned false)) lock (.returned .unmet)
  /-- The prepare action returns `Ok`. -/
  | prepare : Turn x k lock .preparing (.prepare (.returned (.ok ()))) lock (.locking true)
  /-- The prepare action returns an error. -/
  | prepareFails (err : String) :
      Turn x k lock .preparing (.prepare (.returned (.error err))) lock
        (.returned (.prepareFailed err))
  /-- The lock is taken. -/
  | lock (completed : Bool) (hfree : lock.holder = none) (hclean : lock.poisoned = false) :
      Turn x k lock (.locking completed) .lock { lock with holder := some k }
        (.retesting completed)
  /-- The lock is poisoned. -/
  | lockPoisoned (completed : Bool) (hpoisoned : lock.poisoned = true) :
      Turn x k lock (.locking completed) .lock lock .unwound
  /-- The second check is true. -/
  | retest (completed : Bool) :
      Turn x k lock (.retesting completed) (.retest (.returned true)) lock (.running completed)
  /-- The second check is false. -/
  | retestUnmet (completed : Bool) :
      Turn x k lock (.retesting completed) (.retest (.returned false)) lock
        (.releasing completed .unmet)
  /-- The second check panics. -/
  | retestPanics (completed : Bool) :
      Turn x k lock (.retesting completed) (.retest .panicked) lock.unwind .unwound
  /-- The task returns. -/
  | task (completed : Bool) (t : Task T R E) (data : T) (outcome : Except E R)
      (hrun : t.run lock.value = (data, .returned outcome)) :
      Turn x k lock (.running completed) (.task t) { lock with value := data }
        (.releasing completed (.ofTask outcome))
  /-- The task panics. -/
  | taskPanics (completed : Bool) (t : Task T R E) (data : T)
      (hrun : t.run lock.value = (data, .panicked)) :
      Turn x k lock (.running completed) (.task t) { lock with value := data }.unwind .unwound
  /-- The lock is released. -/
  | release (completed : Bool) (result : ExecutionResult R E) :
      Turn x k lock (.releasing completed result) .release lock.release
        (if completed then x.finalizePrepare result else .returned result)
  /-- The commit action returns `Ok`. -/
  | commit (result : ExecutionResult R E) :
      Turn x k lock (.committing result) (.commit (.returned (.ok ()))) lock (.returned result)
  /-- The commit action returns an error. -/
  | commitFails (result : ExecutionResult R E) (err : String) :
      Turn x k lock (.committing result) (.commit (.returned (.error err))) lock
        (.returned (.prepareCommitFailed err))
  /-- The original error is made text. -/
  | format (err : ExecutorError E) :
      Turn x k lock (.formatting err) (.format (.returned ())) lock
        (x.rollBack err.fmt (.failed err))
  /-- The rollback action returns `Ok`. -/
  | rollback (original : String) (result : ExecutionResult R E) :
      Turn x k lock (.rollingBack original result) (.rollback (.returned (.ok ()))) lock
        (.returned result)
  /-- The rollback action returns an error. -/
  | rollbackFails (original : String) (result : ExecutionResult R E) (err : String) :
      Turn x k lock (.rollingBack original result) (.rollback (.returned (.error err))) lock
        (.returned (.prepareRollbackFailed original err))
  /-- The first check panics. -/
  | testPanics : Turn x k lock .testing (.test .panicked) lock .unwound
  /-- The prepare action panics. -/
  | preparePanics : Turn x k lock .preparing (.prepare .panicked) lock .unwound
  /-- The commit action panics. -/
  | commitPanics (result : ExecutionResult R E) :
      Turn x k lock (.committing result) (.commit .panicked) lock .unwound
  /-- Making the original error text panics. -/
  | formatPanics (err : ExecutorError E) :
      Turn x k lock (.formatting err) (.format .panicked) lock .unwound
  /-- The rollback action panics. -/
  | rollbackPanics (original : String) (result : ExecutionResult R E) :
      Turn x k lock (.rollingBack original result) (.rollback .panicked) lock .unwound

/-- Taking the lock is one move, or the end of the invocation. -/
theorem turn_lock {x : Executor} {k : ℕ} {lock lock' : LockCell T} {completed : Bool}
    {phase' : Phase R E} {lines : List Line}
    (h : x.executeWithWriteLock k lock (.locking completed) (.lock : Move T R E) =
      some (lock', phase', lines)) :
    Turn x k lock (.locking completed) .lock lock' phase' := by
  rw [Executor.executeWithWriteLock] at h
  split_ifs at h with hheld hpoisoned
  · cases h
    exact .lockPoisoned _ hpoisoned
  · cases h
    exact .lock _ (Option.not_isSome_iff_eq_none.mp hheld) (Bool.eq_false_iff.mpr hpoisoned)

/-- The task leaves the lock with its data, and a result or a panic. -/
theorem turn_task {x : Executor} {k : ℕ} {lock lock' : LockCell T} {completed : Bool}
    {t : Task T R E} {phase' : Phase R E} {lines : List Line}
    (h : x.executeWithWriteLock k lock (.running completed) (.task t) =
      some (lock', phase', lines)) :
    Turn x k lock (.running completed) (.task t) lock' phase' := by
  rw [Executor.executeWithWriteLock] at h
  rcases hrun : t.run lock.value with ⟨data, outcome | -⟩ <;> rw [hrun] at h <;> cases h
  · exact .task _ _ _ _ hrun
  · exact .taskPanics _ _ _ hrun

/-- **What `execute_with_write_lock` does is one of the moves.** -/
theorem Executor.turn {x : Executor} {k : ℕ} {lock lock' : LockCell T} {phase phase' : Phase R E}
    {m : Move T R E} {lines : List Line}
    (h : x.executeWithWriteLock k lock phase m = some (lock', phase', lines)) :
    Turn x k lock phase m lock' phase' := by
  unfold Executor.executeWithWriteLock at h
  split at h
  case h_5 => exact turn_lock h
  case h_8 => exact turn_task h
  all_goals cases h <;> constructor

end Turn

/-! ### Runs -/

/-- The state of a run. -/
structure State (T R E : Type) where
  /-- The shared lock. -/
  lock : LockCell T
  /-- The invocations so far. -/
  invocations : List (Phase R E)
  /-- What was logged. -/
  lines : List Line

/-- The steps of a run. -/
inductive Action (T R E : Type)
  /-- Somebody invokes `call`, `execute`, `call_with` or `execute_with`. -/
  | invoke
  /-- An invocation goes on. -/
  | move (k : ℕ) (m : Move T R E)

section Machine

variable {T R E : Type} [ToString E] (x : Executor)

/-- One step. -/
def step (s : State T R E) : Action T R E → Option (State T R E)
  | .invoke => some { s with invocations := s.invocations ++ [.testing] }
  | .move k m => do
    let phase ← s.invocations[k]?
    let (lock, phase', lines) ← x.executeWithWriteLock k s.lock phase m
    return { lock, invocations := s.invocations.set k phase', lines := s.lines ++ lines }

/-- The executor, with its lock around a first value. -/
def machine (first : T) : Machine (State T R E) (Action T R E) where
  init s := s.lock.value = first ∧ s.lock.holder = none ∧ s.lock.poisoned = false ∧
    s.invocations = [] ∧ s.lines = []
  step := step x

variable {x} {s s' : State T R E}

/-- **The steps**: an invocation begins, or one goes on. -/
theorem step_cases {a : Action T R E} (h : step x s a = some s') :
    (a = .invoke ∧ s' = { s with invocations := s.invocations ++ [.testing] }) ∨
      ∃ k m phase lock phase' lines, a = .move k m ∧ s.invocations[k]? = some phase ∧
        Turn x k s.lock phase m lock phase' ∧
        s' = ⟨lock, s.invocations.set k phase', s.lines ++ lines⟩ := by
  cases a with
  | invoke => exact Or.inl ⟨rfl, (Option.some.inj h).symm⟩
  | move k m =>
    obtain ⟨phase, hphase, h⟩ := Option.bind_eq_some_iff.mp h
    obtain ⟨⟨lock, phase', lines⟩, hrun, h⟩ := Option.bind_eq_some_iff.mp h
    exact Or.inr ⟨k, m, phase, lock, phase', lines, rfl, hphase, Executor.turn hrun,
      (Option.some.inj h).symm⟩

end Machine

end DoubleChecked

end QubitConcurrent
