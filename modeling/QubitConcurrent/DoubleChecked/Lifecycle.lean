import QubitConcurrent.DoubleChecked.Executor
import QubitConcurrent.Lib.Lists

/-!
# The prepare lifecycle

An observer writes down which invocation has done what. What is written of one invocation is
its story, and where the callbacks return, the phase an invocation is in tells its story up to
the answers of the callbacks (`QubitConcurrent.DoubleChecked.Told`): nobody else has a hand in
it. What the invocations share is the lock. They are inside the critical section one at a
time (`QubitConcurrent.DoubleChecked.Guarded`), so the data is what the tasks have made of
it, one after the other.
-/

namespace QubitConcurrent

namespace DoubleChecked

open Relation

variable {T R E : Type}

/-! ### What is written down -/

/-- Something an invocation has done. -/
inductive Event (T R E : Type)
  /-- It has evaluated the tester for the first time. -/
  | tested (answer : Answer Bool)
  /-- It has run the prepare action. -/
  | prepared (answer : Answer (Except String Unit))
  /-- It has taken the lock. -/
  | acquired
  /-- It has evaluated the tester for the second time. -/
  | retested (answer : Answer Bool)
  /-- It has run the task. -/
  | ran (task : Task T R E) (answer : Answer (Except E R))
  /-- It has released the lock. -/
  | released
  /-- It has run the commit action. -/
  | committed (answer : Answer (Except String Unit))
  /-- It has made the original error text. -/
  | formatted (answer : Answer Unit)
  /-- It has run the rollback action. -/
  | rolledBack (answer : Answer (Except String Unit))

namespace Event

/-- The place of an event in the order of the code. -/
def rank : Event T R E → ℕ
  | tested _ => 0
  | prepared _ => 1
  | acquired => 2
  | retested _ => 3
  | ran _ _ => 4
  | released => 5
  | formatted _ => 6
  | committed _ | rolledBack _ => 7

/-- Whether the task was run. -/
def isRan : Event T R E → Bool
  | ran _ _ => true
  | _ => false

/-- Whether the task was run and returned `Ok`. -/
def isRanOk : Event T R E → Bool
  | ran _ (.returned (.ok _)) => true
  | _ => false

/-- Whether the commit action was invoked. -/
def isCommit : Event T R E → Bool
  | committed _ => true
  | _ => false

/-- Whether the rollback action was invoked. -/
def isRollback : Event T R E → Bool
  | rolledBack _ => true
  | _ => false

/-- Whether the lock was taken. -/
def isAcquired : Event T R E → Bool
  | acquired => true
  | _ => false

/-- The task that was run. -/
def task? : Event T R E → Option (Task T R E)
  | ran task _ => some task
  | _ => none

end Event

/-- What is written down of a move. -/
def Move.event (data : T) : Move T R E → Event T R E
  | test answer => .tested answer
  | prepare answer => .prepared answer
  | lock => .acquired
  | retest answer => .retested answer
  | task t => .ran t (t.run data).2
  | release => .released
  | commit answer => .committed answer
  | format answer => .formatted answer
  | rollback answer => .rolledBack answer

/-- The observer writes down the moves, and whose they are. -/
def watch (s : State T R E) (a : Action T R E) (_ : State T R E) : List (ℕ × Event T R E) :=
  match a with
  | .invoke => []
  | .move k m => [(k, m.event s.lock.value)]

/-- What is written of one invocation. -/
def story (k : ℕ) (log : List (ℕ × Event T R E)) : List (Event T R E) :=
  log.filterMap fun entry => if entry.1 = k then some entry.2 else none

/-- The invocations that have done something of a kind, in that order. -/
def actors (p : Event T R E → Bool) (log : List (ℕ × Event T R E)) : List ℕ :=
  log.filterMap fun entry => if p entry.2 then some entry.1 else none

/-- The invocations that have taken the lock, in that order. -/
def acquirers (log : List (ℕ × Event T R E)) : List ℕ := actors Event.isAcquired log

/-- The invocations whose task has run, in that order. -/
def runners (log : List (ℕ × Event T R E)) : List ℕ := actors Event.isRan log

/-- The tasks that have run, in that order. -/
def tasks (log : List (ℕ × Event T R E)) : List (Task T R E) :=
  log.filterMap fun entry => entry.2.task?

section Log

variable (log : List (ℕ × Event T R E)) (k : ℕ) (e : Event T R E)

@[simp] theorem story_append_self : story k (log ++ [(k, e)]) = story k log ++ [e] := by
  simp [story]

theorem story_append_ne {j : ℕ} (h : j ≠ k) : story k (log ++ [(j, e)]) = story k log := by
  simp [story, h]

theorem actors_append (p : Event T R E → Bool) :
    actors p (log ++ [(k, e)]) = actors p log ++ if p e then [k] else [] := by
  cases h : p e <;> simp [actors, h]

@[simp] theorem acquirers_append :
    acquirers (log ++ [(k, e)]) = acquirers log ++ if e.isAcquired then [k] else [] :=
  actors_append ..

@[simp] theorem runners_append :
    runners (log ++ [(k, e)]) = runners log ++ if e.isRan then [k] else [] :=
  actors_append ..

@[simp] theorem tasks_append :
    tasks (log ++ [(k, e)]) = tasks log ++ e.task?.toList := by
  cases h : e.task? <;> simp [tasks, h]

/-- How often an invocation has done something is in its story. -/
theorem count_actors (p : Event T R E → Bool) :
    (actors p log).count k = (story k log).countP p := by
  induction log with
  | nil => rfl
  | cons entry log ih =>
    obtain ⟨j, e⟩ := entry
    have hstory : story k ((j, e) :: log) = (if j = k then [e] else []) ++ story k log := by
      by_cases hj : j = k <;> simp [story, hj]
    have hactors : actors p ((j, e) :: log) = (if p e then [j] else []) ++ actors p log := by
      cases h : p e <;> simp [actors, h]
    rw [hstory, hactors, List.count_append, List.countP_append, ih]
    by_cases hj : j = k <;> cases h : p e <;> simp [hj, h]

/-- Whose task has run is in the stories. -/
theorem mem_runners_iff : k ∈ runners log ↔ ∃ e ∈ story k log, e.isRan = true := by
  rw [← List.count_pos_iff, runners, count_actors, List.countP_pos_iff]

end Log

/-! ### The story of an invocation -/

/-- Whether a call returns. -/
def Answer.returns {α : Type} : Answer α → Bool
  | returned _ => true
  | panicked => false

/-- Whether the callback that a move invokes returns. -/
def Move.returns (data : T) : Move T R E → Bool
  | test answer => answer.returns
  | prepare answer => answer.returns
  | lock => true
  | retest answer => answer.returns
  | task t => (t.run data).2.returns
  | release => true
  | commit answer => answer.returns
  | format answer => answer.returns
  | rollback answer => answer.returns

/-- The steps at which no callback panics. -/
def Action.Returns (s : State T R E) : Action T R E → Prop
  | .invoke => True
  | .move _ m => m.returns s.lock.value = true

instance (s : State T R E) : DecidablePred (Action.Returns s)
  | .invoke => isTrue trivial
  | .move _ m => inferInstanceAs (Decidable (m.returns s.lock.value = true))

/-- What has happened before the lock is taken, with a prepare action that has completed or
without one. -/
def opening (completed : Bool) : List (Event T R E) :=
  if completed then [.tested (.returned true), .prepared (.returned (.ok ()))]
  else [.tested (.returned true)]

/-- What may happen inside the critical section. -/
inductive Body (T R E : Type)
  /-- The second check is false. -/
  | unmet
  /-- The second check is true, and the task returns. -/
  | worked (task : Task T R E) (outcome : Except E R)

namespace Body

/-- What is written of it. -/
def events : Body T R E → List (Event T R E)
  | unmet => [.acquired, .retested (.returned false)]
  | worked task outcome => [.acquired, .retested (.returned true), .ran task (.returned outcome)]

/-- The result of the critical section. -/
def result : Body T R E → ExecutionResult R E
  | unmet => .unmet
  | worked _ outcome => .ofTask outcome

end Body

/-- What `finalize_prepare` does with the error of a failure before it rolls back. -/
def ExecutionResult.formatting : ExecutionResult R E → List (Event T R E)
  | failed _ => [.formatted (.returned ())]
  | _ => []

section Formatting

variable (t : Task T R E)

@[simp] theorem formatting_unmet :
    (Body.unmet : Body T R E).result.formatting = ([] : List (Event T R E)) := rfl

@[simp] theorem formatting_ok (value : R) :
    (Body.worked t (.ok value)).result.formatting = ([] : List (Event T R E)) := rfl

@[simp] theorem formatting_error (err : E) :
    (Body.worked t (.error err)).result.formatting =
      [(.formatted (.returned ()) : Event T R E)] := rfl

end Formatting

/-- The two branches of `finalize_prepare`: which action is invoked, and what becomes of the
result. -/
inductive Finalized [ToString E] (x : Executor) (result : ExecutionResult R E) :
    List (Event T R E) → ExecutionResult R E → Prop
  /-- The action of the branch is not configured. -/
  | bare
      (h : (if result.isSuccess then x.commitPrepareAction else x.rollbackPrepareAction) = false) :
      Finalized x result result.formatting result
  /-- Committed. -/
  | committed (h : result.isSuccess = true) (hx : x.commitPrepareAction = true) :
      Finalized x result [.committed (.returned (.ok ()))] result
  /-- The commit action fails. -/
  | commitFailed (err : String) (h : result.isSuccess = true) (hx : x.commitPrepareAction = true) :
      Finalized x result [.committed (.returned (.error err))] (.prepareCommitFailed err)
  /-- Rolled back. -/
  | rolledBack (h : result.isSuccess = false) (hx : x.rollbackPrepareAction = true) :
      Finalized x result (result.formatting ++ [.rolledBack (.returned (.ok ()))]) result
  /-- The rollback action fails. -/
  | rollbackFailed (err : String) (h : result.isSuccess = false)
      (hx : x.rollbackPrepareAction = true) :
      Finalized x result (result.formatting ++ [.rolledBack (.returned (.error err))])
        (.prepareRollbackFailed result.original err)

/-- The whole story of an invocation that has returned, and what it has returned. -/
inductive Ended [ToString E] (x : Executor) : ExecutionResult R E → List (Event T R E) → Prop
  /-- The first check was false. -/
  | unmet : Ended x .unmet [.tested (.returned false)]
  /-- The prepare action failed. -/
  | prepareFailed (err : String) (hx : x.prepareAction = true) :
      Ended x (.prepareFailed err)
        [.tested (.returned true), .prepared (.returned (.error err))]
  /-- There was nothing to finalize. -/
  | unprepared (body : Body T R E) (hx : x.prepareAction = false) :
      Ended x body.result (opening false ++ body.events ++ [.released])
  /-- What was prepared was committed or rolled back. -/
  | finalized (body : Body T R E) (hooks : List (Event T R E)) (result : ExecutionResult R E)
      (hx : x.prepareAction = true) (hhooks : Finalized x body.result hooks result) :
      Ended x result (opening true ++ body.events ++ .released :: hooks)

/-- The story so far of an invocation in a phase. -/
def Told [ToString E] (x : Executor) : Phase R E → List (Event T R E) → Prop
  | .testing, es => es = []
  | .preparing, es => x.prepareAction = true ∧ es = opening false
  | .locking completed, es => completed = x.prepareAction ∧ es = opening completed
  | .retesting completed, es =>
    completed = x.prepareAction ∧ es = opening completed ++ [.acquired]
  | .running completed, es =>
    completed = x.prepareAction ∧
      es = opening completed ++ [.acquired, .retested (.returned true)]
  | .releasing completed result, es => ∃ body : Body T R E,
    completed = x.prepareAction ∧ result = body.result ∧ es = opening completed ++ body.events
  | .committing result, es => ∃ body : Body T R E,
    x.prepareAction = true ∧ x.commitPrepareAction = true ∧ result = body.result ∧
      result.isSuccess = true ∧ es = opening true ++ body.events ++ [.released]
  | .formatting err, es => ∃ body : Body T R E,
    x.prepareAction = true ∧ body.result = .failed err ∧
      es = opening true ++ body.events ++ [.released]
  | .rollingBack original result, es => ∃ body : Body T R E,
    x.prepareAction = true ∧ x.rollbackPrepareAction = true ∧ result = body.result ∧
      original = result.original ∧ result.isSuccess = false ∧
      es = opening true ++ body.events ++ .released :: result.formatting
  | .returned result, es => Ended x result es
  | .unwound, _ => False

/-! ### What a move does -/

section Move

variable [ToString E] {x : Executor} {k : ℕ} {lock lock' : LockCell T} {phase phase' : Phase R E}
  {m : Move T R E} {lines : List Line}

/-- Once it has the text of the original error, an invocation rolls back. -/
theorem told_rollBack {body : Body T R E} (hx : x.prepareAction = true)
    (hfails : body.result.isSuccess = false) :
    Told x (x.rollBack body.result.original body.result)
      (opening true ++ body.events ++ .released :: body.result.formatting) := by
  rw [Executor.rollBack]
  cases hrollback : x.rollbackPrepareAction with
  | true => exact ⟨body, hx, hrollback, rfl, rfl, hfails, rfl⟩
  | false =>
    exact .finalized body _ _ hx (.bare (by rw [hfails, if_neg Bool.false_ne_true, hrollback]))

/-- After the lock is released an invocation finalizes, if it has prepared. -/
theorem told_release {body : Body T R E} {completed : Bool} (hx : completed = x.prepareAction) :
    Told x (if completed then x.finalizePrepare body.result else .returned body.result)
      (opening completed ++ body.events ++ [.released]) := by
  cases completed with
  | false => exact .unprepared body hx.symm
  | true =>
    rw [if_pos rfl]
    cases hresult : body.result with
    | success value =>
      rw [Executor.finalizePrepare]
      cases hcommit : x.commitPrepareAction with
      | true => exact ⟨body, hx.symm, hcommit, hresult.symm, rfl, rfl⟩
      | false => exact .finalized body [] _ hx.symm (by rw [hresult]; exact .bare hcommit)
    | conditionNotMet =>
      have hrolls := told_rollBack hx.symm (by rw [hresult]; rfl : body.result.isSuccess = false)
      rw [hresult] at hrolls
      exact hrolls
    | failed err => exact ⟨body, hx.symm, hresult, rfl⟩

omit [ToString E] in
/-- Nobody is left by a panic between the calls of `finalize_prepare`. -/
theorem rollBack_ne_unwound (original : String) (result : ExecutionResult R E) :
    x.rollBack original result ≠ .unwound := by
  unfold Executor.rollBack
  split_ifs <;> nofun

omit [ToString E] in
theorem finalizePrepare_ne_unwound (completed : Bool) (result : ExecutionResult R E) :
    (if completed then x.finalizePrepare result else .returned result) ≠ .unwound := by
  cases completed with
  | false => nofun
  | true =>
    rw [if_pos rfl]
    cases result with
    | success value =>
      rw [Executor.finalizePrepare]
      split_ifs <;> nofun
    | failed err => nofun
    | conditionNotMet => exact rollBack_ne_unwound _ _

/-- An invocation is left by a panic only where a callback panics, or the lock is poisoned. -/
theorem Turn.ne_unwound (h : Turn x k lock phase m lock' phase')
    (hreturns : m.returns lock.value = true) (hclean : lock.poisoned = false) :
    phase' ≠ .unwound := by
  cases h with
  | test =>
    unfold Executor.runPrepareAction
    split_ifs <;> nofun
  | release completed result =>
    exact finalizePrepare_ne_unwound completed result
  | format err => exact rollBack_ne_unwound _ _
  | lockPoisoned _ hpoisoned => exact absurd (hclean.symm.trans hpoisoned) Bool.false_ne_true
  | taskPanics completed t data hrun =>
    rw [Move.returns, hrun] at hreturns
    exact absurd hreturns Bool.false_ne_true
  | retestPanics | testPanics | preparePanics | commitPanics | formatPanics | rollbackPanics =>
    exact absurd hreturns Bool.false_ne_true
  | _ => nofun

/-- **An invocation goes on with its story.** -/
theorem Told.turn {es : List (Event T R E)} (hes : Told x phase es)
    (h : Turn x k lock phase m lock' phase') (hphase' : phase' ≠ .unwound) :
    Told x phase' (es ++ [m.event lock.value]) := by
  cases h with
  | test =>
    obtain rfl : es = [] := hes
    unfold Executor.runPrepareAction
    cases hx : x.prepareAction with
    | true => exact ⟨hx, rfl⟩
    | false => exact ⟨hx.symm, rfl⟩
  | testUnmet =>
    obtain rfl : es = [] := hes
    exact .unmet
  | prepare => exact ⟨hes.1.symm, by rw [hes.2]; rfl⟩
  | prepareFails err =>
    obtain ⟨hx, rfl⟩ := hes
    exact .prepareFailed err hx
  | lock completed => exact ⟨hes.1, by rw [hes.2]; rfl⟩
  | retest completed => exact ⟨hes.1, by rw [hes.2, List.append_assoc]; rfl⟩
  | retestUnmet completed =>
    exact ⟨.unmet, hes.1, rfl, by rw [hes.2, List.append_assoc]; rfl⟩
  | task completed t data outcome hrun =>
    refine ⟨.worked t outcome, hes.1, rfl, ?_⟩
    rw [hes.2, List.append_assoc, Move.event, hrun]
    rfl
  | release completed result =>
    obtain ⟨body, hx, rfl, rfl⟩ := hes
    exact told_release hx
  | commit result =>
    obtain ⟨body, hx, hcommit, rfl, hsuccess, rfl⟩ := hes
    exact List.append_assoc .. ▸ .finalized body _ _ hx (.committed hsuccess hcommit)
  | commitFails result err =>
    obtain ⟨body, hx, hcommit, rfl, hsuccess, rfl⟩ := hes
    exact List.append_assoc .. ▸ .finalized body _ _ hx (.commitFailed err hsuccess hcommit)
  | format err =>
    obtain ⟨body, hx, hresult, rfl⟩ := hes
    have hrolls := told_rollBack hx (by rw [hresult]; rfl)
    rw [hresult] at hrolls
    exact List.append_assoc .. ▸ hrolls
  | rollback original result =>
    obtain ⟨body, hx, hrollback, rfl, rfl, hsuccess, rfl⟩ := hes
    exact List.append_assoc .. ▸ .finalized body _ _ hx (.rolledBack hsuccess hrollback)
  | rollbackFails original result err =>
    obtain ⟨body, hx, hrollback, rfl, rfl, hsuccess, rfl⟩ := hes
    exact List.append_assoc .. ▸ .finalized body _ _ hx (.rollbackFailed err hsuccess hrollback)
  | lockPoisoned | taskPanics | retestPanics | testPanics | preparePanics | commitPanics
  | formatPanics | rollbackPanics => exact absurd rfl hphase'

end Move

/-! ### The critical section -/

/-- Whether an invocation is inside the critical section. -/
def Phase.isCritical : Phase R E → Bool
  | retesting _ | running _ | releasing _ _ => true
  | _ => false

/-- Whether an invocation is inside the critical section and may still run its task. -/
def Phase.mayRun : Phase R E → Bool
  | retesting _ | running _ => true
  | _ => false

theorem Phase.isCritical_of_mayRun {phase : Phase R E} (h : phase.mayRun = true) :
    phase.isCritical = true := by
  cases phase <;> first | rfl | cases h

theorem Phase.mayRun_of_not_isCritical {phase : Phase R E} (h : phase.isCritical = false) :
    phase.mayRun = false := by
  cases phase <;> first | rfl | cases h

/-- The prepare action is run outside of it. -/
theorem isCritical_runPrepareAction (x : Executor) :
    (x.runPrepareAction : Phase R E).isCritical = false := by
  unfold Executor.runPrepareAction
  split_ifs <;> rfl

/-- So is finalization. -/
theorem isCritical_rollBack (x : Executor) (original : String) (result : ExecutionResult R E) :
    (x.rollBack original result).isCritical = false := by
  unfold Executor.rollBack
  split_ifs <;> rfl

theorem isCritical_finalizePrepare (x : Executor) (completed : Bool)
    (result : ExecutionResult R E) :
    (if completed then x.finalizePrepare result else .returned result).isCritical = false := by
  cases completed with
  | false => rfl
  | true =>
    rw [if_pos rfl]
    cases result with
    | success value =>
      rw [Executor.finalizePrepare]
      split_ifs <;> rfl
    | failed err => rfl
    | conditionNotMet => exact isCritical_rollBack x _ _

section Critical

variable [ToString E] {x : Executor} {k : ℕ} {lock lock' : LockCell T} {phase phase' : Phase R E}
  {m : Move T R E}

/-- **What a move does to the lock.** -/
inductive LockMove (k : ℕ) (lock lock' : LockCell T) (phase phase' : Phase R E)
    (m : Move T R E) : Prop
  /-- Nothing, and outside the critical section. -/
  | outside (hlock : lock' = lock) (hphase : phase.isCritical = false)
      (hphase' : phase'.isCritical = false) (hacquired : (m.event lock.value).isAcquired = false)
      (htask : (m.event lock.value).task? = none) (hran : (m.event lock.value).isRan = false)
  /-- It is taken. -/
  | acquires (hfree : lock.holder = none) (hlock : lock' = { lock with holder := some k })
      (hphase : phase.isCritical = false) (hphase' : phase'.mayRun = true) (hm : m = .lock)
  /-- Nothing, and inside the critical section, before the task. -/
  | inside (hlock : lock' = lock) (hphase : phase.mayRun = true)
      (hphase' : phase'.isCritical = true) (hacquired : (m.event lock.value).isAcquired = false)
      (htask : (m.event lock.value).task? = none) (hran : (m.event lock.value).isRan = false)
  /-- The task is run with the data. -/
  | runs (t : Task T R E) (hlock : lock' = { lock with value := (t.run lock.value).1 })
      (hphase : phase.mayRun = true) (hphase' : phase'.isCritical = true)
      (hdone : phase'.mayRun = false) (hm : m = .task t)
  /-- It is released. -/
  | releases (hlock : lock' = lock.release) (hphase : phase.isCritical = true)
      (hdone : phase.mayRun = false) (hphase' : phase'.isCritical = false) (hm : m = .release)

/-- Where no callback panics and the lock is not poisoned, every move is one of these. -/
theorem Turn.lockMove (h : Turn x k lock phase m lock' phase')
    (hreturns : m.returns lock.value = true) (hclean : lock.poisoned = false) :
    LockMove k lock lock' phase phase' m := by
  cases h with
  | test => exact .outside rfl rfl (isCritical_runPrepareAction x) rfl rfl rfl
  | testUnmet | prepare | prepareFails | commit | commitFails | rollback | rollbackFails =>
    exact .outside rfl rfl rfl rfl rfl rfl
  | lock completed hfree => exact .acquires hfree rfl rfl rfl rfl
  | lockPoisoned _ hpoisoned => exact absurd hpoisoned (by rw [hclean]; exact Bool.false_ne_true)
  | retest | retestUnmet => exact .inside rfl rfl rfl rfl rfl rfl
  | task completed t data outcome hrun =>
    refine .runs t ?_ rfl rfl rfl rfl
    rw [hrun]
  | release completed result =>
    exact .releases rfl rfl rfl (isCritical_finalizePrepare x completed result) rfl
  | format err => exact .outside rfl rfl (isCritical_rollBack x _ _) rfl rfl rfl
  | taskPanics completed t data hrun =>
    rw [Move.returns, hrun] at hreturns
    exact absurd hreturns Bool.false_ne_true
  | retestPanics | testPanics | preparePanics | commitPanics | formatPanics | rollbackPanics =>
    exact absurd hreturns Bool.false_ne_true

end Critical

/-- The invocation that has the lock and may still run its task. -/
def State.pending (s : State T R E) : List ℕ :=
  s.lock.holder.toList.filter fun k => (s.invocations[k]?).any Phase.mayRun

/-- **The critical section is exclusive**, and the tasks run inside it, each by the invocation
that has taken the lock last. -/
structure Guarded (first : T) (s : State T R E) (log : List (ℕ × Event T R E)) : Prop where
  /-- The lock is not poisoned. -/
  clean : s.lock.poisoned = false
  /-- The holder of the lock, and nobody else, is inside the critical section. -/
  holder : ∀ k, (s.invocations[k]?).any Phase.isCritical = true ↔ s.lock.holder = some k
  /-- The data is what the tasks have made of it. -/
  value : s.lock.value = (tasks log).foldl (fun data t => (t.run data).1) first
  /-- The tasks run in the order in which the lock was taken. -/
  order : (runners log ++ s.pending).Sublist (acquirers log)

section Guarded

variable {first : T} {s : State T R E} {log : List (ℕ × Event T R E)} {k : ℕ}
  {phase phase' : Phase R E} {m : Move T R E} {lock' : LockCell T} {lines : List Line}

/-- The holder is pending as long as it may run its task. -/
theorem State.pending_of_holder (hholder : s.lock.holder = some k)
    (hk : s.invocations[k]? = some phase) :
    s.pending = if phase.mayRun = true then [k] else [] := by
  simp [State.pending, hholder, hk, List.filter_cons]

/-- Where nobody holds the lock nobody is pending. -/
theorem State.pending_of_free (hfree : s.lock.holder = none) : s.pending = [] := by
  simp [State.pending, hfree]

/-- Whoever is inside the critical section has the lock. -/
theorem Guarded.holds (h : Guarded first s log) (hk : s.invocations[k]? = some phase)
    (hphase : phase.isCritical = true) : s.lock.holder = some k :=
  (h.holder k).mp (by rw [hk, Option.any_some, hphase])

/-- An invocation begins. -/
theorem Guarded.invoke (h : Guarded first s log) :
    Guarded first { s with invocations := s.invocations ++ [.testing] } log := by
  refine ⟨h.clean, fun j => ?_, h.value, ?_⟩
  · rw [← h.holder j]
    exact iff_of_eq (congrArg (· = true) (congrFun (any_getElem?_append rfl) j))
  · have hpending : State.pending { s with invocations := s.invocations ++ [.testing] } =
        s.pending := by
      unfold State.pending
      rw [any_getElem?_append rfl]
    rw [hpending]
    exact h.order

/-- **The critical section stays exclusive.** -/
theorem Guarded.move (h : Guarded first s log) (hk : s.invocations[k]? = some phase)
    (hm : LockMove k s.lock lock' phase phase' m) :
    Guarded first ⟨lock', s.invocations.set k phase', lines⟩
      (log ++ [(k, m.event s.lock.value)]) := by
  have hset := any_getElem?_set hk Phase.isCritical phase'
  have hself := getElem?_set_of_some hk phase'
  cases hm with
  | outside hlock hphase hphase' hacquired htask hran =>
    -- nothing that has to do with the lock changes
    subst hlock
    have hcritical := any_getElem?_set_same hk (hphase'.trans hphase.symm)
    have hmay := any_getElem?_set_same hk
      ((Phase.mayRun_of_not_isCritical hphase').trans (Phase.mayRun_of_not_isCritical hphase).symm)
    refine ⟨h.clean, fun j => ?_, ?_, ?_⟩
    · rw [← h.holder j]
      exact iff_of_eq (congrArg (· = true) (congrFun hcritical j))
    · rw [tasks_append, htask]
      simpa using h.value
    · rw [runners_append, acquirers_append, hacquired, hran]
      simpa [State.pending, congrFun hmay] using h.order
  | acquires hfree hlock hphase hphase' hm =>
    -- the lock was free, so nobody else is inside, and one more is to run its task
    subst hlock hm
    refine ⟨h.clean, fun j => ?_, ?_, ?_⟩
    · rw [show _ = _ from congrFun hset j]
      rcases eq_or_ne j k with rfl | hne
      · simp [Phase.isCritical_of_mayRun hphase']
      · rw [Function.update_of_ne hne, h.holder j, hfree]
        simpa using hne.symm
    · rw [tasks_append]
      simpa [Move.event, Event.task?] using h.value
    · have hpending := State.pending_of_free hfree ▸ h.order
      rw [State.pending_of_holder rfl hself, if_pos hphase', runners_append, acquirers_append]
      simpa [Move.event, Event.isRan, Event.isAcquired] using hpending
  | inside hlock hphase hphase' hacquired htask hran =>
    -- the holder stays inside, and perhaps it turns out that it does not run its task
    subst hlock
    have hcritical := any_getElem?_set_same hk
      (hphase'.trans (Phase.isCritical_of_mayRun hphase).symm)
    have hholder := h.holds hk (Phase.isCritical_of_mayRun hphase)
    refine ⟨h.clean, fun j => ?_, ?_, ?_⟩
    · rw [← h.holder j]
      exact iff_of_eq (congrArg (· = true) (congrFun hcritical j))
    · rw [tasks_append, htask]
      simpa using h.value
    · have hpending := State.pending_of_holder hholder hk ▸ h.order
      rw [if_pos hphase] at hpending
      rw [State.pending_of_holder (by exact hholder) hself, runners_append, acquirers_append,
        hacquired, hran, if_neg Bool.false_ne_true, List.append_nil, List.append_nil]
      refine List.Sublist.trans (List.Sublist.append_left ?_ _) hpending
      split_ifs
      · exact List.Sublist.refl _
      · exact List.nil_sublist _
  | runs t hlock hphase hphase' hdone hm =>
    -- the one that was to run its task has run it
    subst hlock hm
    have hcritical := any_getElem?_set_same hk
      (hphase'.trans (Phase.isCritical_of_mayRun hphase).symm)
    have hholder := h.holds hk (Phase.isCritical_of_mayRun hphase)
    refine ⟨h.clean, fun j => ?_, ?_, ?_⟩
    · rw [← h.holder j]
      exact iff_of_eq (congrArg (· = true) (congrFun hcritical j))
    · rw [tasks_append, Move.event, Event.task?, Option.toList_some, List.foldl_append, ← h.value]
      rfl
    · have hpending := State.pending_of_holder hholder hk ▸ h.order
      rw [if_pos hphase] at hpending
      rw [State.pending_of_holder (by exact hholder) hself, if_neg (by simp [hdone]),
        runners_append, acquirers_append]
      simpa [Move.event, Event.isRan, Event.isAcquired] using hpending
  | releases hlock hphase hdone hphase' hm =>
    -- the lock is free again, and nobody is inside
    subst hlock hm
    have hholder := h.holds hk hphase
    refine ⟨h.clean, fun j => ?_, ?_, ?_⟩
    · rw [show _ = _ from congrFun hset j]
      rcases eq_or_ne j k with rfl | hne
      · simp [hphase', LockCell.release]
      · rw [Function.update_of_ne hne, h.holder j, hholder]
        simpa [LockCell.release] using hne.symm
    · rw [tasks_append]
      simpa [Move.event, Event.task?, LockCell.release] using h.value
    · have hpending := State.pending_of_holder hholder hk ▸ h.order
      rw [if_neg (by simp [hdone])] at hpending
      rw [State.pending_of_free rfl, runners_append, acquirers_append]
      simpa [Move.event, Event.isRan, Event.isAcquired] using hpending

end Guarded

/-! ### What the story tells -/

section Observed

-- from here on the stories are lists of events that are there to be computed with
attribute [simp] Event.rank Event.isRan Event.isRanOk Event.isCommit Event.isRollback
  Phase.isCritical

/-- **What an invocation has done by the time it is in a phase.** -/
structure Observed (x : Executor) (phase : Phase R E) (es : List (Event T R E)) : Prop where
  /-- All is done in the order of the code, and nothing twice. -/
  ordered : (es.map Event.rank).Pairwise (· < ·)
  /-- The task runs at most once, -/
  ran_once : es.countP Event.isRan ≤ 1
  /-- and it has run, or is about to, exactly when the first check was true, prepare was absent
  or returned `Ok`, and the second check was true. -/
  ran_iff : (es.countP Event.isRan = 1 ∨ ∃ completed, phase = .running completed) ↔
    .tested (.returned true) ∈ es ∧
      (x.prepareAction = false ∨ .prepared (.returned (.ok ())) ∈ es) ∧
      .retested (.returned true) ∈ es
  /-- Where no prepare action is configured none is run. -/
  absent : x.prepareAction = false → ∀ answer, .prepared answer ∉ es
  /-- The second check is made after the lock was taken. -/
  locked : ∀ answer, .retested answer ∈ es → .acquired ∈ es
  /-- The invocation is inside the critical section from when it has taken the lock until it
  has released it. -/
  critical : phase.isCritical = true ↔ .acquired ∈ es ∧ .released ∉ es
  /-- A finalization action is invoked after the lock was released, by an invocation whose
  prepare action returned `Ok`, and the invocation then returns. -/
  hooks : ∀ e ∈ es, (e.isCommit || e.isRollback) = true →
    .released ∈ es ∧ .prepared (.returned (.ok ())) ∈ es ∧ ∃ result, phase = .returned result
  /-- Exactly one branch is taken: commit when the task returned `Ok`, and rollback
  otherwise. -/
  branch : ∀ result, phase = .returned result → .prepared (.returned (.ok ())) ∈ es →
    es.countP Event.isCommit = (if es.any Event.isRanOk && x.commitPrepareAction then 1 else 0) ∧
      es.countP Event.isRollback =
        if !es.any Event.isRanOk && x.rollbackPrepareAction then 1 else 0

variable {x : Executor} {phase : Phase R E} {es : List (Event T R E)}

/-- What an invocation that has returned has done. -/
theorem Ended.observed [ToString E] {result : ExecutionResult R E} (h : Ended x result es) :
    Observed x (.returned result) es := by
  cases h with
  | unmet => constructor <;> simp
  | prepareFailed err hx => constructor <;> simp [hx]
  | unprepared body hx =>
    cases body <;> constructor <;> simp [opening, Body.events, hx, List.countP_cons]
  | finalized body hooks result hx hhooks =>
    -- the last move is the action of the branch, if there is one
    cases hhooks with
    | bare h =>
      rcases body with - | ⟨t, err | value⟩
      · have hbare : x.rollbackPrepareAction = false := h
        constructor <;> simp [opening, Body.events, hx, hbare]
      · have hbare : x.rollbackPrepareAction = false := h
        constructor <;> simp [opening, Body.events, hx, hbare, List.countP_cons]
      · have hbare : x.commitPrepareAction = false := h
        constructor <;> simp [opening, Body.events, hx, hbare, List.countP_cons]
    | committed h hx | commitFailed _ h hx | rolledBack h hx | rollbackFailed _ h hx =>
      rcases body with - | ⟨t, err | value⟩ <;> cases h <;> constructor <;>
        simp_all [opening, Body.events, List.countP_cons]

/-- **What an invocation has done.** -/
theorem Told.observed [ToString E] (h : Told x phase es) : Observed x phase es := by
  cases phase with
  | testing =>
    obtain rfl : es = [] := h
    constructor <;> simp
  | preparing =>
    obtain ⟨hx, rfl⟩ := h
    constructor <;> simp [opening]
  | locking completed =>
    obtain ⟨rfl, rfl⟩ := h
    cases hx : x.prepareAction <;> constructor <;> simp [opening, hx]
  | retesting completed =>
    obtain ⟨rfl, rfl⟩ := h
    cases hx : x.prepareAction <;> constructor <;> simp [opening, hx]
  | running completed =>
    obtain ⟨rfl, rfl⟩ := h
    cases hx : x.prepareAction <;> constructor <;> simp [opening, hx]
  | releasing completed result =>
    obtain ⟨body, rfl, rfl, rfl⟩ := h
    cases body <;> cases hx : x.prepareAction <;> constructor <;>
      simp [opening, Body.events, hx, List.countP_cons]
  | committing result =>
    obtain ⟨body, hx, -, rfl, -, rfl⟩ := h
    cases body <;> constructor <;>
      simp [opening, Body.events, hx, List.countP_cons]
  | formatting err =>
    obtain ⟨body, hx, -, rfl⟩ := h
    cases body <;> constructor <;>
      simp [opening, Body.events, hx, List.countP_cons]
  | rollingBack original result =>
    obtain ⟨body, hx, -, rfl, -, -, rfl⟩ := h
    rcases body with - | ⟨t, err | value⟩ <;> constructor <;>
      simp [opening, Body.events, hx, List.countP_cons]
  | returned result => exact Ended.observed h
  | unwound => exact absurd h id

/-- The lock is taken at most once. -/
theorem Observed.acquired_once (h : Observed x phase es) : es.countP Event.isAcquired ≤ 1 := by
  have hrank : ∀ e : Event T R E, e.isAcquired = (e.rank == 2) := by
    intro e
    cases e <;> rfl
  have hnodup : (es.map Event.rank).Nodup := h.ordered.imp Nat.ne_of_lt
  calc es.countP Event.isAcquired
      = (es.map Event.rank).count 2 := by
        rw [List.count_eq_countP, List.countP_map]
        exact List.countP_congr fun e _ => by rw [hrank, Function.comp_apply]
    _ ≤ 1 := List.nodup_iff_count_le_one.mp hnodup 2

end Observed

/-! ### The lifecycle -/

/-- **The prepare lifecycle**, in every moment of a run. -/
structure Lifecycle [ToString E] (x : Executor) (first : T) (s : State T R E)
    (log : List (ℕ × Event T R E)) : Prop where
  /-- What each invocation has done. -/
  invocations : ∀ k phase, s.invocations[k]? = some phase → Observed x phase (story k log)
  /-- The whole story of an invocation that has returned, and what it returned. -/
  ended : ∀ k result, s.invocations[k]? = some (.returned result) → Ended x result (story k log)
  /-- Whoever is inside the critical section is the holder of the lock. -/
  exclusive : ∀ k phase, s.invocations[k]? = some phase →
    (phase.isCritical = true ↔ s.lock.holder = some k)
  /-- The data is what the tasks run so far have made of the first value, one after the
  other, -/
  value : s.lock.value = (tasks log).foldl (fun data t => (t.run data).1) first
  /-- in the order in which those who run them have taken the lock. -/
  order : (runners log).Sublist (acquirers log) ∧ (acquirers log).Nodup

section Run

variable [ToString E] {x : Executor} {first : T}

/-- Something that is true of each invocation and its story. -/
structure Storied (P : Phase R E → List (Event T R E) → Prop) (s : State T R E)
    (log : List (ℕ × Event T R E)) : Prop where
  /-- The stories. -/
  told : ∀ k phase, s.invocations[k]? = some phase → P phase (story k log)
  /-- Who has not begun has no story. -/
  silent : ∀ k, s.invocations[k]? = none → story k log = []

/-- **What is true at the beginning of a story, and after every move, is true of all stories.** -/
theorem Storied.step {P : Phase R E → List (Event T R E) → Prop} {s s' : State T R E}
    {a : Action T R E} {log : List (ℕ × Event T R E)} (h : Storied P s log)
    (hbegin : P .testing [])
    (hmove : ∀ k m phase lock' phase' es, a = .move k m → P phase es →
      Turn x k s.lock phase m lock' phase' → P phase' (es ++ [m.event s.lock.value]))
    (hstep : step x s a = some s') : Storied P s' (log ++ watch s a s') := by
  rcases step_cases hstep with
    ⟨rfl, rfl⟩ | ⟨k, m, phase, lock, phase', lines, rfl, hk, hturn, rfl⟩
  · rw [watch, List.append_nil]
    refine ⟨fun k phase hk => ?_, fun k hk => ?_⟩
    · rcases getElem?_concat_cases hk with hold | ⟨rfl, rfl⟩
      · exact h.told k phase hold
      · rw [h.silent _ (List.getElem?_eq_none (Nat.le_refl _))]
        exact hbegin
    · refine h.silent k (List.getElem?_eq_none ?_)
      have := List.getElem?_eq_none_iff.mp hk
      simp only [List.length_append] at this
      omega
  · refine ⟨fun j phase₁ hj => ?_, fun j hj => ?_⟩
    · rcases getElem?_set_cases hk hj with ⟨rfl, rfl⟩ | ⟨hne, hold⟩
      · rw [watch, story_append_self]
        exact hmove j m phase lock _ _ rfl (h.told j phase hk) hturn
      · rw [watch, story_append_ne _ _ _ hne]
        exact h.told j phase₁ hold
    · rcases eq_or_ne k j with rfl | hne
      · rw [getElem?_set_of_some hk] at hj
        cases hj
      · rw [watch, story_append_ne _ _ _ hne]
        exact h.silent j (List.getElem?_set_ne hne ▸ hj)

omit [ToString E] in
/-- Before the first invocation there is nothing to tell. -/
theorem Storied.start {P : Phase R E → List (Event T R E) → Prop} {s : State T R E}
    (h : s.invocations = []) : Storied P s [] := by
  refine ⟨fun k phase hk => ?_, fun _ _ => rfl⟩
  rw [h] at hk
  cases hk

/-- The stories of all the invocations, and the lock they share. -/
structure Narrated (x : Executor) (first : T) (s : State T R E)
    (log : List (ℕ × Event T R E)) : Prop where
  /-- The stories. -/
  told : ∀ k phase, s.invocations[k]? = some phase → Told x phase (story k log)
  /-- Who has not begun has no story. -/
  silent : ∀ k, s.invocations[k]? = none → story k log = []
  /-- The lock. -/
  guarded : Guarded first s log

/-- Every step goes on with the stories. -/
theorem Narrated.step {s s' : State T R E} {a : Action T R E} {log : List (ℕ × Event T R E)}
    (h : Narrated x first s log) (hreturns : a.Returns s) (hstep : step x s a = some s') :
    Narrated x first s' (log ++ watch s a s') := by
  have hstoried : Storied (Told x) s log := ⟨h.told, h.silent⟩
  have hnext : Storied (Told x) s' (log ++ watch s a s') := by
    refine hstoried.step rfl ?_ hstep
    rintro k m phase lock' phase' es rfl hes hturn
    exact hes.turn hturn (hturn.ne_unwound hreturns h.guarded.clean)
  refine ⟨hnext.told, hnext.silent, ?_⟩
  rcases step_cases hstep with
    ⟨rfl, rfl⟩ | ⟨k, m, phase, lock, phase', lines, rfl, hk, hturn, rfl⟩
  · rw [watch, List.append_nil]
    exact h.guarded.invoke
  · exact h.guarded.move hk (hturn.lockMove hreturns h.guarded.clean)

/-- At the beginning there is nothing to tell. -/
theorem Narrated.init {s : State T R E} (h : (machine x first).init s) :
    Narrated x first s [] := by
  obtain ⟨hvalue, hholder, hclean, hinvocations, -⟩ := h
  have hstoried : Storied (Told x) s [] := .start hinvocations
  refine ⟨hstoried.told, hstoried.silent, hclean, fun k => ?_, hvalue, ?_⟩
  · simp [hinvocations, hholder]
  · rw [State.pending_of_free hholder]
    exact List.Sublist.refl _

/-- What the stories tell. -/
theorem Narrated.lifecycle {s : State T R E} {log : List (ℕ × Event T R E)}
    (h : Narrated x first s log) : Lifecycle x first s log where
  invocations k phase hk := (h.told k phase hk).observed
  ended k result hk := h.told k (.returned result) hk
  exclusive k phase hk := by
    rw [← h.guarded.holder k, hk, Option.any_some]
  value := h.guarded.value
  order := by
    refine ⟨(List.sublist_append_left _ _).trans h.guarded.order, ?_⟩
    refine List.nodup_iff_count_le_one.mpr fun k => ?_
    rw [acquirers, count_actors]
    cases hk : s.invocations[k]? with
    | none => simp [h.silent k hk]
    | some phase => exact (h.told k phase hk).observed.acquired_once

/-- The stories and the lock, in every run. -/
theorem narrated_of_reach {t : State T R E × List (ℕ × Event T R E)}
    (ht : ((machine x first).observe watch).ReachVia (fun t a => a.Returns t.1) t) :
    Narrated x first t.1 t.2 := by
  have hstep : ∀ (s : State T R E) a s' log, (machine x first).ReachVia (fun s a => a.Returns s) s →
      Narrated x first s log → a.Returns s → step x s a = some s' →
      Narrated x first s' (log ++ watch s a s') :=
    fun s a s' log _ h hreturns hstep => h.step hreturns hstep
  exact (Machine.observe_invariant (fun s => Narrated.init) hstep ht).2

/-- **The lifecycle of every run.** -/
theorem lifecycle_of_reach {t : State T R E × List (ℕ × Event T R E)}
    (ht : ((machine x first).observe watch).ReachVia (fun t a => a.Returns t.1) t) :
    Lifecycle x first t.1 t.2 :=
  (narrated_of_reach ht).lifecycle

end Run

/-- An executor with all its hooks, for a run to be looked at. -/
def hooked : Executor := ⟨{}, true, true, true⟩

/-- Two invocations pass the first check and prepare; the first one runs its task and commits,
and the second one, whose second check is false, rolls back, which fails. -/
theorem lifecycle_of_reach_two :
    ∃ t : State ℕ ℕ String × List (ℕ × Event ℕ ℕ String),
      t.1.invocations = [.returned (.success 15),
        .returned (.prepareRollbackFailed "Condition not met" "gone")] ∧
      Lifecycle hooked 10 t.1 t.2 := by
  obtain ⟨t, ht, hresults⟩ := Machine.exists_reachVia_of_exec
    (M := (machine hooked 10 : Machine (State ℕ ℕ String) _).observe watch)
    (fun t a => a.Returns t.1) (fun t a => decide (a.Returns t.1)) (fun _ _ => of_decide_eq_true)
    (s := (⟨⟨10, none, true, false⟩, [], []⟩, [])) ⟨⟨rfl, rfl, rfl, rfl, rfl⟩, rfl⟩
    [.invoke, .invoke, .move 0 (.test (.returned true)), .move 1 (.test (.returned true)),
      .move 0 (.prepare (.returned (.ok ()))), .move 1 (.prepare (.returned (.ok ()))),
      .move 0 .lock, .move 0 (.retest (.returned true)),
      .move 0 (.task (.withData fun n => (n + 5, .returned (.ok (n + 5))))), .move 0 .release,
      .move 1 .lock, .move 1 (.retest (.returned false)),
      .move 0 (.commit (.returned (.ok ()))), .move 1 .release,
      .move 1 (.rollback (.returned (.error "gone")))]
    (fun t => decide (t.1.invocations = [.returned (.success 15),
      .returned (.prepareRollbackFailed "Condition not met" "gone")])) (by decide)
  exact ⟨t, of_decide_eq_true hresults, lifecycle_of_reach ht⟩

end DoubleChecked

end QubitConcurrent
