import QubitConcurrent.ThreadPool.Jobs
import QubitConcurrent.TaskHandle.OneShot

/-!
# Callable tasks on a pool

`ThreadPool::submit_callable` makes a job of two callbacks on one cell: to run the job
is `run_task`, that is `start_and_complete` on one clone of the completion, and to cancel
it is `cancel` on another. The caller keeps the handle, and may cancel through it as well.

The machine is the pool next to the cells of the tasks submitted this way. Which jobs
those are is up to the run (`callable`); the others come from `submit_job`, with callbacks
of their own. The pool does what it always does, but for one thing it cannot know: the
callback of a callable task has returned only once the call it makes on its cell has. It
may also unwind, at any time: `run_callable` catches what its callable throws, but not
what is thrown when the callable or that panic is dropped, or by a waker.

The result is `QubitConcurrent.ThreadPool.Linked.isDone_of_returned`: where either
callback of a callable task has returned, its handle is done.
-/

namespace QubitConcurrent

namespace ThreadPool

variable {Job R E W : Type}

/-! ### The machine -/

/-- A callable task: its cell, and the calls its two callbacks have made on it. -/
structure CallableTask (R E W : Type) where
  /-- The cell, and the threads around it. -/
  cell : TaskHandle.Task R E W
  /-- The call of `start_and_complete`, once the run callback has made it. -/
  runner : Option ℕ
  /-- The call of `cancel`, once the cancel callback has made it. -/
  canceller : Option ℕ

namespace CallableTask

/-- The task `submit_callable` starts from. -/
def new : CallableTask R E W := ⟨.new, none, none⟩

/-- Whether a call on the cell was made and has returned. -/
def hasReturned (t : CallableTask R E W) (call : Option ℕ) : Bool :=
  (call.bind fun k => t.cell.calls[k]?).any TaskHandle.Call.isReturned

/-- `TaskHandle::is_done`. -/
def isDone (t : CallableTask R E W) : Bool := t.cell.inner.done

end CallableTask

/-- A pool and the cells of its callable tasks. -/
structure CallablePool (Job R E W : Type) where
  /-- The pool. -/
  pool : Pool Job
  /-- The callable tasks, by their job. -/
  tasks : Job → CallableTask R E W

/-- The actions on a pool and on the cells. -/
inductive CallableAction (Job R E W : Type)
  /-- An action on the pool. -/
  | pool (a : Action Job)
  /-- The run callback of a task calls `start_and_complete`. -/
  | runTask (job : Job)
  /-- The callable of a task ends, and its result is completed with. -/
  | callReturns (job : Job) (outcome : TaskHandle.Outcome R E)
  /-- The cancel callback of a task calls `cancel`. -/
  | cancelTask (job : Job)
  /-- An action on a cell that is none of its callbacks. -/
  | cell (job : Job) (a : TaskHandle.Action R E W)

namespace CallablePool

/-- Whether every callback of a callable task that the ledger has as returned has
returned from its cell. -/
def callbacksOver (callable : Job → Bool) (tasks : Job → CallableTask R E W) (l : Ledger Job) :
    Bool :=
  l.runReturned.all (fun j => !callable j || (tasks j).hasReturned (tasks j).runner) &&
    (l.cancelReturned ++ l.rollbackReturned).all fun j =>
      !callable j || (tasks j).hasReturned (tasks j).canceller

/-- What the callbacks of a task leave to others: a `finish` that has published goes on
by itself, and whoever has the handle uses it. -/
def isFree (handed : Bool) : TaskHandle.Action R E W → Bool
  | .notify _ | .wake _ => true
  | .handleCancel | .isDone | .poll _ | .get | .wakeGetter | .resumeGetter => handed
  | _ => false

section Step

variable [DecidableEq Job]

/-- A step on the cell of a task, and what is written down about it. -/
def onCell (s : CallablePool Job R E W) (j : Job) (a : TaskHandle.Action R E W)
    (f : CallableTask R E W → CallableTask R E W) : Option (CallablePool Job R E W) :=
  ((s.tasks j).cell.step a).map fun cell =>
    { s with tasks := Function.update s.tasks j (f { s.tasks j with cell := cell }) }

/-- One step of a pool with callable tasks. -/
def step (callable : Job → Bool) (s : CallablePool Job R E W) :
    CallableAction Job R E W → Option (CallablePool Job R E W)
  | .pool a =>
    (ThreadPool.step s.pool a).bind fun p =>
      if callbacksOver callable s.tasks p.ledger then some { s with pool := p } else none
  | .runTask j =>
    if j ∈ s.pool.ledger.runInvoked ∧ (s.tasks j).runner = none then
      s.onCell j .startAndComplete fun t => { t with runner := some (s.tasks j).cell.calls.length }
    else none
  | .callReturns j outcome =>
    match (s.tasks j).runner with
    | some k => s.onCell j (.taskReturns k (TaskHandle.runCallable outcome)) id
    | none => none
  | .cancelTask j =>
    if j ∈ s.pool.ledger.cancelInvoked ++ s.pool.ledger.rollbackInvoked ∧
        (s.tasks j).canceller = none then
      s.onCell j .cancel fun t => { t with canceller := some (s.tasks j).cell.calls.length }
    else none
  | .cell j a =>
    if isFree (decide (j ∈ s.pool.ledger.accepted)) a then s.onCell j a id else none

end Step

end CallablePool

/-- **The machine of a pool with callable tasks.** -/
def callableMachine (Job R E W : Type) [DecidableEq Job] (callable : Job → Bool) :
    Machine (CallablePool Job R E W) (CallableAction Job R E W) where
  init s := (machine Job).init s.pool ∧ s.tasks = fun _ => .new
  step := CallablePool.step callable

/-! ### One task -/

/-- **What the cell of a task has to do with its callbacks.** -/
structure Orderly (t : CallableTask R E W) : Prop where
  /-- The cell is one of a task handle. -/
  reach : (TaskHandle.machine R E W).Reach t.cell
  /-- Only the run callback starts the task. -/
  started : t.cell.inner.started = true → t.runner.isSome = true
  /-- The run callback is in its closure, or the task is completed. -/
  ran : ∀ k, t.runner = some k → ∃ c, t.cell.calls[k]? = some c ∧
    (c = .executing ∨ t.cell.inner.completed = true)
  /-- The cancel callback comes too late, or the task is completed. -/
  cancelled : t.canceller.isSome = true →
    t.cell.inner.completed = true ∨ t.cell.inner.started = true

namespace Orderly

variable {t : CallableTask R E W} {cell : TaskHandle.Task R E W}

/-- A task nobody has touched is orderly. -/
theorem new : Orderly (.new : CallableTask R E W) where
  reach := .start rfl
  started := by simp [CallableTask.new, TaskHandle.Task.new, TaskHandle.TaskHandleInner.new]
  ran := by simp [CallableTask.new]
  cancelled := by simp [CallableTask.new]

/-- A step on the cell is one of its machine. -/
theorem reach_step (h : Orderly t) (a : TaskHandle.Action R E W)
    (hstep : t.cell.step a = some cell) : (TaskHandle.machine R E W).Reach cell :=
  h.reach.next trivial hstep

/-- The run callback stays in its closure until the task is completed. -/
theorem ran_step (h : Orderly t) {a : TaskHandle.Action R E W}
    (hstep : t.cell.step a = some cell) (hunwind : ∀ k, a ≠ .taskUnwinds k) (k : ℕ)
    (hk : t.runner = some k) :
    ∃ c, cell.calls[k]? = some c ∧ (c = .executing ∨ cell.inner.completed = true) := by
  obtain ⟨c, hc, hstate⟩ := h.ran k hk
  obtain ⟨c', hc', hmoved⟩ := TaskHandle.step_call hstep hc
  refine ⟨c', hc', ?_⟩
  rcases hstate with hexec | hcompleted
  · rcases hmoved with rfl | ⟨-, hends⟩
    · exact Or.inl hexec
    · exact Or.inr ((hends hexec).resolve_left (hunwind k))
  · exact Or.inr ((TaskHandle.step_change hstep).completed hcompleted)

/-- The cancel callback keeps what it has achieved. -/
theorem cancelled_step (h : Orderly t) {a : TaskHandle.Action R E W}
    (hstep : t.cell.step a = some cell) (hcanceller : t.canceller.isSome = true) :
    cell.inner.completed = true ∨ cell.inner.started = true := by
  have hchange := TaskHandle.step_change hstep
  exact (h.cancelled hcanceller).imp hchange.completed hchange.started

/-- A step on the cell that starts nothing keeps a task orderly. -/
theorem step (h : Orderly t) {a : TaskHandle.Action R E W} (hstep : t.cell.step a = some cell)
    (hstart : a ≠ .start) (hrun : a ≠ .startAndComplete) (hunwind : ∀ k, a ≠ .taskUnwinds k) :
    Orderly { t with cell := cell } where
  reach := h.reach_step a hstep
  started := fun hstarted =>
    h.started (by rwa [TaskHandle.step_started hstep hstart hrun] at hstarted)
  ran := h.ran_step hstep hunwind
  cancelled := h.cancelled_step hstep

/-- The run callback calls `start_and_complete`. -/
theorem runTask (h : Orderly t) (hstep : t.cell.step .startAndComplete = some cell) :
    Orderly { t with cell := cell, runner := some t.cell.calls.length } where
  reach := h.reach_step .startAndComplete hstep
  started := fun _ => rfl
  ran := by
    intro k hk
    obtain rfl := Option.some.inj hk
    cases hcompleted : t.cell.inner.completed with
    | true =>
      have hlost : t.cell.inner.start = (false, t.cell.inner) := by
        simp [TaskHandle.TaskHandleInner.start, hcompleted]
      simp only [TaskHandle.Task.step, hlost, Option.some.injEq] at hstep
      subst hstep
      exact ⟨.returned (.startAndComplete false), by simp [TaskHandle.Task.addCall],
        Or.inr hcompleted⟩
    | false =>
      have hwon : t.cell.inner.start = (true, { t.cell.inner with started := true }) := by
        simp [TaskHandle.TaskHandleInner.start, hcompleted]
      simp only [TaskHandle.Task.step, hwon, Option.some.injEq] at hstep
      subst hstep
      exact ⟨.executing, by simp [TaskHandle.Task.addCall], Or.inl rfl⟩
  cancelled := h.cancelled_step hstep

/-- The cancel callback calls `cancel`. -/
theorem cancelTask (h : Orderly t) (hstep : t.cell.step .cancel = some cell) :
    Orderly { t with cell := cell, canceller := some t.cell.calls.length } where
  reach := h.reach_step .cancel hstep
  started := fun hstarted =>
    h.started (by rwa [TaskHandle.step_started hstep (by simp) (by simp)] at hstarted)
  ran := h.ran_step hstep (by simp)
  cancelled := by
    intro _
    have hcell := (Option.some.inj hstep).symm
    -- a `cancel` that does not publish has found the task completed or started
    cases hcompleted : t.cell.inner.completed <;> cases hstarted : t.cell.inner.started <;>
      simp [hcell, TaskHandle.Task.cancelStep, TaskHandle.Task.addCall,
        TaskHandle.TaskHandleInner.cancel, TaskHandle.TaskHandleInner.finish, hcompleted, hstarted]

/-- Once `start_and_complete` has returned, the task is done. -/
theorem isDone_of_runner (h : Orderly t) (hreturned : t.hasReturned t.runner = true) :
    t.isDone = true := by
  rw [CallableTask.isDone, (TaskHandle.OneShot.of_reach h.reach).done]
  cases hrunner : t.runner with
  | none => simp [CallableTask.hasReturned, hrunner] at hreturned
  | some k =>
    obtain ⟨c, hc, rfl | hcompleted⟩ := h.ran k hrunner
    · simp [CallableTask.hasReturned, hrunner, hc, TaskHandle.Call.isReturned] at hreturned
    · exact hcompleted

/-- Once `cancel` was called on a task nobody has started, the task is done. -/
theorem isDone_of_canceller (h : Orderly t) (hcanceller : t.canceller.isSome = true)
    (hrunner : t.runner = none) : t.isDone = true := by
  rw [CallableTask.isDone, (TaskHandle.OneShot.of_reach h.reach).done]
  refine (h.cancelled hcanceller).resolve_right fun hstarted => ?_
  have hsome := h.started hstarted
  rw [hrunner] at hsome
  exact absurd hsome (by simp)

/-- A call that has returned stays so. -/
theorem hasReturned_step {a : TaskHandle.Action R E W} (hstep : t.cell.step a = some cell)
    {call : Option ℕ} (hreturned : t.hasReturned call = true) {t' : CallableTask R E W}
    (hcell : t'.cell = cell) : t'.hasReturned call = true := by
  subst hcell
  cases call with
  | none => simp [CallableTask.hasReturned] at hreturned
  | some k =>
    cases hk : t.cell.calls[k]? with
    | none => simp [CallableTask.hasReturned, hk] at hreturned
    | some c =>
      simp only [CallableTask.hasReturned, Option.bind_some, hk, Option.any_some] at hreturned
      obtain ⟨c', hc', rfl | ⟨hnot, -⟩⟩ := TaskHandle.step_call hstep hk
      · simp [CallableTask.hasReturned, hc', hreturned]
      · rw [hreturned] at hnot
        exact absurd hnot (by simp)

end Orderly

/-! ### All tasks, and the pool -/

/-- A run callback that was invoked stays invoked. -/
theorem Effect.mem_runInvoked {m : Mode} {s s' : Pool Job} (he : Effect m s s') {j : Job}
    (hj : j ∈ s.ledger.runInvoked) : j ∈ s'.ledger.runInvoked := by
  cases he with
  | invokeRun => exact List.mem_append_left _ hj
  | exit | finish =>
    refine Pool.notifyTerminated_of (I := fun t => j ∈ t.ledger.runInvoked) (fun _ h => h) ?_
    exact hj
  | _ => exact hj

section Linked

variable [DecidableEq Job] {callable : Job → Bool} {s s' : CallablePool Job R E W}

/-- The pool of a run with callable tasks is one of a run of the pool. -/
theorem pool_reach {ok : CallablePool Job R E W → CallableAction Job R E W → Prop}
    (hs : (callableMachine Job R E W callable).ReachVia ok s) : (machine Job).Reach s.pool := by
  refine hs.simulate (M := callableMachine Job R E W callable) CallablePool.pool
    (fun _ hinit => hinit.1) fun s a s' _ _ hstep => ?_
  cases a with
  | pool a =>
    obtain ⟨p, hp, hrest⟩ := Option.bind_eq_some_iff.mp hstep
    split_ifs at hrest
    obtain rfl := Option.some.inj hrest
    exact Or.inr ⟨a, trivial, hp⟩
  | runTask j =>
    simp only [callableMachine, CallablePool.step] at hstep
    split_ifs at hstep
    obtain ⟨cell, -, rfl⟩ := Option.map_eq_some_iff.mp hstep
    exact Or.inl rfl
  | callReturns j outcome =>
    simp only [callableMachine, CallablePool.step] at hstep
    split at hstep
    · obtain ⟨cell, -, rfl⟩ := Option.map_eq_some_iff.mp hstep
      exact Or.inl rfl
    · exact absurd hstep (by simp)
  | cancelTask j =>
    simp only [callableMachine, CallablePool.step] at hstep
    split_ifs at hstep
    obtain ⟨cell, -, rfl⟩ := Option.map_eq_some_iff.mp hstep
    exact Or.inl rfl
  | cell j a =>
    simp only [callableMachine, CallablePool.step] at hstep
    split_ifs at hstep
    obtain ⟨cell, -, rfl⟩ := Option.map_eq_some_iff.mp hstep
    exact Or.inl rfl

/-- **What the callable tasks have to do with the pool.** -/
structure Linked (callable : Job → Bool) (s : CallablePool Job R E W) : Prop where
  /-- Every task is orderly. -/
  orderly : ∀ j, Orderly (s.tasks j)
  /-- Only a run callback that was invoked starts its task. -/
  invoked : ∀ j, (s.tasks j).runner.isSome = true → j ∈ s.pool.ledger.runInvoked
  /-- A callback that has returned has returned from its cell. -/
  agree : CallablePool.callbacksOver callable s.tasks s.pool.ledger = true

namespace Linked

/-- A step on the cell of one task keeps the tasks linked to the pool, if it keeps that
task orderly and forgets no call of its callbacks. -/
theorem onCell (h : Linked callable s) {j : Job} {a : TaskHandle.Action R E W}
    {cell : TaskHandle.Task R E W} (hstep : (s.tasks j).cell.step a = some cell)
    {t : CallableTask R E W} (hcell : t.cell = cell) (horderly : Orderly t)
    (hinvoked : t.runner.isSome = true → j ∈ s.pool.ledger.runInvoked)
    (hrunner : (s.tasks j).runner.isSome = true → t.runner = (s.tasks j).runner)
    (hcanceller : (s.tasks j).canceller.isSome = true → t.canceller = (s.tasks j).canceller) :
    Linked callable { s with tasks := Function.update s.tasks j t } := by
  -- a call that has returned was made, so it is not forgotten
  have hsome : ∀ {call : Option ℕ}, (s.tasks j).hasReturned call = true → call.isSome = true := by
    intro call hreturned
    cases call with
    | none => simp [CallableTask.hasReturned] at hreturned
    | some k => rfl
  have hkept : ∀ i, ((s.tasks i).hasReturned (s.tasks i).runner = true →
        (Function.update s.tasks j t i).hasReturned (Function.update s.tasks j t i).runner = true) ∧
      ((s.tasks i).hasReturned (s.tasks i).canceller = true →
        (Function.update s.tasks j t i).hasReturned
          (Function.update s.tasks j t i).canceller = true) := by
    refine (Function.forall_update_iff s.tasks (p := fun i t' =>
      ((s.tasks i).hasReturned (s.tasks i).runner = true → t'.hasReturned t'.runner = true) ∧
        ((s.tasks i).hasReturned (s.tasks i).canceller = true →
          t'.hasReturned t'.canceller = true))).mpr ⟨⟨?_, ?_⟩, fun i _ => ⟨id, id⟩⟩
    · intro hreturned
      rw [hrunner (hsome hreturned)]
      exact Orderly.hasReturned_step hstep hreturned hcell
    · intro hreturned
      rw [hcanceller (hsome hreturned)]
      exact Orderly.hasReturned_step hstep hreturned hcell
  refine ⟨?_, ?_, ?_⟩
  · exact (Function.forall_update_iff s.tasks (p := fun _ t' => Orderly t')).mpr
      ⟨horderly, fun i _ => h.orderly i⟩
  · exact (Function.forall_update_iff s.tasks
      (p := fun i t' => t'.runner.isSome = true → i ∈ s.pool.ledger.runInvoked)).mpr
      ⟨hinvoked, fun i _ => h.invoked i⟩
  · have hover := h.agree
    simp only [CallablePool.callbacksOver, Bool.and_eq_true, List.all_eq_true,
      Bool.or_eq_true] at hover ⊢
    obtain ⟨hruns, hcancels⟩ := hover
    exact ⟨fun i hi => (hruns i hi).imp id (hkept i).1,
      fun i hi => (hcancels i hi).imp id (hkept i).2⟩

/-- Every step keeps the tasks linked to the pool. -/
theorem step (h : Linked callable s) (hwf : Wf s.pool) {a : CallableAction Job R E W}
    (hstep : CallablePool.step callable s a = some s') : Linked callable s' := by
  cases a with
  | pool a =>
    obtain ⟨p, hp, hrest⟩ := Option.bind_eq_some_iff.mp hstep
    split_ifs at hrest with hover
    obtain rfl := Option.some.inj hrest
    refine ⟨h.orderly, fun j hj => ?_, hover⟩
    exact Machine.invariant_of_chain (I := fun t => j ∈ t.ledger.runInvoked)
      (fun _ _ hmem he => Effect.mem_runInvoked he hmem) (step_effects hwf Permitted.any hp)
      (h.invoked j hj)
  | runTask j =>
    simp only [CallablePool.step] at hstep
    split_ifs at hstep with hfirst
    obtain ⟨cell, hcell, rfl⟩ := Option.map_eq_some_iff.mp hstep
    refine h.onCell hcell rfl ((h.orderly j).runTask hcell) (fun _ => hfirst.1) ?_ (fun _ => rfl)
    rw [hfirst.2]
    exact fun hsome => absurd hsome (by simp)
  | callReturns j outcome =>
    simp only [CallablePool.step] at hstep
    split at hstep
    · obtain ⟨cell, hcell, rfl⟩ := Option.map_eq_some_iff.mp hstep
      exact h.onCell hcell rfl ((h.orderly j).step hcell (by simp) (by simp) (by simp))
        (h.invoked j) (fun _ => rfl) (fun _ => rfl)
    · exact absurd hstep (by simp)
  | cancelTask j =>
    simp only [CallablePool.step] at hstep
    split_ifs at hstep with hfirst
    obtain ⟨cell, hcell, rfl⟩ := Option.map_eq_some_iff.mp hstep
    refine h.onCell hcell rfl ((h.orderly j).cancelTask hcell) (h.invoked j) (fun _ => rfl) ?_
    rw [hfirst.2]
    exact fun hsome => absurd hsome (by simp)
  | cell j a =>
    simp only [CallablePool.step] at hstep
    split_ifs at hstep with hfree
    obtain ⟨cell, hcell, rfl⟩ := Option.map_eq_some_iff.mp hstep
    refine h.onCell hcell rfl ((h.orderly j).step hcell ?_ ?_ ?_) (h.invoked j) (fun _ => rfl)
      (fun _ => rfl)
    · rintro rfl
      exact absurd hfree (by simp [CallablePool.isFree])
    · rintro rfl
      exact absurd hfree (by simp [CallablePool.isFree])
    · rintro k rfl
      exact absurd hfree (by simp [CallablePool.isFree])

/-- **In every run the callable tasks are linked to the pool.** -/
theorem of_reach {ok : CallablePool Job R E W → CallableAction Job R E W → Prop}
    (hs : (callableMachine Job R E W callable).ReachVia ok s) : Linked callable s := by
  refine hs.invariant ?_ fun s a s' hr h _ hstep => h.step (wf_of_reach (pool_reach hr)) hstep
  rintro s ⟨⟨b, hb⟩, htasks⟩
  refine ⟨fun j => ?_, fun j hj => ?_, ?_⟩
  · rw [htasks]
    exact Orderly.new
  · rw [htasks] at hj
    exact absurd hj (by simp [CallableTask.new])
  · obtain ⟨-, hpool | hpool⟩ := build_eq_ok hb <;> rw [hpool] <;> rfl

/-- **Once a callback of a callable task has returned, its handle is done.** -/
theorem isDone_of_returned {ok : CallablePool Job R E W → CallableAction Job R E W → Prop}
    (hs : (callableMachine Job R E W callable).ReachVia ok s) {j : Job} (hj : callable j = true)
    (hreturned : j ∈ s.pool.ledger.runReturned ∨ j ∈ s.pool.ledger.cancelReturned) :
    (s.tasks j).isDone = true := by
  have h := of_reach hs
  have hover := h.agree
  simp only [CallablePool.callbacksOver, Bool.and_eq_true, List.all_eq_true, Bool.or_eq_true,
    Bool.not_eq_true'] at hover
  obtain ⟨hruns, hcancels⟩ := hover
  rcases hreturned with hrun | hcancel
  · refine (h.orderly j).isDone_of_runner ((hruns j hrun).resolve_left ?_)
    simp [hj]
  · have hback := (hcancels j (List.mem_append_left _ hcancel)).resolve_left (by simp [hj])
    refine (h.orderly j).isDone_of_canceller ?_ ?_
    · cases hcanceller : (s.tasks j).canceller with
      | none => simp [CallableTask.hasReturned, hcanceller] at hback
      | some k => rfl
    · -- a job that is cancelled is never run
      by_contra hne
      have hinvoked := List.count_pos_iff.mpr (h.invoked j (Option.isSome_iff_ne_none.mpr hne))
      have hpool := pool_reach hs
      have hle := count_invoked_le hpool j
      have hcancels := (cancelsCounted_of_reach hpool).invoked j
      have hone := (placed_of_reach hpool).count_accepted_le j
      have hcount := List.count_pos_iff.mpr hcancel
      omega

end Linked

end Linked

end ThreadPool

end QubitConcurrent
