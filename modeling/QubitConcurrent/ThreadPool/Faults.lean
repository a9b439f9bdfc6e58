import QubitConcurrent.ThreadPool.Accounting

/-!
# What goes wrong, and exactly when

Three things the pool does not provide for.

* **A thread that cannot be created.** `spawn_worker_locked` counts the worker and,
  if there is one, its first job; registers a queue; and takes all of it back if
  the thread cannot be created. But it takes back a running job whenever one is
  counted, whether or not it has counted one itself. So the rollback is exact when
  the spawn carries a first job or nothing runs; without a first job it robs
  another worker of its count, and that worker will find none left when it wants
  to account for its job.
* **A thread creation that panics**, as it does where the name of the thread – the
  prefix of the pool, and an index – contains a NUL. The panic passes everything
  that would have taken the counts back: a worker stays registered that never was.
* **A callback that unwinds.** The worker loop calls the job between counting it
  and taking the count back, and nothing does the latter on unwinding. The worker
  is gone and stays counted.

In runs without the three the counters are what they should be, by
`QubitConcurrent.ThreadPool.Counted`.
-/

namespace QubitConcurrent

namespace ThreadPool

variable {Job : Type} {s s' : Pool Job}

/-! ### Failed thread creations -/

/-- The operations that may create a worker thread. -/
inductive SpawnOp (Job : Type)
  /-- `submit`. -/
  | submit (job : Job)
  /-- `prestart_core_thread`. -/
  | prestartCoreThread
  /-- A round of `prestart_all_core_threads`. -/
  | prestartAllCoreThreads (started : ℕ)

namespace SpawnOp

/-- The critical section of the operation. -/
def body (spawned : SpawnOutcome) : SpawnOp Job → PoolM Job (Call Job)
  | submit job => ThreadPool.submit job spawned
  | prestartCoreThread => do
    return .returned (.prestartCoreThread (← ThreadPool.prestartCoreThread spawned))
  | prestartAllCoreThreads started => prestartAllNext started spawned

/-- The first job the thread would be created for. -/
def firstTask (s : Pool Job) : SpawnOp Job → Option Job
  | submit job =>
    if s.state.liveWorkers < s.state.corePoolSize ∨ s.state.isSaturated = true then some job
    else none
  | _ => none

end SpawnOp

/-- The jobs in the hands of workers are as many as the workers that hold one. -/
theorem Pool.length_heldJobs (s : Pool Job) :
    s.heldJobs.length = s.countWorkers WorkerPhase.isBusy := by
  rw [heldJobs, countWorkers]
  induction s.workers with
  | nil => rfl
  | cons w l ih =>
    rw [List.flatMap_cons, List.length_append, ih, List.countP_cons]
    cases w.phase <;> simp [WorkerPhase.held, WorkerPhase.isBusy, Nat.add_comm]

/-- Where no worker has died, the registered workers are those whose loop goes
on. -/
theorem Counted.countWorkers_isLive (h : Counted s) :
    s.countWorkers WorkerPhase.isLive = s.countWorkers fun p => !p.hasEnded := by
  refine List.countP_congr fun w hw => ?_
  have halive := h.alive w hw
  revert halive
  cases w.phase <;> simp [WorkerPhase.isLive, WorkerPhase.hasEnded]

section Runs

variable [DecidableEq Job]

/-- **The accounting survives as long as no callback unwinds.** In every run in
which run callbacks return, no thread creation panics, and none fails without a first
job while a job is counted as running: `live_workers` is the number of workers whose loop has
not ended, `running_tasks` the number of jobs in their hands. A pool that was shut
down, whose workers have all ended and whose queues are empty is terminated, and a
queued job has a worker whose loop goes on. -/
theorem counts_survive_without_unwinding
    (hs : (machine Job).ReachVia (fun s a => ¬a.isFaulty s) s) :
    s.state.liveWorkers = s.countWorkers (fun p => !p.hasEnded) ∧
      s.state.runningTasks = s.heldJobs.length ∧
      (s.state.lifecycle ≠ .running → (∀ w ∈ s.workers, w.phase.hasEnded = true) →
        s.queuedJobs = [] → s.state.isTerminated = true) ∧
      (0 < s.state.queuedTasks → ∃ w ∈ s.workers, w.phase.hasEnded = false) := by
  have hwf : Wf s := wf_of_reach hs
  have hcounted : Counted s := Counted.of_reach (fun _ _ h => h) hs
  have hlive : s.state.liveWorkers = s.countWorkers fun p => !p.hasEnded := by
    rw [hwf.live, hcounted.countWorkers_isLive]
  have hrunning : s.state.runningTasks = s.heldJobs.length := by
    rw [hcounted.running, s.length_heldJobs]
  refine ⟨hlive, hrunning, fun hshutdown hended hnil => ?_, fun hpos => ?_⟩
  · have hzero : s.state.liveWorkers = 0 := by
      rw [hlive, Pool.countWorkers, List.countP_eq_zero]
      intro w hw
      simp [hended w hw]
    refine ThreadPoolState.isTerminated_iff.mpr ⟨hshutdown, ?_, hwf.running_of_live hzero, hzero⟩
    rw [hwf.queued, hnil]
    rfl
  · have hne : s.queuedJobs ≠ [] := by
      rw [hwf.queued] at hpos
      exact List.ne_nil_of_length_pos hpos
    have hstaffed := hwf.staffed hne
    rw [hlive] at hstaffed
    obtain ⟨w, hw, hp⟩ := List.countP_pos_iff.mp hstaffed
    exact ⟨w, hw, by simpa using hp⟩

end Runs

/-- A pool of one worker is terminated once it was shut down and the worker has
ended. -/
theorem counts_survive_until_terminated :
    ∃ s : Pool ℕ, s.state.liveWorkers = 0 ∧ s.state.isTerminated = true := by
  obtain ⟨s, hs, hp⟩ := Machine.exists_reachVia_of_exec (fun s a => ¬Action.isFaulty s a)
    (fun _ a => a.calm) (fun _ _ => Action.not_isFaulty_of_calm) (machine_init_ofSize ℕ 0)
    [.submit 0 .ok, .invokeRun 0, .runReturns 0, .finishRunningJob 0, .shutdown,
      .waitForJob 0]
    (fun s => !s.state.lifecycle.isRunning && (s.workers.all fun w => w.phase.hasEnded) &&
      s.queuedJobs.isEmpty && s.state.liveWorkers == 0) (by decide)
  simp only [Bool.and_eq_true, Bool.not_eq_true', ThreadPoolLifecycle.isRunning_eq_false,
    List.all_eq_true, List.isEmpty_iff, beq_iff_eq] at hp
  exact ⟨s, hp.2, (counts_survive_without_unwinding hs).2.2.1 hp.1.1.1 hp.1.1.2 hp.1.2⟩

/-- **A callback that unwinds leaves its worker counted for ever.** The only worker of
a pool has died in its callback. It is still counted, the job it held is still
counted as running, the next job is queued for it – and the pool, shut down, has no
thread left and is not terminated. -/
theorem unwound_worker_stays_counted :
    ∃ s : Pool ℕ, (machine ℕ).Reach s ∧ s.state.lifecycle ≠ .running ∧
      (∀ w ∈ s.workers, w.phase.hasEnded = true) ∧ s.state.liveWorkers = 1 ∧
      s.state.runningTasks = 1 ∧ s.heldJobs = [] ∧ s.state.queuedTasks = 1 ∧
      s.state.isTerminated = false := by
  obtain ⟨s, hs, hp⟩ := Machine.exists_reachVia_of_exec (fun _ _ => True) (fun _ _ => true)
    (fun _ _ _ => trivial) (machine_init_ofSize ℕ 0)
    [.submit 0 .ok, .invokeRun 0, .runUnwinds 0, .submit 1 .ok, .shutdown]
    (fun s => !s.state.lifecycle.isRunning && (s.workers.all fun w => w.phase.hasEnded) &&
      s.state.liveWorkers == 1 && s.state.runningTasks == 1 && s.heldJobs.isEmpty &&
      s.state.queuedTasks == 1 && !s.state.isTerminated) (by decide)
  simp only [Bool.and_eq_true, Bool.not_eq_true', ThreadPoolLifecycle.isRunning_eq_false,
    List.all_eq_true, List.isEmpty_iff, beq_iff_eq, and_assoc] at hp
  exact ⟨s, hs, hp⟩

/-- So does a thread creation that panics: of a pool that was handed one job and shut down,
a worker is counted that never was, and the job as running in its hands. -/
example : (((machine ℕ).exec (fun _ _ => true) (Pool.ofSize 1)
    [.submit 0 (.panicked "nul byte"), .shutdown]).any fun s =>
      s.state.liveWorkers == 1 && s.state.runningTasks == 1 && s.heldJobs.isEmpty &&
        s.ledger.accepted.isEmpty && !s.state.isTerminated) = true := by
  decide

end ThreadPool

end QubitConcurrent
