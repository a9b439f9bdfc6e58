import QubitConcurrent.Lib.History
import QubitConcurrent.ThreadPool.Order

/-!
# A rejected submission leaves no trace

`submit` writes to the counters and to a queue before it knows whether the worker that is to
serve the job can be created, and takes all of it back if not: it removes the *last* job of the
global queue. That this is the job it has put there depends on where it has put it. A worker is
created for a queued job only where there is none, and then no local queue is registered.

What was taken back wrongly would be a count of a running job, since `spawn_worker_locked` takes
one back whether or not it has made one (`QubitConcurrent.ThreadPool.ThreadPoolState.spawnFailed`).
But without a worker nothing runs.
-/

namespace QubitConcurrent

namespace ThreadPool

variable {Job : Type} {m : Mode} {s s' : Pool Job}

/-! ### What becomes of a rejected job -/

/-- The job was handed to a `submit` that has not accepted it. -/
def Pool.Declined (job : Job) (s : Pool Job) : Prop :=
  job ∈ s.ledger.presented ∧ job ∉ s.ledger.accepted

/-- Nobody hands a job over again, so what was declined stays declined. -/
theorem Effect.declined {job : Job} (he : Effect m s s') (h : s.Declined job) :
    s'.Declined job := by
  obtain ⟨hpresented, hnot⟩ := h
  have haccept : ∀ other : Job, other ∉ s.ledger.presented →
      job ∈ (s.ledger.accept other).presented ∧ job ∉ (s.ledger.accept other).accepted := by
    intro other hnew
    refine ⟨List.mem_append_left _ hpresented, fun hmem => ?_⟩
    rcases List.mem_append.mp hmem with hold | hlast
    · exact hnot hold
    · exact hnew (List.mem_singleton.mp hlast ▸ hpresented)
  cases he with
  | reject | rollback => exact ⟨List.mem_append_left _ hpresented, hnot⟩
  | spawnFor other hnew | enqueueGlobal other c hc hnew | enqueueLocal other hnew =>
    exact haccept other hnew
  | exit | finish =>
    exact Pool.notifyTerminated_of (I := Pool.Declined job) (fun _ h => h) ⟨hpresented, hnot⟩
  | _ => exact ⟨hpresented, hnot⟩

section Jobs

variable [DecidableEq Job]

/-- A declined job stays so in all later states. -/
theorem declined_of_later {job : Job} (hs : (machine Job).Reach s) (h : s.Declined job)
    (hlater : (machine Job).Later s s') : s'.Declined job := by
  refine hlater.invariant hs (fun t a t' ht hdeclined hstep => ?_) h
  exact Machine.invariant_of_chain (fun _ _ hdeclined he => he.declined hdeclined)
    (step_effects (wf_of_reach ht) Permitted.any hstep) hdeclined

/-- **A declined job is nowhere**: in no queue, and its run callback was not invoked. -/
theorem Pool.Declined.nowhere {job : Job} (h : s.Declined job) (hs : (machine Job).Reach s) :
    job ∉ s.queuedJobs ∧ job ∉ s.ledger.runInvoked := by
  have hnone : s.ledger.accepted.count job = 0 := List.count_eq_zero.mpr h.2
  have hplaces := (placed_of_reach hs).places job
  have hinvoked := count_invoked_le hs job
  constructor
  · rw [← List.count_eq_zero]
    omega
  · rw [← List.count_eq_zero]
    omega

/-! ### Rejections -/

omit [DecidableEq Job] in
/-- Whoever rejects a job keeps no trace of it, but that an index may be used up. -/
theorem Submitted.of_rejection {job : Job} {c : Call Job} {error : RejectedExecution}
    (h : Submitted s job c s') (hc : c.rejection? = some error) :
    (s' = s ∨ s' = s.indexSkipped) ∧ ∀ counted, c.accepts counted = false := by
  cases h with
  | refused => exact ⟨Or.inl rfl, fun _ => rfl⟩
  | notSpawned | takenBack => exact ⟨Or.inr rfl, fun _ => rfl⟩
  | lost | leftBehind | handed => cases hc
  | queuedFirst | queuedGlobal | queuedLocal =>
    rw [Call.rejection?_enqueueCall] at hc
    cases hc

/-- **A rejected submission leaves no trace.** In every reachable pool, `submit` returns `Shutdown`
exactly if the pool does not run, and `Saturated` exactly if it runs, its core is complete, its
bounded queue is full, and it has as many workers as it may have. Where `submit` returns an error –
also that a worker could not be created – the queues are as they were, and so are all counters but
the index of the next worker; the job is in no queue, now and later, and its run callback is never
invoked. -/
theorem rejected_leaves_no_trace (hs : (machine Job).Reach s) {job : Job}
    {spawned : SpawnOutcome} (hstep : step s (.submit job spawned) = some s') :
    ∃ c, s'.calls = s.calls ++ [c] ∧
      (c.rejection? = some .shutdown ↔ s.state.lifecycle ≠ .running) ∧
      (c.rejection? = some .saturated ↔
        s.state.lifecycle = .running ∧ s.state.corePoolSize ≤ s.state.liveWorkers ∧
          (∃ capacity, s.state.queueCapacity = some capacity ∧ capacity ≤ s.queuedJobs.length) ∧
          s.state.maximumPoolSize ≤ s.state.liveWorkers) ∧
      ∀ error, c.rejection? = some error →
        (s'.state.queue = s.state.queue ∧ s'.workerQueues = s.workerQueues) ∧
        (∃ n, s'.state = { s.state with nextWorkerIndex := n }) ∧
        s'.nextEnqueueWorker = s.nextEnqueueWorker ∧ s'.workers = s.workers ∧
        ∀ u, (machine Job).Later s' u → job ∉ u.queuedJobs ∧ job ∉ u.ledger.runInvoked := by
  have hwf := wf_of_reach hs
  have hmachine : (machine Job).step s (.submit job spawned) = some s' := hstep
  have hreach : (machine Job).Reach s' := .next hs trivial hmachine
  have hcaller : callerStep s (.submit job spawned) = some s' := hstep
  rw [callerStep] at hcaller
  split_ifs at hcaller with hnew
  obtain ⟨c, t, hrun, hsubmitted, hanswer, -⟩ := submit_answers hwf job spawned
  rw [hrun] at hcaller
  obtain rfl := Option.some.inj hcaller
  have hfull : s.state.IsFull ↔ s.state.corePoolSize ≤ s.state.liveWorkers ∧
      (∃ capacity, s.state.queueCapacity = some capacity ∧ capacity ≤ s.queuedJobs.length) ∧
      s.state.maximumPoolSize ≤ s.state.liveWorkers := by
    rw [ThreadPoolState.IsFull, ThreadPoolState.isSaturated, Option.any_eq_true, ← hwf.queued]
    simp only [ge_iff_le, decide_eq_true_eq]
  have hcalls : t.calls = s.calls := by cases hsubmitted <;> rfl
  refine ⟨c, by rw [← hcalls]; rfl, ?_, ?_, fun error hc => ?_⟩
  · generalize c.rejection? = r at hanswer
    cases hanswer with
    | shutdown h => exact iff_of_true rfl h
    | saturated h | workerSpawnFailed _ h | not h => exact iff_of_false (by simp) (not_not_intro h)
  · rw [← hfull]
    generalize c.rejection? = r at hanswer
    cases hanswer with
    | shutdown h => exact iff_of_false (by simp) fun hsat => h hsat.1
    | saturated h hfull => exact iff_of_true rfl ⟨h, hfull⟩
    | workerSpawnFailed _ _ hroom | not _ hroom =>
      exact iff_of_false (by simp) fun hsat => hroom hsat.2
  · obtain ⟨ht, haccepts⟩ := hsubmitted.of_rejection hc
    have hkept : t.ledger = s.ledger ∧ t.state.queue = s.state.queue ∧
        t.workerQueues = s.workerQueues ∧ t.nextEnqueueWorker = s.nextEnqueueWorker ∧
        t.workers = s.workers ∧ ∃ n, t.state = { s.state with nextWorkerIndex := n } := by
      rcases ht with rfl | rfl
      · exact ⟨rfl, rfl, rfl, rfl, rfl, _, rfl⟩
      · exact ⟨rfl, rfl, rfl, rfl, rfl, _, rfl⟩
    obtain ⟨hledger, hqueue, hqueues, hcursor, hworkers, hstate⟩ := hkept
    have hdeclined : (s.recordSubmit job c t).Declined job := by
      have hnot : job ∉ s.ledger.accepted :=
        fun hmem => hnew ((placed_of_reach hs).accepted.subset hmem)
      refine ⟨List.mem_append_right _ (List.mem_singleton_self job), ?_⟩
      simpa [Pool.recordSubmit, Pool.record, Ledger.recordSubmit, haccepts, Pool.addCall, hledger]
        using hnot
    exact ⟨⟨hqueue, hqueues⟩, hstate, hcursor, hworkers, fun u hu =>
      (declined_of_later hreach hdeclined hu).nowhere (hu.reach hreach)⟩

end Jobs

/-- A pool without core workers queues a job, cannot create the worker to serve it, and takes the
job back. -/
theorem rejected_leaves_no_trace_taken_back :
    ∃ s s' : Pool ℕ, step s (.submit 0 (.error ⟨.wouldBlock, "no thread"⟩)) = some s' ∧
      s'.state.queue = s.state.queue ∧
      ∀ u, (machine ℕ).Later s' u → 0 ∉ u.queuedJobs ∧ 0 ∉ u.ledger.runInvoked := by
  obtain ⟨s, hs, hp⟩ := Machine.exists_reachVia_of_exec (fun _ _ => True) (fun _ _ => true)
    (fun _ _ _ => trivial) (machine_init_ofSize ℕ 0) [.setCorePoolSize 0]
    (fun s => (step s (.submit 0 (.error ⟨.wouldBlock, "no thread"⟩))).any fun s' =>
      s'.calls.getLast?.any fun c => c.rejection?.isSome) (by decide)
  obtain ⟨s', hstep, hlast⟩ := (Option.any_eq_true _ _).mp hp
  obtain ⟨c, hcalls, -, -, htrace⟩ := rejected_leaves_no_trace hs hstep
  rw [hcalls, List.getLast?_concat, Option.any_some] at hlast
  obtain ⟨error, herror⟩ := Option.isSome_iff_exists.mp hlast
  obtain ⟨⟨hqueue, -⟩, -, -, -, hnever⟩ := htrace error herror
  exact ⟨s, s', hstep, hqueue, hnever⟩

end ThreadPool

end QubitConcurrent
