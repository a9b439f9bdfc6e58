import QubitConcurrent.ThreadPool.Decomposition

/-!
# The accounting of the pool

The counters behind the monitor, in runs whose callbacks return and whose thread
creations the pool can account for. What `QubitConcurrent.ThreadPool.Wf` only
bounds is then exact: `running_tasks` is the number of workers that hold a job
(`QubitConcurrent.ThreadPool.Counted`). And the three counters that only ever
grow – submitted, completed, cancelled – are the lengths of what the run has
done, so that every accepted job is counted in exactly one of the other four
(`QubitConcurrent.ThreadPool.Balanced`).
-/

namespace QubitConcurrent

namespace ThreadPool

variable {Job : Type} {m : Mode} {s s' : Pool Job}

/-- The steps in which run callbacks return, no thread creation panics and prestarted
threads are created. -/
def Action.calm : Action Job → Bool
  | .runUnwinds _ | .submit _ (.panicked _) => false
  | .prestartCoreThread spawned | .prestartAllNext _ spawned => (spawned matches .ok)
  | _ => true

/-- A calm step has no defect of the accounting in it. -/
theorem Action.not_isFaulty_of_calm {a : Action Job} (h : a.calm = true) : ¬a.isFaulty s := by
  revert h
  cases a with
  | submit job spawned => cases spawned <;> simp [calm, isFaulty]
  | prestartCoreThread spawned => cases spawned <;> simp [calm, isFaulty]
  | prestartAllNext k spawned => cases spawned <;> simp [calm, isFaulty]
  | _ => simp [calm, isFaulty]

/-- Everything is permitted but a defect of the accounting. -/
def Mode.sound : Mode := { Mode.any with faulty := False }

/-- A step without a defect of the accounting is permitted. -/
theorem Permitted.sound {a : Action Job} (h : ¬a.isFaulty s) : Permitted Mode.sound s a :=
  ⟨h, fun _ => trivial, fun _ => trivial, fun _ => trivial⟩

/-! ### The jobs in the hands of workers -/

/-- **The running jobs are counted**, and every worker is alive or has left. -/
structure Counted (s : Pool Job) : Prop where
  /-- The workers that hold a job are counted. -/
  running : s.state.runningTasks = s.countWorkers WorkerPhase.isBusy
  /-- No worker has left its loop by unwinding, and none was registered without a
  thread. -/
  alive : ∀ w ∈ s.workers, w.phase ≠ .unwound ∧ w.phase ≠ .unborn

namespace Counted

/-- Nothing a worker is counted by has changed. -/
theorem of_eq (h : Counted s) {t : Pool Job} (hworkers : t.workers = s.workers)
    (hrunning : t.state.runningTasks = s.state.runningTasks) : Counted t where
  running := by rw [hrunning, h.running, Pool.countWorkers, Pool.countWorkers, hworkers]
  alive := by rw [hworkers]; exact h.alive

/-- A worker moves on, and the counter follows. -/
theorem of_move (h : Counted s) {t : Pool Job} {l₁ l₂ : List (Worker Job)} {w : Worker Job}
    {p : WorkerPhase Job} (hw : s.workers = l₁ ++ w :: l₂)
    (ht : t.workers = l₁ ++ { w with phase := p } :: l₂)
    (hp : p ≠ .unwound ∧ p ≠ .unborn)
    (hrunning : t.state.runningTasks + w.phase.isBusy.toNat =
      s.state.runningTasks + p.isBusy.toNat) : Counted t where
  running := by
    have hcount := Pool.countWorkers_move WorkerPhase.isBusy hw ht
    have hbefore := h.running
    omega
  alive := by
    intro v hv
    rw [ht] at hv
    rcases List.mem_append.mp hv with hv | hv
    · exact h.alive v (by rw [hw]; exact List.mem_append_left _ hv)
    · rcases List.mem_cons.mp hv with rfl | hv
      · exact hp
      · exact h.alive v (by rw [hw]; exact List.mem_append_right _ (List.mem_cons_of_mem _ hv))

/-- A worker thread was created. -/
theorem spawned (h : Counted s) (firstTask : Option Job) : Counted (s.spawned firstTask) where
  running := by
    cases firstTask <;>
      simpa [Pool.spawned, Pool.countWorkers, WorkerPhase.isBusy] using h.running
  alive := by
    intro w hw
    simp only [Pool.spawned, List.mem_append, List.mem_singleton] at hw
    rcases hw with hw | rfl
    · exact h.alive w hw
    · cases firstTask <;> simp

/-- Waking everybody up moves no job. -/
theorem wakeAll (h : Counted s) : Counted s.wakeAll where
  running := by simpa [Pool.countWorkers, Function.comp_def] using h.running
  alive := by
    intro v hv
    obtain ⟨w, hw, rfl⟩ := List.mem_map.mp hv
    have halive := h.alive w hw
    rw [Worker.wake_phase]
    revert halive
    cases w.phase with
    | waiting timeout wake => cases wake <;> simp [WorkerPhase.wake]
    | _ => simp [WorkerPhase.wake]

/-- **Effects keep the running jobs counted**, but for the defects. -/
theorem effect (hm : ¬m.faulty) (h : Counted s) (he : Effect m s s') : Counted s' := by
  cases he with
  | spawnIdle => exact h.spawned none
  | spawnFor job => exact (h.spawned (some job)).of_eq rfl rfl
  | wakeAll => exact h.wakeAll
  | wakeWorker l₁ l₂ w hw timeout status hp =>
    exact h.of_move hw rfl (by simp) (by rw [hp]; rfl)
  | claimGlobal l₁ l₂ w hw hp => exact h.of_move hw rfl (by simp) (by rw [hp]; rfl)
  | claimLocal l₁ l₂ w hw hp => exact h.of_move hw rfl (by simp) (by rw [hp]; rfl)
  | park l₁ l₂ w hw hp => exact h.of_move hw rfl (by simp) (by rw [hp]; rfl)
  | unpark l₁ l₂ w hw timeout status hp => exact h.of_move hw rfl (by simp) (by rw [hp]; rfl)
  | exit _ l₁ l₂ w hw hp =>
    refine Pool.notifyTerminated_of (I := Counted) (fun _ => wakeAll) ?_
    exact h.of_move hw rfl (by simp) (by rw [hp]; rfl)
  | invokeRun l₁ l₂ w hw j hp => exact h.of_move hw rfl (by simp) (by rw [hp]; rfl)
  | runReturns l₁ l₂ w hw j hp => exact h.of_move hw rfl (by simp) (by rw [hp]; rfl)
  | finish l₁ l₂ w hw j hp hpos =>
    refine Pool.notifyTerminated_of (I := Counted) (fun _ => wakeAll) ?_
    refine h.of_move hw rfl (by simp) ?_
    simp only [hp, WorkerPhase.isBusy, Bool.toNat_true, Bool.toNat_false]
    omega
  | unwind l₁ l₂ w hw j hp hfault => exact absurd hfault hm
  | spawnPanics firstTask hfault => exact absurd hfault hm
  | finishPanics l₁ l₂ w hw j hp hzero =>
    -- the worker that holds the job is counted
    have hpos : 0 < s.countWorkers WorkerPhase.isBusy :=
      List.countP_pos_iff.mpr ⟨w, by rw [hw]; simp, by rw [hp]; rfl⟩
    have hrunning := h.running
    omega
  | dropRunning hfault => exact absurd hfault hm
  | _ => exact h.of_eq rfl rfl

/-- Nothing runs in a pool that was just built. -/
theorem of_build {b : ThreadPoolBuilder} (hb : build b = .ok s) : Counted s := by
  obtain ⟨-, rfl | rfl⟩ := build_eq_ok hb
  · exact ⟨rfl, by simp [Pool.new]⟩
  · exact ⟨rfl, by simp [Pool.new, Pool.addCall]⟩

/-- The running jobs are counted in every run without defects. -/
theorem of_reach [DecidableEq Job] {ok : Pool Job → Action Job → Prop}
    (hok : ∀ s a, ok s a → ¬a.isFaulty s) (hs : (machine Job).ReachVia ok s) : Counted s :=
  reach_invariant (fun s a _ ha => Permitted.sound (hok s a ha)) (fun _ _ => of_build)
    (fun _ _ _ h he => h.effect id he) hs

end Counted

/-! ### The jobs a run has dealt with -/

/-- **Every accepted job is counted once**: as waiting, as running, as completed or
as cancelled. -/
structure Balanced (s : Pool Job) : Prop where
  /-- The accepted jobs are counted. -/
  submitted : s.state.submittedTasks = s.ledger.accepted.length
  /-- The jobs that were run to their end are counted. -/
  completed : s.state.completedTasks = s.ledger.completed.length
  /-- The jobs `shutdown_now` took from the queues are counted. -/
  cancelled : s.state.cancelledTasks = s.drainedJobs.length + s.ledger.cancelReturned.length
  /-- The counts of where accepted jobs are add up. -/
  balance : s.state.submittedTasks =
    s.state.queuedTasks + s.state.runningTasks + s.state.completedTasks + s.state.cancelledTasks

namespace Balanced

/-- No counter moves, and no job is drained or cancelled. -/
theorem of_eq (h : Balanced s) {t : Pool Job}
    (hsubmitted : t.state.submittedTasks = s.state.submittedTasks)
    (hqueued : t.state.queuedTasks = s.state.queuedTasks)
    (hrunning : t.state.runningTasks = s.state.runningTasks)
    (hcompleted : t.state.completedTasks = s.state.completedTasks)
    (hcancelled : t.state.cancelledTasks = s.state.cancelledTasks)
    (haccepted : t.ledger.accepted = s.ledger.accepted)
    (hdone : t.ledger.completed = s.ledger.completed)
    (hdrained : t.drainedJobs.length + t.ledger.cancelReturned.length =
      s.drainedJobs.length + s.ledger.cancelReturned.length) : Balanced t where
  submitted := by rw [hsubmitted, haccepted, h.submitted]
  completed := by rw [hcompleted, hdone, h.completed]
  cancelled := by rw [hcancelled, hdrained, h.cancelled]
  balance := by rw [hsubmitted, hqueued, hrunning, hcompleted, hcancelled, h.balance]

/-- Waking everybody up deals with no job. -/
theorem wakeAll (h : Balanced s) : Balanced s.wakeAll :=
  h.of_eq rfl rfl rfl rfl rfl rfl rfl (by simp [Pool.drainedJobs, List.flatMap_map])

/-- **Effects keep the balance**, but for the defects. -/
theorem effect (hm : ¬m.faulty) (hwf : Wf s) (h : Balanced s) (he : Effect m s s') :
    Balanced s' := by
  have hsubmitted := h.submitted
  have hcompleted := h.completed
  have hcancelled := h.cancelled
  have hbalance := h.balance
  cases he with
  | call c hc =>
    exact h.of_eq rfl rfl rfl rfl rfl rfl rfl
      (by simp [Pool.drainedJobs, Call.drained_of_isQuiet hc])
  | callMoves c₁ c₂ c c' hcalls hc hc' =>
    exact h.of_eq rfl rfl rfl rfl rfl rfl rfl
      (by simp [Pool.drainedJobs, hcalls, Call.drained_of_isQuiet hc, Call.drained_of_isQuiet hc'])
  | configure =>
    exact h.of_eq rfl rfl rfl rfl rfl rfl rfl (by simp [Pool.drainedJobs, Call.drained])
  | setterDone c₁ c₂ hcalls =>
    exact h.of_eq rfl rfl rfl rfl rfl rfl rfl (by simp [Pool.drainedJobs, hcalls, Call.drained])
  | reject job c hc =>
    exact h.of_eq rfl rfl rfl rfl rfl rfl rfl
      (by simp [Pool.drainedJobs, Call.drained_of_isQuiet hc, Ledger.present])
  | rollback =>
    exact h.of_eq rfl rfl rfl rfl rfl rfl rfl
      (by simp [Pool.drainedJobs, Call.drained, Ledger.present])
  | rollbackInvoked c₁ c₂ job error hcalls =>
    exact h.of_eq rfl rfl rfl rfl rfl rfl rfl (by simp [Pool.drainedJobs, hcalls, Call.drained])
  | rollbackReturned c₁ c₂ job error hcalls =>
    exact h.of_eq rfl rfl rfl rfl rfl rfl rfl (by simp [Pool.drainedJobs, hcalls, Call.drained])
  | rollbackUnwound c₁ c₂ job error message hcalls =>
    exact h.of_eq rfl rfl rfl rfl rfl rfl rfl (by simp [Pool.drainedJobs, hcalls, Call.drained])
  | spawnFor job =>
    refine ⟨?_, hcompleted, ?_, ?_⟩
    · simp [Ledger.accept, hsubmitted]
    · simpa [Pool.spawned, Pool.drainedJobs, Ledger.accept, Call.drained] using hcancelled
    · simp only [Pool.spawned, Option.toList_some, List.length_singleton]
      omega
  | enqueueGlobal job c hc =>
    refine ⟨?_, hcompleted, ?_, ?_⟩
    · simp [ThreadPoolState.enqueue, Ledger.accept, hsubmitted]
    · simpa [ThreadPoolState.enqueue, Pool.drainedJobs, Ledger.accept,
        Call.drained_of_enqueued hc] using hcancelled
    · simp only [ThreadPoolState.enqueue]
      omega
  | enqueueLocal job =>
    refine ⟨?_, hcompleted, ?_, ?_⟩
    · simp [ThreadPoolState.enqueue, Ledger.accept, hsubmitted]
    · simpa [ThreadPoolState.enqueue, Pool.drainedJobs, Ledger.accept] using hcancelled
    · simp only [ThreadPoolState.enqueue]
      omega
  | notifyDone c₁ c₂ hcalls =>
    exact h.of_eq rfl rfl rfl rfl rfl rfl rfl (by simp [Pool.drainedJobs, hcalls, Call.drained])
  | wakeCaller c₁ c₂ hcalls =>
    exact h.of_eq rfl rfl rfl rfl rfl rfl rfl (by simp [Pool.drainedJobs, hcalls, Call.drained])
  | wakeAll => exact h.wakeAll
  | claimGlobal l₁ l₂ w hw hp j js hlife hq =>
    have hpos : 0 < s.state.queuedTasks := by
      rw [hwf.queued, Pool.queuedJobs, hq]
      simp
    refine ⟨hsubmitted, hcompleted, hcancelled, ?_⟩
    simp only [ThreadPoolState.claim]
    omega
  | claimLocal l₁ l₂ w hw hp q₁ q₂ v j js hlife hqs =>
    have hpos : 0 < s.state.queuedTasks := by
      rw [hwf.queued, Pool.queuedJobs, hqs]
      simp
    refine ⟨hsubmitted, hcompleted, hcancelled, ?_⟩
    simp only [ThreadPoolState.claim]
    omega
  | exit =>
    refine Pool.notifyTerminated_of (I := Balanced) (fun _ => wakeAll) ?_
    exact ⟨hsubmitted, hcompleted, hcancelled, hbalance⟩
  | finish l₁ l₂ w hw j hp hpos =>
    refine Pool.notifyTerminated_of (I := Balanced) (fun _ => wakeAll) ?_
    refine ⟨hsubmitted, by simp [hcompleted], hcancelled, ?_⟩
    simp only
    omega
  | drain =>
    refine ⟨hsubmitted, hcompleted, ?_, ?_⟩
    · have hqueued := hwf.queued
      simp only [Pool.drain, Pool.drainedJobs, List.flatMap_append, List.flatMap_singleton,
        Call.drained, Option.toList_none, List.nil_append, List.length_append] at hcancelled ⊢
      omega
    · simp only [Pool.drain]
      omega
  | cancelInvoked c₁ c₂ job jobs report hcalls =>
    exact h.of_eq rfl rfl rfl rfl rfl rfl rfl (by simp [Pool.drainedJobs, hcalls, Call.drained])
  | cancelReturned c₁ c₂ job jobs report hcalls =>
    refine h.of_eq rfl rfl rfl rfl rfl rfl rfl ?_
    simp only [Pool.drainedJobs, hcalls, Call.drained, List.flatMap_append, List.flatMap_cons,
      Option.toList_none, Option.toList_some, List.length_append, List.length_nil,
      List.length_singleton]
    omega
  | cancelUnwound c₁ c₂ job jobs report message hcalls =>
    exact h.of_eq rfl rfl rfl rfl rfl rfl rfl (by simp [Pool.drainedJobs, hcalls, Call.drained])
  | shutdownNowReturned c₁ c₂ report hcalls =>
    exact h.of_eq rfl rfl rfl rfl rfl rfl rfl (by simp [Pool.drainedJobs, hcalls, Call.drained])
  | shutdown =>
    exact h.of_eq rfl rfl rfl rfl rfl rfl rfl (by simp [Pool.drainedJobs, Call.drained])
  | parkCaller =>
    exact h.of_eq rfl rfl rfl rfl rfl rfl rfl (by simp [Pool.drainedJobs, Call.drained])
  | reparkCaller c₁ c₂ hcalls =>
    exact h.of_eq rfl rfl rfl rfl rfl rfl rfl (by simp [Pool.drainedJobs, hcalls, Call.drained])
  | callerReturns c₁ c₂ hcalls =>
    exact h.of_eq rfl rfl rfl rfl rfl rfl rfl (by simp [Pool.drainedJobs, hcalls, Call.drained])
  | dropRunning hfault => exact absurd hfault hm
  | spawnPanics firstTask hfault => exact absurd hfault hm
  | _ =>
    -- the rest touches neither the counters nor the calls
    exact ⟨hsubmitted, hcompleted, hcancelled, hbalance⟩

/-- The balance of a pool that was just built is zero. -/
theorem of_build {b : ThreadPoolBuilder} (hb : build b = .ok s) : Balanced s := by
  obtain ⟨-, rfl | rfl⟩ := build_eq_ok hb
  · exact ⟨rfl, rfl, rfl, rfl⟩
  · exact ⟨rfl, rfl, rfl, rfl⟩

end Balanced

/-! ### The accounting invariant -/

section Accounting

variable [DecidableEq Job]

/-- **The accounting invariant of the pool.** In every run whose run callbacks return,
in which no thread creation panics and whose prestarted threads are created, the
counters count what they are named after: the jobs in the queues; the workers that
hold a job; the registered queues, which are those of the workers that have not
unregistered, under distinct indices; and the workers inside a wait. The accepted
jobs are waiting, running, completed or cancelled. -/
theorem accounting_invariant (hs : (machine Job).ReachVia (fun _ a => a.calm = true) s) :
    s.state.queuedTasks =
        s.state.queue.length + (s.workerQueues.map fun q => q.jobs.length).sum ∧
      s.state.runningTasks = s.countWorkers WorkerPhase.isBusy ∧
      s.state.liveWorkers = s.workerQueues.length ∧
      (s.workerQueues.map WorkerQueue.workerIndex).Nodup ∧
      s.state.liveWorkers = s.countWorkers WorkerPhase.isLive ∧
      s.state.idleWorkers = s.countWorkers WorkerPhase.isWaiting ∧
      s.state.submittedTasks = s.ledger.accepted.length ∧
      s.state.completedTasks = s.ledger.completed.length ∧
      s.state.submittedTasks = s.state.queuedTasks + s.state.runningTasks +
        s.state.completedTasks + s.state.cancelledTasks := by
  have hwf : Wf s := wf_of_reach hs
  have hcounted : Counted s := Counted.of_reach (fun _ _ => Action.not_isFaulty_of_calm) hs
  have hbalanced : Balanced s := reach_invariant
    (fun s a _ ha => Permitted.sound (Action.not_isFaulty_of_calm ha))
    (fun _ _ => Balanced.of_build) (fun _ _ hwf h he => h.effect id hwf he) hs
  have hqueues : s.state.liveWorkers = s.workerQueues.length := by
    rw [hwf.live, Pool.countWorkers, List.countP_eq_length_filter, ← List.length_map Worker.index,
      ← hwf.registered, List.length_map]
  refine ⟨?_, hcounted.running, hqueues, hwf.nodup, hwf.live, hwf.idle, hbalanced.submitted,
    hbalanced.completed, hbalanced.balance⟩
  rw [hwf.queued, Pool.queuedJobs, List.length_append, List.length_flatMap]

end Accounting

/-- The accounting of a pool of one worker that runs a job while another waits. -/
theorem accounting_invariant_one_waits :
    ∃ s : Pool ℕ, s.state.queue.length + (s.workerQueues.map fun q => q.jobs.length).sum = 1 ∧
      s.countWorkers WorkerPhase.isBusy = 1 ∧ s.workerQueues.length = 1 := by
  obtain ⟨s, hs, hp⟩ := Machine.exists_reachVia_of_exec (fun _ a => a.calm = true)
    (fun _ a => a.calm) (fun _ _ h => h) (machine_init_ofSize ℕ 0)
    [.submit 0 .ok, .invokeRun 0, .submit 1 .ok]
    (fun s => s.state.queuedTasks == 1 && s.state.runningTasks == 1 && s.state.liveWorkers == 1)
    (by decide)
  simp only [Bool.and_eq_true, beq_iff_eq] at hp
  obtain ⟨hqueued, hrunning, hlive, -⟩ := accounting_invariant hs
  exact ⟨s, by omega, by omega, by omega⟩

end ThreadPool

end QubitConcurrent
