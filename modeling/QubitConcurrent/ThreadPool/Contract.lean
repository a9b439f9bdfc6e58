import QubitConcurrent.Lib.Contract
import QubitConcurrent.ThreadPool.Jobs

/-!
# What a thread pool promises

For its users a pool is a door and a number of jobs that stand in one of five ways
(`QubitConcurrent.Contract`). Here is how a job stands with the pool, read off what has happened to
it, and the proof that the pool keeps the promise (`QubitConcurrent.ThreadPool.keeps_contract`):
among all that a step of the pool does, taking a job on, starting it, ending it, cancelling it and
closing the door happen only where they may.

`is_terminated` belongs to the promise as well: where it holds nothing is left to do, but for the
jobs a `shutdown_now` has taken out of the queues and not cancelled yet
(`QubitConcurrent.ThreadPool.settled_of_isTerminated`).
-/

namespace QubitConcurrent

namespace ThreadPool

variable {Job : Type} [DecidableEq Job] {m : Mode} {s s' : Pool Job}

/-- How a job stands with the pool. No job has both its callbacks called, so that it does not
matter which of them is asked about first (`QubitConcurrent.ThreadPool.count_calls_le`). -/
def Pool.standing (s : Pool Job) (j : Job) : Standing :=
  if j ∉ s.ledger.accepted then .unknown
  else if j ∈ s.ledger.cancelInvoked then .cancelled
  else if j ∈ s.ledger.runReturned ∨ j ∈ s.ledger.runUnwound then .over
  else if j ∈ s.ledger.runInvoked then .running
  else .waiting

/-- The pool, as its users see it. -/
def Pool.contract (s : Pool Job) : Contract Job := ⟨s.state.lifecycle.isRunning, s.standing⟩

/-! ### How jobs stand -/

/-- Nothing happens that concerns the promise. -/
theorem Pool.contract_congr {t : Pool Job} (hlife : t.state.lifecycle = s.state.lifecycle)
    (hstanding : t.standing = s.standing) : t.contract = s.contract := by
  rw [contract, contract, hlife, hstanding]

/-- **What is known of the jobs of a pool.** -/
structure Pool.Traced (s : Pool Job) : Prop where
  /-- Where they are. -/
  placed : Placed s
  /-- What became of their run callbacks. -/
  runs : RunsCounted s
  /-- What became of their cancel callbacks. -/
  cancels : CancelsCounted s

namespace Pool.Traced

/-- Every run keeps track of its jobs. -/
theorem of_reach {ok : Pool Job → Action Job → Prop} (hs : (machine Job).ReachVia ok s) :
    s.Traced :=
  ⟨placed_of_reach hs, runsCounted_of_reach hs, cancelsCounted_of_reach hs⟩

/-- Effects keep track of the jobs. -/
theorem effect (h : s.Traced) (he : Effect m s s') : s'.Traced :=
  ⟨h.placed.effect he, h.runs.effect he, h.cancels.effect he⟩

/-- A job has been accepted once, and is in as many places; its callbacks are accounted for. -/
theorem counts (h : s.Traced) (j : Job) :
    s.ledger.accepted.count j ≤ 1 ∧
      s.heldJobs.count j + s.drainedJobs.count j + s.ledger.completed.count j +
        s.ledger.runUnwound.count j + s.ledger.abandoned.count j +
        s.ledger.cancelReturned.count j ≤ s.ledger.accepted.count j ∧
      s.ledger.runInvoked.count j = s.startedJobs.count j + s.ledger.completed.count j +
        s.ledger.runUnwound.count j + s.ledger.abandoned.count j ∧
      s.ledger.runReturned.count j = s.backJobs.count j + s.ledger.completed.count j +
        s.ledger.abandoned.count j ∧
      s.ledger.cancelInvoked.count j =
        s.cancellingJobs.count j + s.ledger.cancelReturned.count j := by
  have hplaces := h.placed.places j
  simp only [Pool.finishedJobs, List.count_append] at hplaces
  exact ⟨h.placed.count_accepted_le j, by omega, h.runs.invoked j, h.runs.returned j,
    h.cancels.invoked j⟩

/-- A job nobody has started or cancelled waits. -/
theorem standing_waiting {j : Job} (haccepted : j ∈ s.ledger.accepted)
    (hcancel : s.ledger.cancelInvoked.count j = 0) (hreturned : s.ledger.runReturned.count j = 0)
    (hunwound : s.ledger.runUnwound.count j = 0) (hinvoked : s.ledger.runInvoked.count j = 0) :
    s.standing j = .waiting := by
  rw [List.count_eq_zero] at hcancel hreturned hunwound hinvoked
  simp [Pool.standing, haccepted, hcancel, hreturned, hunwound, hinvoked]

/-- A job that was started and is not over runs. -/
theorem standing_running {j : Job} (haccepted : j ∈ s.ledger.accepted)
    (hcancel : s.ledger.cancelInvoked.count j = 0) (hreturned : s.ledger.runReturned.count j = 0)
    (hunwound : s.ledger.runUnwound.count j = 0) (hinvoked : 0 < s.ledger.runInvoked.count j) :
    s.standing j = .running := by
  rw [List.count_eq_zero] at hcancel hreturned hunwound
  rw [List.count_pos_iff] at hinvoked
  simp [Pool.standing, haccepted, hcancel, hreturned, hunwound, hinvoked]

/-- A job in the hands of a worker, and what of it has been done. -/
theorem of_held (h : s.Traced) {l₁ l₂ : List (Worker Job)} {w : Worker Job}
    (hw : s.workers = l₁ ++ w :: l₂) {j : Job} (hheld : w.phase.held = [j]) :
    j ∈ s.ledger.accepted ∧ s.ledger.cancelInvoked.count j = 0 ∧
      s.ledger.runUnwound.count j = 0 ∧
      s.ledger.runInvoked.count j = w.phase.started.count j ∧
      s.ledger.runReturned.count j = w.phase.back.count j := by
  obtain ⟨hone, hplaces, hinvoked, hreturned, hcancel⟩ := h.counts j
  have hcancelling := s.count_cancellingJobs_le j
  -- nobody else holds it
  have hothers : s.heldJobs.count j = (l₁.flatMap fun w => w.phase.held).count j + 1 +
      (l₂.flatMap fun w => w.phase.held).count j := by
    simp only [Pool.heldJobs, hw, List.flatMap_append, List.flatMap_cons, hheld, List.count_append,
      List.count_cons_self, List.count_nil]
    omega
  have hsub : ∀ (f : WorkerPhase Job → List Job) (l : List (Worker Job)),
      (∀ p : WorkerPhase Job, (f p).count j ≤ p.held.count j) →
      (l.flatMap fun w => f w.phase).count j ≤ (l.flatMap fun w => w.phase.held).count j :=
    fun f l hf => count_flatMap_le fun w _ => hf w.phase
  have hstarted : ∀ p : WorkerPhase Job, p.started.count j ≤ p.held.count j := by
    intro p
    cases p <;> simp [WorkerPhase.started, WorkerPhase.held]
  have hback : ∀ p : WorkerPhase Job, p.back.count j ≤ p.held.count j := by
    intro p
    cases p <;> simp [WorkerPhase.back, WorkerPhase.held]
  have hstarted₁ := hsub WorkerPhase.started l₁ hstarted
  have hstarted₂ := hsub WorkerPhase.started l₂ hstarted
  have hback₁ := hsub WorkerPhase.back l₁ hback
  have hback₂ := hsub WorkerPhase.back l₂ hback
  simp only [Pool.startedJobs, Pool.backJobs, hw, List.flatMap_append, List.flatMap_cons,
    List.count_append] at hinvoked hreturned
  refine ⟨List.count_pos_iff.mp (by omega), by omega, by omega, by omega, by omega⟩

end Pool.Traced

/-! ### Every effect is one of the promise -/

/-- A job that was never handed over is taken on. -/
theorem Pool.Traced.accepts (h : s.Traced) {t : Pool Job} {job : Job}
    (hnew : job ∉ s.ledger.presented) (hrun : s.state.lifecycle = .running)
    (hlife : t.state.lifecycle = .running) (hledger : t.ledger = s.ledger.accept job) :
    Contract.Goes Contract.Act.Orderly s.contract t.contract := by
  have hunknown : job ∉ s.ledger.accepted := fun hmem => hnew (h.placed.accepted.subset hmem)
  obtain ⟨-, hplaces, hinvoked, hreturned, hcancel⟩ := h.counts job
  have hstarted := s.count_startedJobs_le job
  have hcancelling := s.count_cancellingJobs_le job
  have hback : s.backJobs.count job ≤ s.startedJobs.count job := by
    refine count_flatMap_le fun w _ => ?_
    cases w.phase <;> simp [WorkerPhase.started, WorkerPhase.back]
  rw [List.count_eq_zero.mpr hunknown] at hplaces
  have hbefore : s.standing job = .unknown := by simp [Pool.standing, hunknown]
  have hafter : t.standing job = .waiting := by
    refine standing_waiting ?_ ?_ ?_ ?_ ?_ <;> rw [hledger]
    · simp [Ledger.accept]
    all_goals
      simp only [Ledger.accept]
      omega
  refine Contract.goes_of (.accept job) rfl rfl hbefore hafter (fun _ => ?_) ?_ fun i hne => ?_
  · simp [Pool.contract, hrun, ThreadPoolLifecycle.isRunning]
  · rw [Pool.contract, Pool.contract, hlife, hrun]
  · simp [Pool.contract, Pool.standing, hledger, Ledger.accept, hne]

/-- **Every effect keeps the promise.** -/
theorem Effect.contract (h : s.Traced) (he : Effect m s s') :
    s'.contract = s.contract ∨ Contract.Goes Contract.Act.Orderly s.contract s'.contract := by
  -- a notification of termination concerns nobody's job
  have hnotified : ∀ t : Pool Job, t.notifyTerminated.contract = t.contract := fun t =>
    Pool.notifyTerminated_of (I := fun u => u.contract = t.contract) (fun _ h => h) rfl
  cases he with
  | spawnFor job hnew hrun => exact Or.inr (h.accepts hnew hrun hrun rfl)
  | enqueueGlobal job c hc hnew hrun => exact Or.inr (h.accepts hnew hrun hrun rfl)
  | enqueueLocal job hnew hrun => exact Or.inr (h.accepts hnew hrun hrun rfl)
  | exit => exact Or.inl (hnotified _)
  | finish => exact Or.inl ((hnotified _).trans (Pool.contract_congr rfl rfl))
  | invokeRun l₁ l₂ w hw j hp =>
    obtain ⟨haccepted, hcancel, hunwound, hinvoked, hreturned⟩ :=
      h.of_held hw (j := j) (by rw [hp]; rfl)
    rw [hp] at hinvoked hreturned
    have hwaiting : s.standing j = .waiting :=
      Pool.Traced.standing_waiting haccepted hcancel hreturned hunwound hinvoked
    refine Or.inr (Contract.goes_of (.start j) rfl rfl hwaiting ?_ (by simp) rfl fun i hne => ?_)
    · exact Pool.Traced.standing_running haccepted hcancel hreturned hunwound (by simp)
    · simp [Pool.contract, Pool.standing, hne]
  | runReturns l₁ l₂ w hw j hp | unwind l₁ l₂ w hw j hp =>
    obtain ⟨haccepted, hcancel, hunwound, hinvoked, hreturned⟩ :=
      h.of_held hw (j := j) (by rw [hp]; rfl)
    rw [hp] at hinvoked hreturned
    have hrunning : s.standing j = .running :=
      Pool.Traced.standing_running haccepted hcancel hreturned hunwound
        (by rw [hinvoked]; simp [WorkerPhase.started])
    refine Or.inr (Contract.goes_of (.finish j) rfl rfl hrunning ?_ (by simp) rfl fun i hne => ?_)
    · simp [Pool.contract, Pool.standing, Contract.Act.leads, haccepted,
        List.count_eq_zero.mp hcancel]
    · simp [Pool.contract, Pool.standing, hne]
  | shutdown =>
    by_cases hrun : s.state.lifecycle = .running
    · exact Or.inr (Contract.goes_close rfl (by simp [Pool.contract, hrun,
        ThreadPoolLifecycle.isRunning]) rfl)
    · exact Or.inl (Pool.contract_congr (by simp [hrun]) rfl)
  | drain => exact Or.inr (Contract.goes_close rfl rfl rfl)
  | cancelInvoked c₁ c₂ job jobs report hcalls =>
    obtain ⟨hone, hplaces, hinvoked, hreturned, hcancel⟩ := h.counts job
    have hstarted := s.count_startedJobs_le job
    have hback : s.backJobs.count job ≤ s.startedJobs.count job := by
      refine count_flatMap_le fun w _ => ?_
      cases w.phase <;> simp [WorkerPhase.started, WorkerPhase.back]
    -- no other `shutdown_now` has it
    have hcancelling : s.cancellingJobs.count job + 1 ≤ s.drainedJobs.count job := by
      have hsub : ∀ cs : List (Call Job),
          (cs.flatMap Call.cancelling).count job ≤ (cs.flatMap Call.drained).count job :=
        fun cs => count_flatMap_le fun c _ => c.count_cancelling_le job
      have h₁ := hsub c₁
      have h₂ := hsub c₂
      simp only [Pool.cancellingJobs, Pool.drainedJobs, hcalls, List.flatMap_append,
        List.flatMap_cons, List.count_append, Call.cancelling, Call.drained, Option.toList_none,
        List.nil_append, List.count_cons_self]
      omega
    have haccepted : job ∈ s.ledger.accepted := List.count_pos_iff.mp (by omega)
    have hwaiting : s.standing job = .waiting :=
      Pool.Traced.standing_waiting haccepted (by omega) (by omega) (by omega) (by omega)
    refine Or.inr (Contract.goes_of (.cancel job) rfl rfl hwaiting ?_ (by simp) rfl fun i hne => ?_)
    · simp [Pool.contract, Pool.standing, Contract.Act.leads, haccepted]
    · simp [Pool.contract, Pool.standing, hne]
  | _ => exact Or.inl (Pool.contract_congr rfl rfl)

/-! ### The pool keeps the promise -/

/-- A pool that was just built has done nothing. -/
theorem contract_of_build {b : ThreadPoolBuilder} (hb : build b = .ok s) : s.contract = .new := by
  obtain ⟨-, rfl | rfl⟩ := build_eq_ok hb
  · rfl
  · rfl

/-- **The pool keeps the promise of an executor service.** -/
theorem keeps_contract : Contract.Keeps (machine Job) Contract.Act.Orderly Pool.contract where
  init s := by
    rintro ⟨b, hb⟩
    exact contract_of_build hb
  step s a s' hs hstep := by
    have hall : s'.Traced ∧
        Relation.ReflTransGen (Contract.Goes Contract.Act.Orderly) s.contract s'.contract :=
      Machine.invariant_of_chain
        (I := fun t => t.Traced ∧
          Relation.ReflTransGen (Contract.Goes Contract.Act.Orderly) s.contract t.contract)
        (fun t t' ht he => ⟨ht.1.effect he, (he.contract ht.1).elim (fun heq => heq ▸ ht.2)
          fun hgoes => ht.2.tail hgoes⟩)
        (step_effects (m := Mode.any) (wf_of_reach hs) Permitted.any hstep)
        ⟨.of_reach hs, .refl⟩
    exact hall.2

/-- **In a terminated pool nothing is left to do**, but for what a `shutdown_now` has not cancelled
yet. -/
theorem settled_of_isTerminated (hs : (machine Job).Reach s) (hterm : s.state.isTerminated = true) :
    s.contract.isOpen = false ∧
      ∀ j, s.standing j = .unknown ∨ (s.standing j).isFinal = true ∨ j ∈ s.drainedJobs := by
  have hlife := (ThreadPoolState.isTerminated_iff.mp hterm).1
  refine ⟨by simpa [Pool.contract] using hlife, fun j => ?_⟩
  obtain ⟨hover, hinvoked, hreturned⟩ := count_of_isTerminated hs hterm j
  by_cases hdrained : j ∈ s.drainedJobs
  · exact Or.inr (Or.inr hdrained)
  · rw [List.count_eq_zero.mpr hdrained, Nat.zero_add] at hover
    by_cases haccepted : j ∈ s.ledger.accepted
    · refine Or.inr (Or.inl ?_)
      by_cases hcancel : j ∈ s.ledger.cancelInvoked
      · simp [Pool.standing, haccepted, hcancel, Standing.isFinal]
      · have hpos := List.count_pos_iff.mpr haccepted
        have hnone : s.ledger.cancelReturned.count j = 0 := by
          have hcancels := (cancelsCounted_of_reach hs).invoked j
          rw [List.count_eq_zero.mpr hcancel] at hcancels
          omega
        have hback : j ∈ s.ledger.runReturned := List.count_pos_iff.mp (by omega)
        simp [Pool.standing, haccepted, hcancel, hback, Standing.isFinal]
    · exact Or.inl (by simp [Pool.standing, haccepted])

/-- The observer of a pool knows the jobs that were accepted. -/
def watch : Pool Job → Action Job → Pool Job → List (Contract.Act Job) :=
  Contract.watch Pool.contract fun s => s.ledger.accepted

/-- The jobs that were accepted are those the promise is about. -/
theorem covers_accepted (hs : (machine Job).Reach s) :
    Contract.Covers s.ledger.accepted s.contract := by
  refine ⟨List.nodup_iff_count_le_one.mpr fun j => ?_, fun j hj => ?_⟩
  · exact (Pool.Traced.of_reach hs).placed.count_accepted_le j
  · by_contra hnot
    exact hj (by simp [Pool.contract, Pool.standing, hnot])

/-- **A callback is called once at most**, and not the one and the other: its calls are counted
against the acceptance of the job, and its ends against its calls. -/
theorem count_calls_le (hs : (machine Job).Reach s) (j : Job) :
    s.ledger.runInvoked.count j + s.ledger.cancelInvoked.count j ≤ s.ledger.accepted.count j ∧
      s.ledger.accepted.count j ≤ 1 ∧
      s.ledger.runReturned.count j + s.ledger.runUnwound.count j ≤
        s.ledger.runInvoked.count j := by
  obtain ⟨hone, -, hinvoked, hreturned, -⟩ := (Pool.Traced.of_reach hs).counts j
  have hback : s.backJobs.count j ≤ s.startedJobs.count j := by
    refine count_flatMap_le fun w _ => ?_
    cases w.phase <;> simp [WorkerPhase.started, WorkerPhase.back]
  exact ⟨count_invoked_le hs j, hone, by omega⟩

/-- **What the promise of a pool is worth.** The pool keeps it; and in every run, whatever its
users, its workers and their callbacks do, what an observer writes down is a run of the promise, in
which each job is accepted at most once, started at most once and ended at most once, in this order,
none is both started and cancelled, none is accepted after the shutdown, and none is aborted. So it
is with the callbacks: no job has both called, and none of them twice. After a shutdown no later job
is accepted; and where the pool is terminated and no `shutdown_now`, in progress or left by a panic,
has a job that is not cancelled, nothing is left to do, then or later. -/
theorem meets_contract {t : Pool Job × List (Contract.Act Job)}
    (ht : ((machine Job).observe watch).Reach t) :
    Contract.Keeps (machine Job) Contract.Act.Orderly Pool.contract ∧
      Contract.Records Contract.Act.Orderly t.1.contract t.2 ∧
      (∀ j, t.1.ledger.runInvoked.count j + t.1.ledger.cancelInvoked.count j ≤
          t.1.ledger.accepted.count j ∧
        t.1.ledger.accepted.count j ≤ 1 ∧
        t.1.ledger.runReturned.count j + t.1.ledger.runUnwound.count j ≤
          t.1.ledger.runInvoked.count j) ∧
      (∀ u, (machine Job).Later t.1 u → t.1.state.lifecycle ≠ .running →
        u.state.lifecycle ≠ .running ∧
          ∀ j, u.standing j = .unknown ↔ t.1.standing j = .unknown) ∧
      (t.1.state.isTerminated = true → t.1.drainedJobs = [] →
        t.1.contract.Settled ∧ ∀ u, (machine Job).Later t.1 u → u.contract = t.1.contract) := by
  have hs := Machine.observe_reach ht
  refine ⟨keeps_contract, keeps_contract.records (fun _ => covers_accepted) (fun _ _ => rfl) ht,
    count_calls_le hs, fun u hu hlife => ?_, fun hterm hnone => ?_⟩
  · obtain ⟨hclosed, hsame⟩ :=
      (keeps_contract.closed hs hu).1 (by simpa [Pool.contract] using hlife)
    exact ⟨by simpa [Pool.contract] using hclosed, hsame⟩
  · obtain ⟨hclosed, hjobs⟩ := settled_of_isTerminated hs hterm
    have hsettled : t.1.contract.Settled := by
      refine ⟨hclosed, fun j => (hjobs j).imp_right fun hfinal => hfinal.resolve_right ?_⟩
      rw [hnone]
      exact List.not_mem_nil
    exact ⟨hsettled, fun u hu => (keeps_contract.closed hs hu).2 hsettled⟩

/-- A pool that has run one job and cancelled another is terminated, and nothing is left to do. -/
theorem meets_contract_terminated :
    ∃ t : Pool ℕ × List (Contract.Act ℕ),
      Contract.actsOn 0 t.2 = [.accept 0, .start 0, .finish 0] ∧
        t.1.standing 1 = .cancelled ∧ t.1.contract.Settled := by
  obtain ⟨s, hs, hp⟩ := Machine.exists_reachVia_of_exec (fun _ _ => True) (fun _ _ => true)
    (fun _ _ _ => trivial) (machine_init_ofSize ℕ 0)
    [.submit 0 .ok, .submit 1 .ok, .shutdownNow, .invokeRun 0, .runReturns 0,
      .finishRunningJob 0, .waitForJob 0, .invokeCancel 2, .cancelReturns 2, .shutdownNowReturns 2]
    (fun s => s.state.isTerminated && s.drainedJobs.isEmpty && s.standing 0 == .over &&
      s.standing 1 == .cancelled)
    (by decide)
  simp only [Bool.and_eq_true, beq_iff_eq, List.isEmpty_iff] at hp
  obtain ⟨⟨⟨hterm, hnone⟩, hover⟩, hcancelled⟩ := hp
  obtain ⟨log, hlog⟩ := Machine.exists_observe watch hs
  obtain ⟨-, hrecords, -, -, hsettled⟩ := meets_contract hlog
  have htold : Contract.Told 0 (s.standing 0) (Contract.actsOn 0 log) := hrecords.history.told 0
  rw [hover] at htold
  exact ⟨(s, log), htold, hcancelled, (hsettled hterm hnone).1⟩

end ThreadPool

end QubitConcurrent
