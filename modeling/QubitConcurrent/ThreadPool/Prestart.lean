import QubitConcurrent.Lib.History
import QubitConcurrent.ThreadPool.Decomposition

/-!
# What a build that fails leaves behind

With `prestart_core_threads`, `ThreadPoolBuilder::build` creates the core workers one after the
other, and nobody else has the pool yet: there is the builder, and there are the workers it has
created so far (`QubitConcurrent.ThreadPool.buildMachine`). If one of them cannot be created,
`build` returns the error – or is left by a panic, and then returns nothing. The pool itself is not
shut down – that is done where a `ThreadPool` is dropped, and none was made – and the workers that
are there have shares in it.

Workers leave a running pool only where there are more of them than there should be, or where
core workers may retire too (`QubitConcurrent.ThreadPool.Building`). So those left behind are there
for good, unless they may retire; and then they are there until they do.
-/

namespace QubitConcurrent

namespace ThreadPool

variable {Job : Type} {b : ThreadPoolBuilder} {s s' : Pool Job}

/-! ### The builder and the workers -/

/-- The actions that do not need a `ThreadPool`: those of the builder, and those of workers. -/
def Action.isBuilding : Action Job → Bool
  | .prestartAllNext k _ => decide (k = 0)
  | a => a.worker?.isSome

/-- What `build` returns, where this has come of its call of `prestart_all_core_threads`. -/
def Call.buildError? : Call Job → Option ThreadPoolBuildError
  | returned (.prestartAllCoreThreads (.error error)) => some (.fromRejectedExecution error)
  | _ => none

/-- What `build` returns, where prestarting has failed. -/
def Pool.buildError? (s : Pool Job) : Option ThreadPoolBuildError :=
  s.calls[0]?.bind Call.buildError?

/-- **What a pool is like while it is built**, and after that has failed. -/
structure Building (b : ThreadPoolBuilder) (s : Pool Job) : Prop where
  /-- The pool is well formed. -/
  wf : Wf s
  /-- Nobody has shut it down. -/
  running : s.state.lifecycle = .running
  /-- Nobody has resized it. -/
  core : s.state.corePoolSize = b.corePoolSize
  /-- Nor said that its core workers may retire. -/
  allow : s.state.allowCoreThreadTimeout = b.allowCoreThreadTimeout
  /-- There are no more workers than it takes. -/
  within : s.state.liveWorkers ≤ s.state.corePoolSize
  /-- There is nothing to do. -/
  nothing : s.queuedJobs = []
  /-- Unless they may retire, the workers are all there. -/
  kept : b.allowCoreThreadTimeout = false → s.state.liveWorkers = s.workers.length

namespace Building

/-- A core worker that may not retire does not. -/
theorem not_canRetire (h : Building b s) (hallow : b.allowCoreThreadTimeout = false) :
    s.state.idleWorkerCanRetire = false := by
  have hmax := h.wf.sizes.core_le
  have hwithin := h.within
  have hlive : ¬s.state.maximumPoolSize < s.state.liveWorkers := by omega
  have hcore : ¬s.state.corePoolSize < s.state.liveWorkers := by omega
  simp [ThreadPoolState.idleWorkerCanRetire, ThreadPoolState.workerWaitIsTimed, h.allow, hallow,
    hlive, hcore]

/-- Whatever leaves the state behind the monitor, the queues and the number of threads as they are
is nothing to a pool that is being built. -/
theorem of_eq (h : Building b s) (hwf : Wf s') (hstate : s'.state = s.state)
    (hqueues : s'.workerQueues = s.workerQueues) (hworkers : s'.workers.length = s.workers.length) :
    Building b s' where
  wf := hwf
  running := by rw [hstate, h.running]
  core := by rw [hstate, h.core]
  allow := by rw [hstate, h.allow]
  within := by rw [hstate]; exact h.within
  nothing := by rw [Pool.queuedJobs, hstate, hqueues]; exact h.nothing
  kept := by rw [hstate, hworkers]; exact h.kept

/-- A new core worker. -/
theorem spawned (h : Building b s) {calls : List (Call Job)}
    (hwf : Wf { s.spawned none with calls := calls })
    (hcore : s.state.liveWorkers < s.state.corePoolSize) :
    Building b { s.spawned none with calls := calls } where
  wf := hwf
  running := h.running
  core := h.core
  allow := h.allow
  within := hcore
  nothing := by simpa [Pool.spawned, Pool.queuedJobs] using h.nothing
  kept := by
    intro hallow
    simp [Pool.spawned, h.kept hallow]

/-- A core worker that was registered, and its thread never created. -/
theorem stillborn (h : Building b s) {calls : List (Call Job)}
    (hwf : Wf { s.stillborn none with calls := calls })
    (hcore : s.state.liveWorkers < s.state.corePoolSize) :
    Building b { s.stillborn none with calls := calls } where
  wf := hwf
  running := h.running
  core := h.core
  allow := h.allow
  within := hcore
  nothing := by simpa [Pool.stillborn, Pool.spawned, Pool.queuedJobs] using h.nothing
  kept := by
    intro hallow
    simp [Pool.stillborn, Pool.spawned, h.kept hallow]

/-- A round of `wait_for_job`, in which there is nothing to be found. -/
theorem waited (h : Building b s) {u t : Pool Job} (hu : u = s ∨ u = s.unparked) {i k : ℕ}
    {o : WaitOutcome Job} (hw : Waited u i o t) (hwf : Wf (t.settleWait k o)) :
    Building b (t.settleWait k o) ∧ (t.settleWait k o).workers.length = s.workers.length := by
  have hsame : u.queuedJobs = s.queuedJobs ∧ u.state.lifecycle = s.state.lifecycle ∧
      u.state.corePoolSize = s.state.corePoolSize ∧
      u.state.allowCoreThreadTimeout = s.state.allowCoreThreadTimeout ∧
      u.state.liveWorkers = s.state.liveWorkers ∧ u.workers = s.workers ∧
      u.state.idleWorkerCanRetire = s.state.idleWorkerCanRetire := by
    rcases hu with rfl | rfl <;> exact ⟨rfl, rfl, rfl, rfl, rfl, rfl, rfl⟩
  obtain ⟨hjobs, hlife, hcore, hallow, hlive, hworkers, hretire⟩ := hsame
  have hnil : u.queuedJobs = [] := hjobs.trans h.nothing
  have hrun : u.state.lifecycle = .running := hlife.trans h.running
  cases hw with
  | takeGlobal c j js _ hq =>
    rw [Pool.queuedJobs, hq] at hnil
    cases hnil
  | takeLocal c v j js l₁ l₂ _ hqs =>
    rw [Pool.queuedJobs, hqs] at hnil
    simp at hnil
  | park c =>
    have hlength : (u.workers.modify k fun w =>
        { w with phase := .waiting u.state.waitTimeout none }).length = s.workers.length := by
      rw [List.length_modify, hworkers]
    exact ⟨⟨hwf, hrun, hcore.trans h.core, hallow.trans h.allow, hlive ▸ hcore ▸ h.within, hnil,
      fun hno => hlive.trans ((h.kept hno).trans hlength.symm)⟩, hlength⟩
  | exit c l₁ l₂ _ hwhy hqs =>
    -- the pool runs, so a worker leaves only because it may retire
    have hmay : s.state.idleWorkerCanRetire = true := by
      rw [← hretire]
      exact hwhy.resolve_left fun hne => hne hrun
    rw [Pool.notifyTerminated_of_running (by exact hrun)] at hwf ⊢
    have hlength : (u.workers.modify k fun w => { w with phase := .exited }).length =
        s.workers.length := by
      rw [List.length_modify, hworkers]
    refine ⟨⟨hwf, hrun, hcore.trans h.core, hallow.trans h.allow, ?_, ?_, fun hno => ?_⟩, hlength⟩
    · have hwithin := h.within
      show u.state.liveWorkers - 1 ≤ u.state.corePoolSize
      omega
    · simpa [Pool.queuedJobs, Pool.unregistered, Pool.settleWait, Pool.setPhase, hqs] using hnil
    · rw [h.not_canRetire hno] at hmay
      cases hmay

section Machine

variable [DecidableEq Job]

/-- **The builder and the workers keep it so**, and only the builder makes workers. -/
theorem step (h : Building b s) {a : Action Job} (ha : a.isBuilding = true)
    (hstep : ThreadPool.step s a = some s') :
    Building b s' ∧ (a.worker?.isSome = true → s'.workers.length = s.workers.length) := by
  have hwf : Wf s' := Machine.invariant_of_chain (fun _ _ hwf he => hwf.effect he)
    (step_effects h.wf Permitted.any hstep) h.wf
  cases step_move h.wf hstep with
  -- nobody has the pool to call these on
  | submit | shutdown | shutdownNow => cases ha
  | configure a hsetter =>
    cases a with
    | setCorePoolSize | setMaximumPoolSize | setKeepAlive | allowCoreThreadTimeout => cases ha
    | _ => cases hsetter
  | prestart a hprestart spawned t hp calls =>
    have hnobody : a.worker? = none := by
      cases a with
      | prestartCoreThread | prestartAllNext => rfl
      | _ => cases hprestart
    refine ⟨?_, fun hsome => absurd hsome (by simp [hnobody])⟩
    cases hp with
    | refused => exact h.of_eq hwf rfl rfl rfl
    | started _ hcore => exact h.spawned hwf hcore
    | notStarted source => exact ⟨hwf, h.running, h.core, h.allow, h.within, h.nothing, h.kept⟩
    | panicked _ _ hcore => exact h.stillborn hwf hcore
  | wait a k w hk hlive u hu o t hw =>
    obtain ⟨hbuilding, hlength⟩ := h.waited hu hw hwf
    exact ⟨hbuilding, fun _ => hlength⟩
  | finish a k j hpos =>
    rw [Pool.notifyTerminated_of_running (by exact h.running)] at hwf ⊢
    have hlength : (s.workers.modify k fun w => { w with phase := .ready }).length =
        s.workers.length := List.length_modify ..
    exact ⟨⟨hwf, h.running, h.core, h.allow, h.within, h.nothing,
      fun hno => (h.kept hno).trans hlength.symm⟩, fun _ => hlength⟩
  | beside a s' hstate hqueues hworkers =>
    exact ⟨h.of_eq hwf hstate hqueues hworkers, fun _ => hworkers⟩

omit [DecidableEq Job] in
/-- A pool that has just been made is one that is built. -/
theorem of_build (hb : build b = .ok s) : Building b s := by
  have hwf := Wf.of_build hb
  obtain ⟨-, rfl | rfl⟩ := build_eq_ok hb
  · exact ⟨hwf, rfl, rfl, rfl, Nat.zero_le _, rfl, fun _ => rfl⟩
  · exact ⟨hwf, rfl, rfl, rfl, Nat.zero_le _, rfl, fun _ => rfl⟩

end Machine

/-- Without a live worker, all of them have left. -/
theorem liveWorkers_eq_zero_iff (h : Building b s) :
    s.state.liveWorkers = 0 ↔
      s.workers = [] ∨ b.allowCoreThreadTimeout = true ∧ ∀ w ∈ s.workers, w.phase = .exited := by
  have hexited : s.state.liveWorkers = 0 ↔ ∀ w ∈ s.workers, w.phase = .exited := by
    rw [h.wf.live, Pool.countWorkers, List.countP_eq_zero]
    refine forall₂_congr fun w _ => ?_
    cases w.phase <;> simp [WorkerPhase.isLive]
  constructor
  · intro hzero
    cases hallow : b.allowCoreThreadTimeout with
    | false => exact Or.inl (List.length_eq_zero_iff.mp ((h.kept hallow).symm.trans hzero))
    | true => exact Or.inr ⟨rfl, hexited.mp hzero⟩
  · rintro (hnil | ⟨-, hall⟩)
    · exact hexited.mpr (by simp [hnil])
    · exact hexited.mpr hall

end Building

/-! ### The build -/

section Machine

variable [DecidableEq Job]

/-- **A pool while it is built**: its builder prestarts the workers, and those that are there do
what workers do. -/
def buildMachine (Job : Type) [DecidableEq Job] (b : ThreadPoolBuilder) :
    Machine (Pool Job) (Action Job) where
  init s := build b = .ok s
  step s a := if a.isBuilding then step s a else none

/-- What the workers make of a pool that nobody else has. -/
def Pool.LeftToWorkers : Pool Job → Pool Job → Prop :=
  Relation.ReflTransGen fun s s' =>
    ∃ a : Action Job, a.worker?.isSome = true ∧ step s a = some s'

/-- A step of the build is a step of the builder or of a worker. -/
theorem buildMachine_step {a : Action Job} (h : (buildMachine Job b).step s a = some s') :
    a.isBuilding = true ∧ step s a = some s' := by
  by_cases ha : a.isBuilding = true
  · exact ⟨ha, (if_pos ha).symm.trans h⟩
  · cases (if_neg ha).symm.trans h

/-- What is built is like this. -/
theorem building_of_reach (hs : (buildMachine Job b).Reach s) : Building b s := by
  refine hs.invariant (fun _ hb => .of_build hb) fun s a s' _ h _ hstep => ?_
  obtain ⟨ha, hstep⟩ := buildMachine_step hstep
  exact (h.step ha hstep).1

/-- What is left to the workers stays like this, and nobody joins them. -/
theorem Building.leftToWorkers (h : Building b s) (hu : s.LeftToWorkers s') :
    Building b s' ∧ s'.workers.length = s.workers.length := by
  induction hu with
  | refl => exact ⟨h, rfl⟩
  | tail _ hlast ih =>
    obtain ⟨a, ha, hstep⟩ := hlast
    have hbuilding : a.isBuilding = true := by
      cases a with
      | prestartAllNext => cases ha
      | _ => exact ha
    obtain ⟨hnext, hlength⟩ := ih.1.step hbuilding hstep
    exact ⟨hnext, (hlength ha).trans ih.2⟩

/-- **How a build fails**: a worker cannot be created, and those that are there stay. -/
theorem Building.fails (h : Building b s) {spawned : SpawnOutcome}
    (hstep : ThreadPool.step s (.prestartAllNext 0 spawned) = some s')
    {error : ThreadPoolBuildError} (herror : s'.buildError? = some error) :
    (∃ source, spawned = .error source ∧
      error = .spawnWorker 0 ⟨source.kind, source.text⟩) ∧
      s'.state = s.state.spawnFailed none ∧ s'.workers = s.workers := by
  cases callerStep_goesOn (a := .prestartAllNext 0 spawned) rfl hstep with
  | prestarted k started spawned hcall =>
    have hlt := (List.getElem?_eq_some_iff.mp hcall).1
    -- where a worker is created, or none is missing, `build` goes on or is done
    by_cases hcore : s.state.liveWorkers < s.state.corePoolSize
    · cases spawned with
      | ok =>
        have hrun := prestartCoreThread_run_ok h.running hcore
        simp [Pool.buildError?, Pool.setCall, critical, prestartAllNext, hrun, Pool.spawned, hlt,
          Call.buildError?] at herror
      | error source =>
        have hrun := prestartCoreThread_run_error h.running hcore source h.wf.notMem
        refine ⟨⟨source, rfl, ?_⟩, ?_⟩
        · simp [Pool.buildError?, Pool.setCall, critical, prestartAllNext, hrun, hlt,
            Call.buildError?, ThreadPoolBuildError.fromRejectedExecution] at herror
          exact herror.symm
        · simp [Pool.setCall, critical, prestartAllNext, hrun]
      | panicked message =>
        have hrun := prestartCoreThread_run_panicked h.running hcore message
        simp [Pool.buildError?, Pool.setCall, critical, prestartAllNext, hrun, Pool.stillborn,
          Pool.spawned, hlt, Call.buildError?] at herror
    · have hrun := prestartCoreThread_run_full h.running (Nat.not_lt.mp hcore) spawned
      simp [Pool.buildError?, Pool.setCall, critical, prestartAllNext, hrun, hlt,
        Call.buildError?] at herror

/-- **When a failed build leaks no workers.** Let a worker be one that cannot be created, so that
`build` returns an error. Then the pool has been shut down, or has no live worker, exactly if there
was no worker before, or core workers may retire and all that were there have done so. If they may
not retire, then whatever the workers go on to do, the pool runs and all of them are there. -/
theorem failed_build_leaves_iff (hs : (buildMachine Job b).Reach s)
    {spawned : SpawnOutcome}
    (hstep : (buildMachine Job b).step s (.prestartAllNext 0 spawned) = some s')
    {error : ThreadPoolBuildError} (herror : s'.buildError? = some error) :
    ((s'.state.lifecycle ≠ .running ∨ s'.state.liveWorkers = 0) ↔
      s.workers = [] ∨ b.allowCoreThreadTimeout = true ∧ ∀ w ∈ s.workers, w.phase = .exited) ∧
    (b.allowCoreThreadTimeout = false → ∀ u, s'.LeftToWorkers u →
      u.state.lifecycle = .running ∧ u.state.liveWorkers = s.workers.length) := by
  have h := building_of_reach hs
  obtain ⟨ha, hstep⟩ := buildMachine_step hstep
  obtain ⟨-, hstate, hworkers⟩ := h.fails hstep herror
  have h' : Building b s' := (h.step ha hstep).1
  have hlive : s'.state.liveWorkers = s.state.liveWorkers := by rw [hstate]; rfl
  constructor
  · rw [or_iff_right (not_not_intro h'.running), hlive]
    exact h.liveWorkers_eq_zero_iff
  · intro hallow u hu
    obtain ⟨hbuilding, hlength⟩ := h'.leftToWorkers hu
    exact ⟨hbuilding.running, by rw [hbuilding.kept hallow, hlength, hworkers]⟩

end Machine

/-- A pool of two core workers, to be prestarted. -/
def prestartBuilder : ThreadPoolBuilder :=
  { (ThreadPoolBuilder.default none).poolSize 2 with prestartCoreThreads := true }

/-- The same, where core workers may retire. -/
def retiringBuilder : ThreadPoolBuilder := { prestartBuilder with allowCoreThreadTimeout := true }

/-- Nothing is left behind where already the first worker cannot be created, nor where the first
worker has timed out and left when the second one cannot be created. -/
theorem failed_build_leaves_iff_first_or_retired :
    (∃ s' : Pool ℕ, s'.buildError? = some (.spawnWorker 0 ⟨.wouldBlock, "no thread"⟩) ∧
      s'.workers = [] ∧ (s'.state.lifecycle ≠ .running ∨ s'.state.liveWorkers = 0)) ∧
    ∃ s' : Pool ℕ, s'.buildError? = some (.spawnWorker 0 ⟨.wouldBlock, "no thread"⟩) ∧
      s'.workers.map Worker.phase = [.exited] ∧
      (s'.state.lifecycle ≠ .running ∨ s'.state.liveWorkers = 0) := by
  constructor
  · obtain ⟨s, hs, hp⟩ := Machine.exists_reachVia_of_exec (M := buildMachine ℕ prestartBuilder)
      (fun _ _ => True) (fun _ _ => true) (fun _ _ _ => trivial) rfl []
      (fun s => decide (s.workers = []) &&
        ((buildMachine ℕ prestartBuilder).step s
          (.prestartAllNext 0 (.error ⟨.wouldBlock, "no thread"⟩))).any fun s' : Pool ℕ =>
            decide (s'.buildError? = some (.spawnWorker 0 ⟨.wouldBlock, "no thread"⟩) ∧
              s'.workers = [])) (by decide)
    simp only [Bool.and_eq_true, decide_eq_true_eq, Option.any_eq_true] at hp
    obtain ⟨hnil, s', hstep, herror, hnone⟩ := hp
    exact ⟨s', herror, hnone, (failed_build_leaves_iff hs hstep herror).1.mpr (Or.inl hnil)⟩
  · obtain ⟨s, hs, hp⟩ := Machine.exists_reachVia_of_exec (M := buildMachine ℕ retiringBuilder)
      (fun _ _ => True) (fun _ _ => true) (fun _ _ _ => trivial) rfl
      [.prestartAllNext 0 .ok, .waitForJob 0, .wakeWorker 0 .timedOut, .resumeWorker 0]
      (fun s => decide (∀ w ∈ s.workers, w.phase = .exited) &&
        ((buildMachine ℕ retiringBuilder).step s
          (.prestartAllNext 0 (.error ⟨.wouldBlock, "no thread"⟩))).any fun s' : Pool ℕ =>
            decide (s'.buildError? = some (.spawnWorker 0 ⟨.wouldBlock, "no thread"⟩) ∧
              s'.workers.map Worker.phase = [.exited])) (by decide)
    simp only [Bool.and_eq_true, decide_eq_true_eq, Option.any_eq_true] at hp
    obtain ⟨hleft, s', hstep, herror, hexited⟩ := hp
    exact ⟨s', herror, hexited,
      (failed_build_leaves_iff hs hstep herror).1.mpr (Or.inr ⟨rfl, hleft⟩)⟩

/-- **A build leaks a worker**: the first one was created and waits, the second one cannot be, and
`build` returns an error while the pool runs and has its live worker. -/
theorem exists_failed_build_leak :
    ∃ s : Pool ℕ, (buildMachine ℕ prestartBuilder).Reach s ∧
      s.buildError? = some (.spawnWorker 0 ⟨.wouldBlock, "no thread"⟩) ∧
      s.state.lifecycle = .running ∧ s.state.liveWorkers = 1 ∧
      s.workers.map Worker.phase = [.waiting none none] := by
  obtain ⟨s, hs, hp⟩ := Machine.exists_reachVia_of_exec (M := buildMachine ℕ prestartBuilder)
    (fun _ _ => True) (fun _ _ => true) (fun _ _ _ => trivial) rfl
    [.prestartAllNext 0 .ok, .waitForJob 0,
      .prestartAllNext 0 (.error ⟨.wouldBlock, "no thread"⟩)]
    (fun s => decide (s.buildError? = some (.spawnWorker 0 ⟨.wouldBlock, "no thread"⟩) ∧
      s.state.lifecycle = .running ∧ s.state.liveWorkers = 1 ∧
      s.workers.map Worker.phase = [.waiting none none])) (by decide)
  exact ⟨s, hs, of_decide_eq_true hp⟩

end ThreadPool

end QubitConcurrent
