import QubitConcurrent.ThreadPool.Effects

/-!
# Well-formed pools, and the decomposition of their steps

The facts every run keeps, whatever its callbacks and its thread creations do:
`QubitConcurrent.ThreadPool.Wf`. The number of running jobs is bounded here, not
determined: a job whose callback unwinds stays counted, and so does its worker.

With them, **every step is a chain of effects**
(`QubitConcurrent.ThreadPool.step_effects`), and an invariant has only to be
checked on the effects (`QubitConcurrent.ThreadPool.reach_invariant`).
-/

namespace QubitConcurrent

namespace ThreadPool

variable {Job : Type}

/-! ### Waking up changes no count -/

section Wake

@[simp] theorem WorkerPhase.isLive_wake (p : WorkerPhase Job) : p.wake.isLive = p.isLive := by
  cases p with
  | waiting timeout wake => cases wake <;> rfl
  | _ => rfl

@[simp] theorem WorkerPhase.isWaiting_wake (p : WorkerPhase Job) :
    p.wake.isWaiting = p.isWaiting := by
  cases p with
  | waiting timeout wake => cases wake <;> rfl
  | _ => rfl

@[simp] theorem WorkerPhase.isBusy_wake (p : WorkerPhase Job) : p.wake.isBusy = p.isBusy := by
  cases p with
  | waiting timeout wake => cases wake <;> rfl
  | _ => rfl

@[simp] theorem WorkerPhase.isParked_wake (p : WorkerPhase Job) : p.wake.isParked = false := by
  cases p with
  | waiting timeout wake => cases wake <;> rfl
  | _ => rfl

@[simp] theorem WorkerPhase.held_wake (p : WorkerPhase Job) : p.wake.held = p.held := by
  cases p with
  | waiting timeout wake => cases wake <;> rfl
  | _ => rfl

@[simp] theorem Call.drained_wake (c : Call Job) : c.wake.drained = c.drained := by
  cases c <;> rfl

@[simp] theorem Call.owesNotifyOne_wake (c : Call Job) :
    c.wake.owesNotifyOne = c.owesNotifyOne := by
  cases c <;> rfl

@[simp] theorem Call.isShutdownNow_wake (c : Call Job) :
    c.wake.isShutdownNow = c.isShutdownNow := by
  cases c <;> rfl

@[simp] theorem Call.isAwaiting_wake (c : Call Job) : c.wake.isAwaiting = c.isAwaiting := by
  cases c <;> rfl

@[simp] theorem Call.isParked_wake (c : Call Job) : c.wake.isParked = false := by
  cases c <;> rfl

/-- Who is parked waits for termination. -/
theorem Call.eq_of_isParked {c : Call Job} (h : c.isParked = true) :
    c = .waitForTermination false := by
  cases c with
  | waitForTermination woken => cases woken <;> simp [isParked] at h ⊢
  | _ => exact absurd h (by simp [isParked])

variable (s : Pool Job)

@[simp] theorem Pool.wakeAll_state : s.wakeAll.state = s.state := rfl

@[simp] theorem Pool.wakeAll_workerQueues : s.wakeAll.workerQueues = s.workerQueues := rfl

@[simp] theorem Pool.wakeAll_ledger : s.wakeAll.ledger = s.ledger := rfl

@[simp] theorem Pool.wakeAll_workers : s.wakeAll.workers = s.workers.map Worker.wake := rfl

@[simp] theorem Pool.wakeAll_calls : s.wakeAll.calls = s.calls.map Call.wake := rfl

@[simp] theorem Worker.wake_index (w : Worker Job) : w.wake.index = w.index := rfl

@[simp] theorem Worker.wake_phase (w : Worker Job) : w.wake.phase = w.phase.wake := rfl

/-- After waking everybody, nobody is parked. -/
@[simp] theorem Pool.noneParked_wakeAll : s.wakeAll.noneParked = true := by
  simp [noneParked]

end Wake

/-- **A rule for notifications of termination**: what holds before holds after,
if waking everybody up cannot break it. -/
theorem Pool.notifyTerminated_of {I : Pool Job → Prop} (hwake : ∀ s, I s → I s.wakeAll)
    {s : Pool Job} (hs : I s) : I s.notifyTerminated := by
  rw [notifyTerminated]
  split_ifs with h
  · exact hwake s hs
  · exact hs

/-- **A worker moves on**, and a count of workers changes by what it contributes. -/
theorem Pool.countWorkers_move (q : WorkerPhase Job → Bool) {s t : Pool Job}
    {l₁ l₂ : List (Worker Job)} {w : Worker Job} {p : WorkerPhase Job}
    (hw : s.workers = l₁ ++ w :: l₂) (ht : t.workers = l₁ ++ { w with phase := p } :: l₂) :
    t.countWorkers q + (q w.phase).toNat = s.countWorkers q + (q p).toNat := by
  simp only [Pool.countWorkers, hw, ht, List.countP_append, List.countP_cons]
  cases hp : q p <;> cases hq : q w.phase <;> simp <;> omega

/-- **What a build that succeeds hands out**: an empty pool, with the prestart of
its core workers in progress or without. -/
theorem build_eq_ok {b : ThreadPoolBuilder} {s : Pool Job} (hb : build b = .ok s) :
    b.validate = .ok () ∧
      (s = Pool.new b.config ∨ s = (Pool.new b.config).addCall (.prestartAll 0)) := by
  rw [build] at hb
  cases hv : b.validate with
  | error e =>
    rw [hv] at hb
    exact absurd hb (by simp [bind, Except.bind])
  | ok u =>
    rw [hv] at hb
    obtain rfl := Except.ok.inj hb
    refine ⟨rfl, ?_⟩
    split_ifs
    · exact Or.inr rfl
    · exact Or.inl rfl

/-! ### Well-formed pools -/

/-- Whether a job may be counted as running for a worker: it holds one, has died
holding one, or was never created. -/
def WorkerPhase.isEngaged : WorkerPhase Job → Bool
  | holding _ | running _ | finishing _ | unwound | unborn => true
  | _ => false

@[simp] theorem WorkerPhase.isEngaged_wake (p : WorkerPhase Job) :
    p.wake.isEngaged = p.isEngaged := by
  cases p with
  | waiting timeout wake => cases wake <;> rfl
  | _ => rfl

/-- **What every run keeps.** -/
structure Wf (s : Pool Job) : Prop where
  /-- The jobs that wait are counted. -/
  queued : s.state.queuedTasks = s.queuedJobs.length
  /-- The registered queues are those of the workers that have not unregistered. -/
  registered : s.workerQueues.map WorkerQueue.workerIndex =
    (s.workers.filter fun w => w.phase.isLive).map Worker.index
  /-- Indices are handed out in increasing order. -/
  increasing : (s.workers.map Worker.index).Pairwise (· < ·)
  /-- The next index is free. -/
  fresh : ∀ i ∈ s.workers.map Worker.index, i < s.state.nextWorkerIndex
  /-- The workers that have not unregistered are counted. -/
  live : s.state.liveWorkers = s.countWorkers WorkerPhase.isLive
  /-- The workers inside a wait are counted. -/
  idle : s.state.idleWorkers = s.countWorkers WorkerPhase.isWaiting
  /-- Unbounded pools leave the local queues empty. -/
  unbounded : s.state.queueCapacity = none → ∀ q ∈ s.workerQueues, q.jobs = []
  /-- A stopping pool has drained its queues. -/
  stopped : s.state.lifecycle = .stopping → s.queuedJobs = []
  /-- Whoever is counted as running holds a job, died holding one, or never was. -/
  running : s.state.runningTasks ≤ s.countWorkers WorkerPhase.isEngaged
  /-- While something waits, some worker is registered. -/
  staffed : s.queuedJobs ≠ [] → 0 < s.state.liveWorkers
  /-- The sizes are ones a builder would accept. -/
  sizes : SizesOk s.state.corePoolSize s.state.maximumPoolSize s.state.keepAlive

namespace Wf

variable {s : Pool Job}

/-- Registered workers have distinct indices. -/
theorem nodup (h : Wf s) : (s.workerQueues.map WorkerQueue.workerIndex).Nodup := by
  rw [h.registered]
  have hsub : ((s.workers.filter fun w => w.phase.isLive).map Worker.index).Sublist
      (s.workers.map Worker.index) := List.Sublist.map _ List.filter_sublist
  exact (h.increasing.sublist hsub).imp Nat.ne_of_lt

/-- The next index is not registered. -/
theorem notMem (h : Wf s) :
    s.state.nextWorkerIndex ∉ s.workerQueues.map WorkerQueue.workerIndex := by
  rw [h.registered]
  intro hmem
  obtain ⟨w, hw, hi⟩ := List.mem_map.mp hmem
  have hlt := h.fresh _ (List.mem_map_of_mem (List.mem_of_mem_filter hw))
  omega

/-- A live worker may look for a job. -/
theorem queuesOk (h : Wf s) {w : Worker Job} (hw : w ∈ s.workers) (hp : w.phase.isLive = true) :
    QueuesOk s w.index where
  nodup := h.nodup
  registered := by
    rw [h.registered]
    exact List.mem_map_of_mem (List.mem_filter.mpr ⟨hw, hp⟩)
  queued := h.queued
  unbounded := h.unbounded

/-- A live worker is counted. -/
theorem live_pos (h : Wf s) {w : Worker Job} (hw : w ∈ s.workers) (hp : w.phase.isLive = true) :
    0 < s.state.liveWorkers := by
  rw [h.live]
  exact List.countP_pos_iff.mpr ⟨w, hw, hp⟩

/-- A waiting worker is counted. -/
theorem idle_pos (h : Wf s) {w : Worker Job} (hw : w ∈ s.workers)
    (hp : w.phase.isWaiting = true) : 0 < s.state.idleWorkers := by
  rw [h.idle]
  exact List.countP_pos_iff.mpr ⟨w, hw, hp⟩

/-- Without a registered worker nothing is counted as running. -/
theorem running_of_live (h : Wf s) (hlive : s.state.liveWorkers = 0) :
    s.state.runningTasks = 0 := by
  have hle : s.countWorkers WorkerPhase.isEngaged ≤ s.countWorkers WorkerPhase.isLive := by
    refine List.countP_mono_left fun w _ hw => ?_
    revert hw
    cases w.phase <;> simp [WorkerPhase.isEngaged, WorkerPhase.isLive]
  have hrunning := h.running
  have hcount := h.live
  omega

/-- Without a registered worker nobody is counted as idle. -/
theorem idle_of_live (h : Wf s) (hlive : s.state.liveWorkers = 0) : s.state.idleWorkers = 0 := by
  have hle : s.countWorkers WorkerPhase.isWaiting ≤ s.countWorkers WorkerPhase.isLive := by
    refine List.countP_mono_left fun w _ hw => ?_
    revert hw
    cases w.phase <;> simp [WorkerPhase.isWaiting, WorkerPhase.isLive]
  have hidle := h.idle
  have hcount := h.live
  omega

/-! ### Effects keep pools well formed -/

/-- **A worker moves on.** The pool stays well formed if the worker stays
registered, and if the counters follow what it did. -/
theorem of_move (h : Wf s) {t : Pool Job} {l₁ l₂ : List (Worker Job)} {w : Worker Job}
    {p : WorkerPhase Job} (hw : s.workers = l₁ ++ w :: l₂)
    (ht : t.workers = l₁ ++ { w with phase := p } :: l₂) (hold : w.phase.isLive = true)
    (hnew : p.isLive = true)
    (hqueues : t.workerQueues.map WorkerQueue.workerIndex =
      s.workerQueues.map WorkerQueue.workerIndex)
    (hqueued : t.state.queuedTasks = t.queuedJobs.length)
    (hnext : t.state.nextWorkerIndex = s.state.nextWorkerIndex)
    (hlive : t.state.liveWorkers = s.state.liveWorkers)
    (hidle : t.state.idleWorkers + w.phase.isWaiting.toNat =
      s.state.idleWorkers + p.isWaiting.toNat)
    (hunbounded : t.state.queueCapacity = none → ∀ q ∈ t.workerQueues, q.jobs = [])
    (hstopped : t.state.lifecycle = .stopping → t.queuedJobs = [])
    (hrunning : t.state.runningTasks + w.phase.isEngaged.toNat ≤
      s.state.runningTasks + p.isEngaged.toNat)
    (hsizes : SizesOk t.state.corePoolSize t.state.maximumPoolSize t.state.keepAlive) : Wf t where
  queued := hqueued
  registered := by
    have hreg := h.registered
    rw [hw] at hreg
    rw [hqueues, ht, hreg]
    simp [List.filter_append, hold, hnew]
  increasing := by simpa [hw, ht] using h.increasing
  fresh := by simpa [hw, ht, hnext] using h.fresh
  live := by
    rw [hlive, h.live]
    simp [Pool.countWorkers, hw, ht, hold, hnew]
  idle := by
    have hcount := Pool.countWorkers_move WorkerPhase.isWaiting hw ht
    have hbefore := h.idle
    omega
  unbounded := hunbounded
  stopped := hstopped
  running := by
    have hcount := Pool.countWorkers_move WorkerPhase.isEngaged hw ht
    have hbefore := h.running
    omega
  staffed := fun _ => by
    rw [hlive]
    exact h.live_pos (w := w) (by rw [hw]; simp) hold
  sizes := hsizes

/-- A worker moves on and no counter does. -/
theorem of_setPhase (h : Wf s) {t : Pool Job} {l₁ l₂ : List (Worker Job)} {w : Worker Job}
    {p : WorkerPhase Job} (hw : s.workers = l₁ ++ w :: l₂)
    (ht : t.workers = l₁ ++ { w with phase := p } :: l₂) (hstate : t.state = s.state)
    (hqueues : t.workerQueues = s.workerQueues) (hold : w.phase.isLive = true)
    (hnew : p.isLive = true)
    (hwaiting : p.isWaiting = w.phase.isWaiting) (hengaged : p.isEngaged = w.phase.isEngaged) :
    Wf t := by
  have hjobs : t.queuedJobs = s.queuedJobs := by rw [Pool.queuedJobs, hstate, hqueues]; rfl
  refine h.of_move hw ht hold hnew (by rw [hqueues]) ?_ (by rw [hstate]) (by rw [hstate])
    ?_ ?_ ?_ ?_ ?_
  · rw [hstate, hjobs, h.queued]
  · rw [hstate, hwaiting]
  · rw [hstate, hqueues]
    exact h.unbounded
  · rw [hstate, hjobs]
    exact h.stopped
  · rw [hstate, hengaged]
  · rw [hstate]
    exact h.sizes

/-- Waking everybody up keeps a pool well formed. -/
theorem wakeAll (h : Wf s) : Wf s.wakeAll where
  queued := h.queued
  registered := by
    rw [Pool.wakeAll_workerQueues, h.registered]
    simp [List.filter_map, Function.comp_def]
  increasing := by simpa [Function.comp_def] using h.increasing
  fresh := by simpa using h.fresh
  live := by simpa [Pool.countWorkers, Function.comp_def] using h.live
  idle := by simpa [Pool.countWorkers, Function.comp_def] using h.idle
  unbounded := h.unbounded
  stopped := h.stopped
  running := by simpa [Pool.countWorkers, Function.comp_def] using h.running
  staffed := h.staffed
  sizes := h.sizes

/-- **A new worker keeps a pool well formed**: it is registered, does not wait, and has
a job if one was counted for it. -/
theorem enlisted (h : Wf s) (firstTask : Option Job) {name : String} {phase : WorkerPhase Job}
    (hrun : s.state.lifecycle = .running) (hphase : phase.isLive = true)
    (hwaiting : phase.isWaiting = false)
    (hengaged : firstTask.toList.length ≤ phase.isEngaged.toNat) :
    Wf { s.spawned firstTask with
      workers := s.workers ++
        [{ index := s.state.nextWorkerIndex, name := name, phase := phase }] } where
  queued := by simpa [Pool.spawned, Pool.queuedJobs] using h.queued
  registered := by simp [Pool.spawned, List.filter_append, h.registered, hphase]
  increasing := by
    simp only [List.map_append, List.map_cons, List.map_nil, List.pairwise_append]
    refine ⟨h.increasing, by simp, fun i hi j hj => ?_⟩
    obtain rfl := List.mem_singleton.mp hj
    exact h.fresh i hi
  fresh := by
    simp only [Pool.spawned, List.map_append, List.mem_append, List.map_cons, List.map_nil,
      List.mem_singleton]
    rintro i (hi | rfl)
    · exact Nat.lt_succ_of_lt (h.fresh i hi)
    · exact Nat.lt_succ_self _
  live := by simpa [Pool.spawned, Pool.countWorkers, hphase] using h.live
  idle := by simpa [Pool.spawned, Pool.countWorkers, hwaiting] using h.idle
  unbounded := by
    intro hcap q hq
    simp only [Pool.spawned, List.mem_append, List.mem_singleton] at hq
    rcases hq with hq | rfl
    · exact h.unbounded hcap q hq
    · rfl
  stopped := by
    intro hstop
    exact absurd (hrun.symm.trans hstop) (by simp)
  running := by
    have hone : phase.isEngaged.toNat = if phase.isEngaged then 1 else 0 := by
      cases phase.isEngaged <;> rfl
    have hbefore := h.running
    simp only [Pool.spawned, Pool.countWorkers, List.countP_append, List.countP_singleton]
      at hbefore ⊢
    omega
  staffed := fun _ => Nat.succ_pos _
  sizes := h.sizes

/-- A new worker thread keeps a pool well formed. -/
theorem spawned (h : Wf s) (firstTask : Option Job) (hrun : s.state.lifecycle = .running) :
    Wf (s.spawned firstTask) := by
  cases firstTask with
  | none => exact h.enlisted none hrun rfl rfl (Nat.zero_le _)
  | some job => exact h.enlisted (some job) hrun rfl rfl le_rfl

/-- So does a worker that was registered and never created. -/
theorem stillborn (h : Wf s) (firstTask : Option Job) (hrun : s.state.lifecycle = .running) :
    Wf (s.stillborn firstTask) :=
  h.enlisted firstTask hrun rfl rfl (by cases firstTask <;> simp [WorkerPhase.isEngaged])

/-- A worker that leaves takes its queue with it. -/
theorem exited (h : Wf s) {l₁ l₂ : List (Worker Job)} {w : Worker Job}
    (hw : s.workers = l₁ ++ w :: l₂) (hp : w.phase = .ready) (hnil : s.queuedJobs = [])
    {q₁ q₂ : List (WorkerQueue Job)} (hqs : s.workerQueues = q₁ ++ ⟨w.index, []⟩ :: q₂) :
    Wf { s.unregistered q₁ q₂ with workers := l₁ ++ { w with phase := .exited } :: l₂ } where
  queued := by simpa [Pool.unregistered, Pool.queuedJobs, hqs] using h.queued
  registered := by
    have hreg := h.registered
    have hnd := h.nodup
    rw [hqs, List.map_append, List.map_cons] at hreg hnd
    obtain ⟨-, hnd₂, hnd₁⟩ := List.nodup_append.mp hnd
    -- the index of the worker stands in one place of the list, so the rest agrees
    have hfilter : ((s.workers.filter fun w => w.phase.isLive).map Worker.index) =
        (l₁.filter fun w => w.phase.isLive).map Worker.index ++ w.index ::
          (l₂.filter fun w => w.phase.isLive).map Worker.index := by
      simp [hw, List.filter_append, hp, WorkerPhase.isLive]
    rw [hfilter] at hreg
    obtain ⟨heq₁, -, heq₂⟩ := (List.append_cons_inj_of_notMem
      (fun hmem => hnd₁ _ hmem _ (List.mem_cons_self ..) rfl) (List.nodup_cons.mp hnd₂).1).mp hreg
    simp [Pool.unregistered, List.filter_append, heq₁, heq₂, WorkerPhase.isLive]
  increasing := by simpa [Pool.unregistered, hw] using h.increasing
  fresh := by simpa [Pool.unregistered, hw] using h.fresh
  live := by
    have hcount := h.live
    simp only [Pool.countWorkers, hw, List.countP_append, List.countP_cons, hp,
      WorkerPhase.isLive] at hcount
    simp only [Pool.unregistered, Pool.countWorkers, List.countP_append, List.countP_cons,
      WorkerPhase.isLive]
    simp only [if_true, Bool.false_eq_true, if_false] at hcount ⊢
    omega
  idle := by
    simpa [Pool.unregistered, Pool.countWorkers, hw, hp, WorkerPhase.isWaiting] using h.idle
  unbounded := by
    intro hcap q hq
    refine h.unbounded hcap q ?_
    rw [hqs]
    rcases List.mem_append.mp hq with hq | hq
    · exact List.mem_append_left _ hq
    · exact List.mem_append_right _ (List.mem_cons_of_mem _ hq)
  stopped := by
    intro hstop
    have hnil := h.stopped hstop
    simpa [Pool.unregistered, Pool.queuedJobs, hqs] using hnil
  running := by
    simpa [Pool.unregistered, Pool.countWorkers, hw, hp, WorkerPhase.isEngaged] using h.running
  staffed := by
    intro hne
    exact absurd (by simpa [Pool.unregistered, Pool.queuedJobs, hqs] using hnil) hne
  sizes := h.sizes

/-- A worker that has finished its job is ready for another. -/
theorem finished (h : Wf s) {l₁ l₂ : List (Worker Job)} {w : Worker Job}
    (hw : s.workers = l₁ ++ w :: l₂) {j : Job} (hp : w.phase = .finishing j)
    (hpos : 0 < s.state.runningTasks) {t : Pool Job}
    (hstate : t.state = { s.state with runningTasks := s.state.runningTasks - 1
                                       completedTasks := s.state.completedTasks + 1 })
    (hqueues : t.workerQueues = s.workerQueues)
    (ht : t.workers = l₁ ++ { w with phase := .ready } :: l₂) : Wf t := by
  have hjobs : t.queuedJobs = s.queuedJobs := by rw [Pool.queuedJobs, hstate, hqueues]; rfl
  refine h.of_move hw ht (by rw [hp]; rfl) rfl (by rw [hqueues]) ?_ (by rw [hstate])
    (by rw [hstate])
    (by rw [hstate, hp]; rfl) ?_ ?_ ?_ ?_
  · rw [hstate, hjobs]
    exact h.queued
  · rw [hstate, hqueues]
    exact h.unbounded
  · rw [hstate, hjobs]
    exact h.stopped
  · simp only [hstate, hp, WorkerPhase.isEngaged, Bool.toNat_true, Bool.toNat_false]
    omega
  · rw [hstate]
    exact h.sizes

/-- **Effects keep pools well formed.** -/
theorem effect {m : Mode} {s' : Pool Job} (h : Wf s) (he : Effect m s s') : Wf s' := by
  cases he with
  | skipIndex =>
    exact ⟨h.queued, h.registered, h.increasing, fun i hi => Nat.lt_succ_of_lt (h.fresh i hi),
      h.live, h.idle, h.unbounded, h.stopped, h.running, h.staffed, h.sizes⟩
  | configure core maximum keepAlive allow hsizes =>
    exact ⟨h.queued, h.registered, h.increasing, h.fresh, h.live, h.idle, h.unbounded, h.stopped,
      h.running, h.staffed, hsizes h.sizes⟩
  | spawnIdle hrun => exact h.spawned none hrun
  | spawnFor job _ hrun =>
    obtain ⟨h₁, h₂, h₃, h₄, h₅, h₆, h₇, h₈, h₉, h₁₀, h₁₁⟩ := h.spawned (some job) hrun
    exact ⟨h₁, h₂, h₃, h₄, h₅, h₆, h₇, h₈, h₉, h₁₀, h₁₁⟩
  | spawnPanics firstTask _ hrun => exact h.stillborn firstTask hrun
  | enqueueGlobal job _ _ _ hrun hlive =>
    refine ⟨?_, h.registered, h.increasing, h.fresh, h.live, h.idle, h.unbounded, ?_, h.running,
      fun _ => hlive, h.sizes⟩
    · have hqueued := h.queued
      simp only [Pool.queuedJobs, List.length_append] at hqueued
      simp only [Pool.queuedJobs, ThreadPoolState.enqueue, List.length_append,
        List.length_singleton]
      omega
    · exact fun hstop => absurd (hrun.symm.trans hstop) (by simp)
  | enqueueLocal job _ hrun hlive hcap _ q₁ q₂ q hqs =>
    refine ⟨?_, ?_, h.increasing, h.fresh, h.live, h.idle, ?_, ?_, h.running,
      fun _ => hlive, h.sizes⟩
    · have hqueued := h.queued
      simp only [Pool.queuedJobs, hqs, List.flatMap_append, List.flatMap_cons,
        List.length_append] at hqueued
      simp only [Pool.queuedJobs, ThreadPoolState.enqueue, WorkerQueue.pushBack,
        List.flatMap_append, List.flatMap_cons, List.length_append, List.length_singleton]
      omega
    · rw [← h.registered, hqs]
      simp [WorkerQueue.pushBack]
    · intro hnone
      simp [show s.state.queueCapacity = none from hnone] at hcap
    · exact fun hstop => absurd (hrun.symm.trans hstop) (by simp)
  | wakeAll => exact h.wakeAll
  | wakeWorker l₁ l₂ w hw timeout status hp =>
    exact h.of_setPhase hw rfl rfl rfl (by rw [hp]; rfl) rfl (by rw [hp]; rfl) (by rw [hp]; rfl)
  | claimGlobal l₁ l₂ w hw hp j js hlife hq =>
    have hqueued := h.queued
    simp only [Pool.queuedJobs, hq, List.cons_append, List.length_cons] at hqueued
    refine h.of_move hw rfl (by rw [hp]; rfl) rfl rfl ?_ rfl rfl (by rw [hp]; rfl) h.unbounded ?_ ?_
      h.sizes
    · simp only [Pool.queuedJobs, ThreadPoolState.claim]
      omega
    · exact fun hstop => absurd hstop hlife
    · rw [hp]
      exact le_rfl
  | claimLocal l₁ l₂ w hw hp q₁ q₂ v j js hlife hqs =>
    have hqueued := h.queued
    simp only [Pool.queuedJobs, hqs, List.flatMap_append, List.flatMap_cons, List.length_append,
      List.length_cons] at hqueued
    refine h.of_move hw rfl (by rw [hp]; rfl) rfl (by rw [hqs]; simp) ?_ rfl rfl
      (by rw [hp]; rfl) ?_ ?_
      ?_ h.sizes
    · simp only [Pool.queuedJobs, ThreadPoolState.claim, List.flatMap_append, List.flatMap_cons,
        List.length_append]
      omega
    · intro hnone
      have hnil := h.unbounded hnone ⟨v, j :: js⟩ (by rw [hqs]; simp)
      simp at hnil
    · exact fun hstop => absurd hstop hlife
    · rw [hp]
      exact le_rfl
  | park l₁ l₂ w hw hp hrun hnil hmax =>
    refine h.of_move hw rfl (by rw [hp]; rfl) rfl rfl h.queued rfl rfl (by rw [hp]; rfl) h.unbounded
      h.stopped ?_ h.sizes
    rw [hp]
    exact le_rfl
  | unpark l₁ l₂ w hw timeout status hp =>
    have hpos := h.idle_pos (w := w) (by rw [hw]; simp) (by rw [hp]; rfl)
    refine h.of_move hw rfl (by rw [hp]; rfl) rfl rfl h.queued rfl rfl ?_ h.unbounded h.stopped ?_
      h.sizes
    · simp only [hp, Pool.unparked, WorkerPhase.isWaiting, Bool.toNat_true, Bool.toNat_false]
      omega
    · rw [hp]
      exact le_rfl
  | exit hm l₁ l₂ w hw hp hnil hwhy q₁ q₂ hqs =>
    exact Pool.notifyTerminated_of (I := Wf) (fun _ => wakeAll) (h.exited hw hp hnil hqs)
  | invokeRun l₁ l₂ w hw j hp =>
    exact h.of_setPhase hw rfl rfl rfl (by rw [hp]; rfl) rfl (by rw [hp]; rfl) (by rw [hp]; rfl)
  | runReturns l₁ l₂ w hw j hp =>
    exact h.of_setPhase hw rfl rfl rfl (by rw [hp]; rfl) rfl (by rw [hp]; rfl) (by rw [hp]; rfl)
  | finish l₁ l₂ w hw j hp hpos =>
    exact Pool.notifyTerminated_of (I := Wf) (fun _ => wakeAll) (h.finished hw hp hpos rfl rfl rfl)
  | shutdown hparked =>
    refine ⟨h.queued, h.registered, h.increasing, h.fresh, h.live, h.idle, h.unbounded, ?_,
      h.running, h.staffed, h.sizes⟩
    intro hstop
    refine h.stopped ?_
    by_cases hrun : s.state.lifecycle = .running
    · simp [hrun] at hstop
    · simpa [hrun] using hstop
  | drain hparked =>
    have hnil := s.queuedJobs_drain
    refine ⟨congrArg List.length hnil.symm, ?_, h.increasing, h.fresh, h.live, h.idle, ?_,
      fun _ => hnil, h.running, fun hne => absurd hnil hne, h.sizes⟩
    · refine Eq.trans ?_ h.registered
      simp [Pool.drain, Function.comp_def]
    · intro _ q hq
      obtain ⟨q', -, rfl⟩ := List.mem_map.mp hq
      rfl
  | unwind l₁ l₂ w hw j hp hm =>
    exact h.of_setPhase hw rfl rfl rfl (by rw [hp]; rfl) rfl (by rw [hp]; rfl) (by rw [hp]; rfl)
  | finishPanics l₁ l₂ w hw j hp hzero =>
    exact h.of_setPhase hw rfl rfl rfl (by rw [hp]; rfl) rfl (by rw [hp]; rfl) (by rw [hp]; rfl)
  | dropRunning hm hpos =>
    exact ⟨h.queued, h.registered, h.increasing, h.fresh, h.live, h.idle, h.unbounded, h.stopped,
      (Nat.sub_le _ _).trans h.running, h.staffed, h.sizes⟩
  | _ =>
    -- the rest moves calls, the cursor and the ledger only
    exact ⟨h.queued, h.registered, h.increasing, h.fresh, h.live, h.idle, h.unbounded, h.stopped,
      h.running, h.staffed, h.sizes⟩

/-- A pool that was just built is well formed. -/
theorem of_build {b : ThreadPoolBuilder} (hb : build b = .ok s) : Wf s := by
  obtain ⟨hvalid, hs⟩ := build_eq_ok hb
  obtain ⟨hmax, hcore, -, -, hkeep⟩ := ThreadPoolBuilder.validate_eq_ok.mp hvalid
  have hsizes : SizesOk b.corePoolSize b.maximumPoolSize b.keepAlive :=
    ⟨Nat.pos_of_ne_zero hmax, hcore, Nat.pos_of_ne_zero hkeep⟩
  rcases hs with rfl | rfl
  all_goals exact ⟨rfl, rfl, by simp [Pool.addCall, Pool.new],
    by simp [Pool.addCall, Pool.new], rfl,
    rfl, by simp [Pool.addCall, Pool.new], fun _ => rfl, Nat.zero_le _, fun hne => absurd rfl hne,
    hsizes⟩

end Wf

end ThreadPool

end QubitConcurrent
