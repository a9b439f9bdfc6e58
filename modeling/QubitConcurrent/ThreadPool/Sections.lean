import QubitConcurrent.Lib.Lists
import QubitConcurrent.ThreadPool.Inner

/-!
# What the critical sections do

One specification for each function of `QubitConcurrent.ThreadPool.Inner`: the
state it ends in, written out. Nothing after this file unfolds a critical
section again.

The one that takes an argument is `QubitConcurrent.ThreadPool.tryTakeQueuedJobLocked_run`.
A worker asks its own queue, then – in bounded pools with at least two
registered queues – all others in cyclic order, then the global queue; an answer
`None` has to mean that no job waits anywhere. That rests on facts about the
state the function itself does not check, collected in
`QubitConcurrent.ThreadPool.QueuesOk`: worker indices are distinct, the asking
worker is registered, and unbounded pools leave the local queues empty.
-/

namespace QubitConcurrent

namespace ThreadPool

variable {Job : Type}

/-! ### Notification -/

/-- What `notify_if_terminated` leaves behind. -/
def Pool.notifyTerminated (s : Pool Job) : Pool Job :=
  if s.state.isTerminated then s.wakeAll else s

@[simp] theorem notifyIfTerminated_run (s : Pool Job) :
    notifyIfTerminated.run s = .ok () s.notifyTerminated := by
  by_cases h : s.state.isTerminated = true
  · simp [notifyIfTerminated, Pool.notifyTerminated, h]
  · simp [notifyIfTerminated, Pool.notifyTerminated, h]

/-- A running pool is not terminated, so nobody is notified. -/
theorem Pool.notifyTerminated_of_running {s : Pool Job} (h : s.state.lifecycle = .running) :
    s.notifyTerminated = s := by
  rw [notifyTerminated, if_neg]
  simp [ThreadPoolState.isTerminated_iff, h]

/-! ### Worker queues -/

/-- Removing the queue of a registered worker hands out its jobs. -/
theorem removeQueue_split (l₁ l₂ : List (WorkerQueue Job)) (i : ℕ) (js : List Job)
    (h : i ∉ l₁.map WorkerQueue.workerIndex) :
    removeQueue i (l₁ ++ ⟨i, js⟩ :: l₂) = (js, l₁ ++ l₂) := by
  induction l₁ with
  | nil => simp [removeQueue]
  | cons q l₁ ih =>
    simp only [List.map_cons, List.mem_cons, not_or] at h
    rw [List.cons_append, removeQueue, if_neg (Ne.symm h.1), ih h.2]
    rfl

/-- What a worker's own queue has to offer: nothing, or its oldest job. -/
theorem popOwn_cases (i : ℕ) (qs : List (WorkerQueue Job)) :
    (popOwn i qs = none ∧
      ((qs.map WorkerQueue.workerIndex).Nodup → ∀ q ∈ qs, q.workerIndex = i → q.jobs = [])) ∨
    ∃ l₁ j js l₂, qs = l₁ ++ ⟨i, j :: js⟩ :: l₂ ∧ popOwn i qs = some (j, l₁ ++ ⟨i, js⟩ :: l₂) := by
  induction qs with
  | nil => exact Or.inl ⟨rfl, by simp⟩
  | cons q qs ih =>
    by_cases hq : q.workerIndex = i
    · obtain ⟨qi, qjs⟩ := q
      obtain rfl : qi = i := hq
      cases qjs with
      | nil =>
        refine Or.inl ⟨by simp [popOwn, WorkerQueue.stealOne], fun hnd p hp hpi => ?_⟩
        rcases List.mem_cons.mp hp with rfl | hp
        · rfl
        · -- a second queue of the same worker would break distinctness
          simp only [List.map_cons, List.nodup_cons] at hnd
          exact absurd (List.mem_map.mpr ⟨p, hp, hpi⟩) hnd.1
      | cons j js => exact Or.inr ⟨[], j, js, qs, rfl, by simp [popOwn, WorkerQueue.stealOne]⟩
    · rcases ih with ⟨hnone, hempty⟩ | ⟨l₁, j, js, l₂, rfl, hsome⟩
      · refine Or.inl ⟨by simp [popOwn, hq, hnone], fun hnd p hp hpi => ?_⟩
        rcases List.mem_cons.mp hp with rfl | hp
        · exact absurd hpi hq
        · exact hempty (List.nodup_cons.mp hnd).2 p hp hpi
      · exact Or.inr ⟨q :: l₁, j, js, l₂, rfl, by simp [popOwn, hq, hsome]⟩

/-- What the victims at some offsets have to offer: nothing, or the oldest job of
one of them. -/
theorem probeVictims_cases (i start : ℕ) (qs : List (WorkerQueue Job)) (hqs : 0 < qs.length)
    (offsets : List ℕ) :
    (probeVictims i start qs offsets = none ∧
      ∀ o ∈ offsets, ∀ q, qs[(start + o) % qs.length]? = some q → q.workerIndex ≠ i →
        q.jobs = []) ∨
    ∃ l₁ v j js l₂, qs = l₁ ++ ⟨v, j :: js⟩ :: l₂ ∧
      probeVictims i start qs offsets = some (j, l₁ ++ ⟨v, js⟩ :: l₂) := by
  induction offsets with
  | nil => exact Or.inl ⟨rfl, by simp⟩
  | cons o offsets ih =>
    obtain ⟨q, hq⟩ : ∃ q, qs[(start + o) % qs.length]? = some q :=
      ⟨_, List.getElem?_eq_getElem (Nat.mod_lt _ hqs)⟩
    -- the victim at `o` has nothing to offer, and the rest is asked
    have hskip : (q.workerIndex ≠ i → q.jobs = []) →
        probeVictims i start qs (o :: offsets) = probeVictims i start qs offsets →
        (probeVictims i start qs (o :: offsets) = none ∧
          ∀ p ∈ o :: offsets, ∀ q, qs[(start + p) % qs.length]? = some q → q.workerIndex ≠ i →
            q.jobs = []) ∨
        ∃ l₁ v j js l₂, qs = l₁ ++ ⟨v, j :: js⟩ :: l₂ ∧
          probeVictims i start qs (o :: offsets) = some (j, l₁ ++ ⟨v, js⟩ :: l₂) := by
      intro hempty heq
      rw [heq]
      rcases ih with ⟨hnone, hrest⟩ | hsome
      · refine Or.inl ⟨hnone, fun p hp q' hq' hne => ?_⟩
        rcases List.mem_cons.mp hp with rfl | hp
        · rw [hq, Option.some.injEq] at hq'
          subst hq'
          exact hempty hne
        · exact hrest p hp q' hq' hne
      · exact Or.inr hsome
    by_cases hi : q.workerIndex = i
    · exact hskip (fun hne => absurd hi hne) (by simp [probeVictims, hq, hi])
    · obtain ⟨v, vjs⟩ := q
      cases vjs with
      | nil => exact hskip (fun _ => rfl) (by simp [probeVictims, hq, hi, WorkerQueue.stealOne])
      | cons j js =>
        obtain ⟨l₁, l₂, hsplit, hlen⟩ := exists_split_of_getElem? hq
        refine Or.inr ⟨l₁, v, j, js, l₂, hsplit, ?_⟩
        have hset : qs.set ((start + o) % qs.length) ⟨v, js⟩ = l₁ ++ ⟨v, js⟩ :: l₂ := by
          rw [← hlen]
          conv_lhs => rw [hsplit]
          simp
        simp [probeVictims, hq, hi, WorkerQueue.stealOne, hset]

/-- What a worker relies on when it looks for a job. -/
structure QueuesOk (s : Pool Job) (i : ℕ) : Prop where
  /-- Registered workers have distinct indices. -/
  nodup : (s.workerQueues.map WorkerQueue.workerIndex).Nodup
  /-- The worker that asks is registered. -/
  registered : i ∈ s.workerQueues.map WorkerQueue.workerIndex
  /-- The counter counts what waits. -/
  queued : s.state.queuedTasks = s.queuedJobs.length
  /-- Unbounded pools leave the local queues empty. -/
  unbounded : s.state.queueCapacity = none → ∀ q ∈ s.workerQueues, q.jobs = []

/-- The queue of the only registered worker is the asking worker's own. -/
theorem QueuesOk.eq_of_length_le_one {s : Pool Job} {i : ℕ} (h : QueuesOk s i)
    (hlen : s.workerQueues.length ≤ 1) {q : WorkerQueue Job} (hq : q ∈ s.workerQueues) :
    q.workerIndex = i := by
  obtain ⟨p, hp, rfl⟩ := List.mem_map.mp h.registered
  match hqs : s.workerQueues with
  | [] => simp [hqs] at hq
  | [r] =>
    rw [hqs, List.mem_singleton] at hq hp
    rw [hq, hp]
  | _ :: _ :: _ => simp [hqs] at hlen

/-- What stealing finds: nothing, and then no other worker has a job; or the
oldest job of some local queue. -/
theorem tryStealJobLocked_run {s : Pool Job} {i : ℕ} (h : QueuesOk s i) :
    (∃ c, (tryStealJobLocked i).run s = .ok none { s with nextEnqueueWorker := c } ∧
      ∀ q ∈ s.workerQueues, q.workerIndex ≠ i → q.jobs = []) ∨
    (∃ c l₁ v j js l₂, (tryStealJobLocked i).run s =
        .ok (some j) { s with workerQueues := l₁ ++ ⟨v, js⟩ :: l₂, nextEnqueueWorker := c } ∧
      s.workerQueues = l₁ ++ ⟨v, j :: js⟩ :: l₂) := by
  by_cases hlen : s.workerQueues.length ≤ 1
  · refine Or.inl ⟨s.nextEnqueueWorker, by simp [tryStealJobLocked, hlen], fun q hq hne => ?_⟩
    exact absurd (h.eq_of_length_le_one hlen hq) hne
  · have hpos : 0 < s.workerQueues.length := by omega
    rcases probeVictims_cases i (s.nextEnqueueWorker % s.workerQueues.length) s.workerQueues hpos
        (List.range s.workerQueues.length) with ⟨hnone, hempty⟩ | ⟨l₁, v, j, js, l₂, hqs, hsome⟩
    · refine Or.inl ⟨(s.nextEnqueueWorker + 1) % usizeModulus, ?_, fun q hq hne => ?_⟩
      · simp [tryStealJobLocked, hlen, fetchAddCursor, hnone]
      · -- the round of probes has visited the place of `q`
        obtain ⟨k, hk⟩ := List.mem_iff_getElem?.mp hq
        have hklt : k < s.workerQueues.length := (List.getElem?_eq_some_iff.mp hk).1
        obtain ⟨o, ho, hok⟩ := exists_offset (s.nextEnqueueWorker % s.workerQueues.length) hklt
        exact hempty o (List.mem_range.mpr ho) q (by rw [hok, hk]) hne
    · refine Or.inr ⟨(s.nextEnqueueWorker + 1) % usizeModulus, l₁, v, j, js, l₂, ?_, hqs⟩
      simp [tryStealJobLocked, hlen, fetchAddCursor, hsome]

/-- The state after a job was taken, but for the queue it was taken from. -/
def ThreadPoolState.claim (st : ThreadPoolState Job) : ThreadPoolState Job :=
  { st with queuedTasks := st.queuedTasks - 1, runningTasks := st.runningTasks + 1 }

theorem accountClaim_run {s : Pool Job} (h : 0 < s.state.queuedTasks) :
    accountClaim.run s = .ok () { s with state := s.state.claim } := by
  simp [accountClaim, checkedSub_run_of_pos h, ThreadPoolState.claim]

/-- What the global queue has to offer once the local ones are known to be
empty. -/
theorem takeGlobal_cases {s : Pool Job} {i : ℕ} (h : QueuesOk s i)
    (hlocal : ∀ q ∈ s.workerQueues, q.jobs = []) :
    (s.state.queue = [] ∧ s.queuedJobs = []) ∨
      ∃ j js, s.state.queue = j :: js ∧ 0 < s.state.queuedTasks := by
  cases hq : s.state.queue with
  | nil => exact Or.inl ⟨rfl, by simpa [Pool.queuedJobs, hq] using hlocal⟩
  | cons j js =>
    refine Or.inr ⟨j, js, rfl, ?_⟩
    rw [h.queued, Pool.queuedJobs, hq]
    simp

/-- **What a worker finds when it looks for a job**: nothing, and then no job
waits anywhere; or the oldest job of the global queue, or of some local one. -/
theorem tryTakeQueuedJobLocked_run {s : Pool Job} {i : ℕ} (h : QueuesOk s i) :
    (∃ c, (tryTakeQueuedJobLocked i).run s = .ok none { s with nextEnqueueWorker := c } ∧
      s.queuedJobs = []) ∨
    (∃ c j js, (tryTakeQueuedJobLocked i).run s =
        .ok (some j)
          { s with state := { s.state.claim with queue := js }, nextEnqueueWorker := c } ∧
      s.state.queue = j :: js) ∨
    (∃ c l₁ v j js l₂, (tryTakeQueuedJobLocked i).run s =
        .ok (some j) { s with state := s.state.claim, workerQueues := l₁ ++ ⟨v, js⟩ :: l₂,
                              nextEnqueueWorker := c } ∧
      s.workerQueues = l₁ ++ ⟨v, j :: js⟩ :: l₂) := by
  -- a job found in a local queue is counted
  have hpos : ∀ {l₁ v j js l₂}, s.workerQueues = l₁ ++ ⟨v, j :: js⟩ :: l₂ →
      0 < s.state.queuedTasks := by
    intro l₁ v j js l₂ hqs
    rw [h.queued, Pool.queuedJobs, hqs]
    simp
  by_cases hcap : s.state.queueCapacity.isSome = true
  · rcases popOwn_cases i s.workerQueues with ⟨hown, hempty⟩ | ⟨l₁, j, js, l₂, hqs, hown⟩
    · rcases tryStealJobLocked_run h with ⟨c, hsteal, hothers⟩ | ⟨c, l₁, v, j, js, l₂, hsteal, hqs⟩
      · have hlocal : ∀ q ∈ s.workerQueues, q.jobs = [] := by
          intro q hq
          by_cases hi : q.workerIndex = i
          · exact hempty h.nodup q hq hi
          · exact hothers q hq hi
        rcases takeGlobal_cases h hlocal with ⟨hq, hnil⟩ | ⟨j, js, hq, hlt⟩
        · exact Or.inl ⟨c, by simp [tryTakeQueuedJobLocked, hcap, hown, hsteal, hq], hnil⟩
        · refine Or.inr (Or.inl ⟨c, j, js, ?_, hq⟩)
          simp [tryTakeQueuedJobLocked, hcap, hown, hsteal, hq, accountClaim_run, hlt,
            ThreadPoolState.claim]
      · refine Or.inr (Or.inr ⟨c, l₁, v, j, js, l₂, ?_, hqs⟩)
        simp [tryTakeQueuedJobLocked, hcap, hown, hsteal, accountClaim_run, hpos hqs]
    · refine Or.inr (Or.inr ⟨s.nextEnqueueWorker, l₁, i, j, js, l₂, ?_, hqs⟩)
      simp [tryTakeQueuedJobLocked, hcap, hown, accountClaim_run, hpos hqs]
  · have hlocal := h.unbounded (by simpa using hcap)
    rcases takeGlobal_cases h hlocal with ⟨hq, hnil⟩ | ⟨j, js, hq, hlt⟩
    · exact Or.inl ⟨s.nextEnqueueWorker, by simp [tryTakeQueuedJobLocked, hcap, hq], hnil⟩
    · refine Or.inr (Or.inl ⟨s.nextEnqueueWorker, j, js, ?_, hq⟩)
      simp [tryTakeQueuedJobLocked, hcap, hq, accountClaim_run, hlt, ThreadPoolState.claim]

/-! ### Spawning -/

/-- The pool after a worker thread was created. -/
def Pool.spawned (firstTask : Option Job) (s : Pool Job) : Pool Job :=
  { s with
    state :=
      { s.state with
        nextWorkerIndex := s.state.nextWorkerIndex + 1
        liveWorkers := s.state.liveWorkers + 1
        runningTasks := s.state.runningTasks + firstTask.toList.length }
    workerQueues := s.workerQueues ++ [⟨s.state.nextWorkerIndex, []⟩]
    workers := s.workers ++
      [{ index := s.state.nextWorkerIndex
         name := s.threadNamePrefix ++ "-" ++ toString s.state.nextWorkerIndex
         phase := firstTask.elim .ready .holding }] }

/-- The pool after creating a worker thread has panicked: everything but the thread
is there. -/
def Pool.stillborn (firstTask : Option Job) (s : Pool Job) : Pool Job :=
  { s.spawned firstTask with
    workers := s.workers ++
      [{ index := s.state.nextWorkerIndex
         name := s.threadNamePrefix ++ "-" ++ toString s.state.nextWorkerIndex
         phase := .unborn }] }

/-- The state after a thread creation failed. What was counted for a first task
is taken back – and, without a first task, what was not. -/
def ThreadPoolState.spawnFailed (firstTask : Option Job) (st : ThreadPoolState Job) :
    ThreadPoolState Job :=
  { st with
    nextWorkerIndex := st.nextWorkerIndex + 1
    runningTasks := st.runningTasks + firstTask.toList.length - 1 }

theorem spawnWorkerLocked_run_ok (firstTask : Option Job) (s : Pool Job) :
    (spawnWorkerLocked firstTask .ok).run s = .ok (.ok ()) (s.spawned firstTask) := by
  cases firstTask with
  | none => simp [spawnWorkerLocked, registerWorkerQueueLocked, addWorker, Pool.spawned,
      WorkerQueue.new]
  | some job => simp [spawnWorkerLocked, registerWorkerQueueLocked, addWorker, Pool.spawned,
      WorkerQueue.new]

/-- Where creating a thread panics, nothing is taken back. -/
theorem spawnWorkerLocked_run_panicked (firstTask : Option Job) (message : String) (s : Pool Job) :
    (spawnWorkerLocked firstTask (.panicked message)).run s =
      .error message (s.stillborn firstTask) := by
  cases firstTask with
  | none => simp [spawnWorkerLocked, registerWorkerQueueLocked, addWorker, Pool.stillborn,
      Pool.spawned, WorkerQueue.new]
  | some job => simp [spawnWorkerLocked, registerWorkerQueueLocked, addWorker, Pool.stillborn,
      Pool.spawned, WorkerQueue.new]

/-- A failed thread creation leaves the registered queues as they were, provided
the index it had taken was free. -/
theorem spawnWorkerLocked_run_error (firstTask : Option Job) (source : IoError) {s : Pool Job}
    (hfresh : s.state.nextWorkerIndex ∉ s.workerQueues.map WorkerQueue.workerIndex) :
    (spawnWorkerLocked firstTask (.error source)).run s =
      .ok (.error (.workerSpawnFailed source))
        (Pool.notifyTerminated { s with state := s.state.spawnFailed firstTask }) := by
  have hremove : removeQueue s.state.nextWorkerIndex
      (s.workerQueues ++ [WorkerQueue.new s.state.nextWorkerIndex]) = ([], s.workerQueues) := by
    simpa [WorkerQueue.new] using
      removeQueue_split s.workerQueues [] s.state.nextWorkerIndex [] hfresh
  cases firstTask with
  | none =>
    by_cases hrun : 0 < s.state.runningTasks
    · simp [spawnWorkerLocked, registerWorkerQueueLocked, removeWorkerQueueLocked, hremove,
        ThreadPoolState.spawnFailed, hrun]
    · have hzero : s.state.runningTasks = 0 := by omega
      simp [spawnWorkerLocked, registerWorkerQueueLocked, removeWorkerQueueLocked, hremove,
        ThreadPoolState.spawnFailed, hzero]
  | some job =>
    simp [spawnWorkerLocked, registerWorkerQueueLocked, removeWorkerQueueLocked, hremove,
      ThreadPoolState.spawnFailed]

/-! ### Leaving the pool -/

/-- **What an exiting worker leaves behind**: its queue is gone, the jobs left in
it are at the end of the global queue, and one worker less is counted. -/
theorem unregisterExitingWorker_run {s : Pool Job} {l₁ l₂ : List (WorkerQueue Job)} {i : ℕ}
    {js : List Job} (hqs : s.workerQueues = l₁ ++ ⟨i, js⟩ :: l₂)
    (hi : i ∉ l₁.map WorkerQueue.workerIndex) (hlive : 0 < s.state.liveWorkers) :
    (unregisterExitingWorker i).run s =
      .ok () (Pool.notifyTerminated
        { s with
          state := { s.state with queue := s.state.queue ++ js
                                  liveWorkers := s.state.liveWorkers - 1 }
          workerQueues := l₁ ++ l₂ }) := by
  simp [unregisterExitingWorker, removeWorkerQueueLocked, hqs, removeQueue_split _ _ _ _ hi,
    checkedSub_run_of_pos hlive]

/-! ### Submission

One lemma for each way `submit` can go. -/

section Submit

variable {s : Pool Job} (job : Job)

/-- The state after a job was accepted into a queue, but for the queue. -/
def ThreadPoolState.enqueue (st : ThreadPoolState Job) : ThreadPoolState Job :=
  { st with submittedTasks := st.submittedTasks + 1, queuedTasks := st.queuedTasks + 1 }

/-- What `submit` leaves behind once the job is in a queue: a notification if
some worker is counted as idle. -/
def ThreadPoolState.enqueueCall (st : ThreadPoolState Job) : Call Job :=
  if 0 < st.idleWorkers then .submitNotify else .returned (.submit (.ok ()))

theorem submit_run_of_not_running (h : s.state.lifecycle ≠ .running)
    (spawned : SpawnOutcome) :
    (submit job spawned).run s = .ok (.returned (.submit (.error .shutdown))) s := by
  simp [submit, h]

variable (hrun : s.state.lifecycle = .running)

include hrun

/-- The job is handed to a new worker: a core worker is missing, or the queue is
full and the pool may still grow. -/
theorem submit_run_spawn_ok
    (hroom : s.state.liveWorkers < s.state.corePoolSize ∨
      s.state.isSaturated = true ∧ s.state.liveWorkers < s.state.maximumPoolSize) :
    (submit job .ok).run s =
      .ok (.returned (.submit (.ok ())))
        { s.spawned (some job) with
          state := { (s.spawned (some job)).state with
            submittedTasks := s.state.submittedTasks + 1 } } := by
  have hnew : (submitToNewWorker job .ok).run s =
      .ok (.returned (.submit (.ok ())))
        { s.spawned (some job) with
          state := { (s.spawned (some job)).state with
            submittedTasks := s.state.submittedTasks + 1 } } := by
    simp only [submitToNewWorker, EStateM.run_bind, spawnWorkerLocked_run_ok, modifyState_run,
      EStateM.run_pure]
    rfl
  by_cases hcore : s.state.liveWorkers < s.state.corePoolSize
  · simp [submit, hrun, hcore, hnew]
  · obtain ⟨hsat, hmax⟩ := hroom.resolve_left hcore
    simp [submit, hrun, hcore, hsat, hmax, hnew]

/-- The new worker the job was meant for could not be created. -/
theorem submit_run_spawn_error (source : IoError)
    (hfresh : s.state.nextWorkerIndex ∉ s.workerQueues.map WorkerQueue.workerIndex)
    (hroom : s.state.liveWorkers < s.state.corePoolSize ∨
      s.state.isSaturated = true ∧ s.state.liveWorkers < s.state.maximumPoolSize) :
    (submit job (.error source)).run s =
      .ok (.returned (.submit (.error (.workerSpawnFailed source))))
        { s with state := s.state.spawnFailed (some job) } := by
  have hnew : (submitToNewWorker job (.error source)).run s =
      .ok (.returned (.submit (.error (.workerSpawnFailed source))))
        { s with state := s.state.spawnFailed (some job) } := by
    simp only [submitToNewWorker, EStateM.run_bind, spawnWorkerLocked_run_error _ _ hfresh,
      EStateM.run_pure]
    rw [Pool.notifyTerminated_of_running (by simpa [ThreadPoolState.spawnFailed] using hrun)]
  by_cases hcore : s.state.liveWorkers < s.state.corePoolSize
  · simp [submit, hrun, hcore, hnew]
  · obtain ⟨hsat, hmax⟩ := hroom.resolve_left hcore
    simp [submit, hrun, hcore, hsat, hmax, hnew]

/-- Creating the new worker the job was meant for has panicked. -/
theorem submit_run_spawn_panicked (message : String)
    (hroom : s.state.liveWorkers < s.state.corePoolSize ∨
      s.state.isSaturated = true ∧ s.state.liveWorkers < s.state.maximumPoolSize) :
    (submit job (.panicked message)).run s = .error message (s.stillborn (some job)) := by
  have hnew : (submitToNewWorker job (.panicked message)).run s =
      .error message (s.stillborn (some job)) := by
    simp only [submitToNewWorker, EStateM.run_bind, spawnWorkerLocked_run_panicked]
  by_cases hcore : s.state.liveWorkers < s.state.corePoolSize
  · simp [submit, hrun, hcore, hnew]
  · obtain ⟨hsat, hmax⟩ := hroom.resolve_left hcore
    simp [submit, hrun, hcore, hsat, hmax, hnew]

variable (hcore : s.state.corePoolSize ≤ s.state.liveWorkers)

include hcore

/-- The queue is full and so is the pool. -/
theorem submit_run_saturated (hsat : s.state.isSaturated = true)
    (hmax : s.state.maximumPoolSize ≤ s.state.liveWorkers) (spawned : SpawnOutcome) :
    (submit job spawned).run s = .ok (.returned (.submit (.error .saturated))) s := by
  simp [submit, hrun, hsat, Nat.not_lt.mpr hcore, Nat.not_lt.mpr hmax]

variable (hsat : s.state.isSaturated = false)

include hsat

/-- The job goes to the global queue: the pool is unbounded, or some worker is
counted as idle. -/
theorem submit_run_global (hlive : 0 < s.state.liveWorkers)
    (hglobal : s.state.queueCapacity = none ∨ 0 < s.state.idleWorkers)
    (spawned : SpawnOutcome) :
    (submit job spawned).run s =
      .ok s.state.enqueueCall
        { s with state := { s.state.enqueue with queue := s.state.queue ++ [job] } } := by
  have huse : ¬((s.state.queueCapacity.isSome = true ∧ s.state.idleWorkers = 0) ∧
      0 < s.state.liveWorkers) := by
    rintro ⟨⟨hsome, hidle⟩, -⟩
    rcases hglobal with h | h
    · simp [h] at hsome
    · omega
  simp [submit, hrun, hsat, Nat.not_lt.mpr hcore, submitToQueue, pushQueuedJob, huse, hlive.ne',
    ThreadPoolState.enqueueCall, ThreadPoolState.enqueue]

/-- The job goes to the local queue the cursor picks: the pool is bounded and no
worker is counted as idle. -/
theorem submit_run_local (hlive : 0 < s.state.liveWorkers)
    (hcap : s.state.queueCapacity.isSome = true) (hidle : s.state.idleWorkers = 0)
    (hqs : s.workerQueues ≠ []) (spawned : SpawnOutcome) :
    ∃ l₁ q l₂, s.workerQueues = l₁ ++ q :: l₂ ∧
      (submit job spawned).run s =
        .ok s.state.enqueueCall
          { s with state := s.state.enqueue, workerQueues := l₁ ++ q.pushBack job :: l₂
                   nextEnqueueWorker := (s.nextEnqueueWorker + 1) % usizeModulus } := by
  have hlt : s.nextEnqueueWorker % s.workerQueues.length < s.workerQueues.length :=
    Nat.mod_lt _ (List.length_pos_iff.mpr hqs)
  obtain ⟨q, hq⟩ : ∃ q, s.workerQueues[s.nextEnqueueWorker % s.workerQueues.length]? = some q :=
    ⟨_, List.getElem?_eq_getElem hlt⟩
  obtain ⟨l₁, l₂, hsplit, hlen⟩ := exists_split_of_getElem? hq
  refine ⟨l₁, q, l₂, hsplit, ?_⟩
  have hmodify : s.workerQueues.modify (s.nextEnqueueWorker % s.workerQueues.length)
      (·.pushBack job) = l₁ ++ q.pushBack job :: l₂ := by
    rw [← hlen]
    conv_lhs => rw [hsplit]
    rw [modify_split]
  simp [submit, hrun, hsat, Nat.not_lt.mpr hcore, submitToQueue, pushQueuedJob, hlive, hlive.ne',
    hcap, hidle, tryEnqueueWorkerJobLocked, fetchAddCursor, hqs, hmodify,
    ThreadPoolState.enqueueCall, ThreadPoolState.enqueue]

/-- The pool has no worker at all, and the one that is to serve the queued job is
created. -/
theorem submit_run_first_ok (hlive : s.state.liveWorkers = 0) :
    (submit job .ok).run s =
      .ok s.state.enqueueCall
        { s.spawned none with
          state := { (s.spawned none).state.enqueue with queue := s.state.queue ++ [job] } } := by
  have hcore0 : s.state.corePoolSize = 0 := by omega
  simp [submit, hrun, hsat, hlive, hcore0, submitToQueue, pushQueuedJob, spawnWorkerLocked_run_ok,
    ThreadPoolState.enqueueCall, ThreadPoolState.enqueue, Pool.spawned]

/-- The pool has no worker at all, and none can be created: the job is taken off
the queue again. -/
theorem submit_run_first_error (source : IoError)
    (hfresh : s.state.nextWorkerIndex ∉ s.workerQueues.map WorkerQueue.workerIndex)
    (hlive : s.state.liveWorkers = 0) :
    (submit job (.error source)).run s =
      .ok (.submitRollback job (.workerSpawnFailed source) false)
        { s with state := s.state.spawnFailed none } := by
  have hcore0 : s.state.corePoolSize = 0 := by omega
  have hspawn := spawnWorkerLocked_run_error (none : Option Job) source
    (s := { s with state := { s.state.enqueue with queue := s.state.queue ++ [job] } }) hfresh
  rw [Pool.notifyTerminated_of_running
    (by simpa [ThreadPoolState.spawnFailed, ThreadPoolState.enqueue] using hrun)] at hspawn
  simp only [ThreadPoolState.enqueue, hrun, hlive, hcore0] at hspawn
  simp [submit, hrun, hsat, hlive, hcore0, submitToQueue, pushQueuedJob, hspawn, popQueuedJob,
    ThreadPoolState.spawnFailed]

/-- The pool has no worker at all, and creating one panics: the job stays in the
queue. -/
theorem submit_run_first_panicked (message : String) (hlive : s.state.liveWorkers = 0) :
    (submit job (.panicked message)).run s =
      .error message
        { s.stillborn none with
          state := { (s.stillborn none).state.enqueue with
            queue := s.state.queue ++ [job] } } := by
  have hcore0 : s.state.corePoolSize = 0 := by omega
  simp [submit, hrun, hsat, hlive, hcore0, submitToQueue, pushQueuedJob,
    spawnWorkerLocked_run_panicked, ThreadPoolState.enqueue, Pool.stillborn, Pool.spawned]

end Submit

/-! ### Prestart -/

section Prestart

variable {s : Pool Job}

theorem prestartCoreThread_run_of_not_running (h : s.state.lifecycle ≠ .running)
    (spawned : SpawnOutcome) :
    (prestartCoreThread spawned).run s = .ok (.error .shutdown) s := by
  simp [prestartCoreThread, h]

variable (hrun : s.state.lifecycle = .running)

include hrun

theorem prestartCoreThread_run_full (hcore : s.state.corePoolSize ≤ s.state.liveWorkers)
    (spawned : SpawnOutcome) :
    (prestartCoreThread spawned).run s = .ok (.ok false) s := by
  simp [prestartCoreThread, hrun, hcore]

theorem prestartCoreThread_run_ok (hcore : s.state.liveWorkers < s.state.corePoolSize) :
    (prestartCoreThread .ok).run s = .ok (.ok true) (s.spawned none) := by
  simp [prestartCoreThread, hrun, Nat.not_le.mpr hcore, spawnWorkerLocked_run_ok]

theorem prestartCoreThread_run_error (hcore : s.state.liveWorkers < s.state.corePoolSize)
    (source : IoError)
    (hfresh : s.state.nextWorkerIndex ∉ s.workerQueues.map WorkerQueue.workerIndex) :
    (prestartCoreThread (.error source)).run s =
      .ok (.error (.workerSpawnFailed source)) { s with state := s.state.spawnFailed none } := by
  have hspawn := spawnWorkerLocked_run_error (none : Option Job) source hfresh
  rw [Pool.notifyTerminated_of_running (by simpa [ThreadPoolState.spawnFailed] using hrun)]
    at hspawn
  simp [prestartCoreThread, hrun, Nat.not_le.mpr hcore, hspawn]

theorem prestartCoreThread_run_panicked (hcore : s.state.liveWorkers < s.state.corePoolSize)
    (message : String) :
    (prestartCoreThread (.panicked message)).run s = .error message (s.stillborn none) := by
  simp [prestartCoreThread, hrun, Nat.not_le.mpr hcore, spawnWorkerLocked_run_panicked]

end Prestart

/-! ### Setters -/

/-- The sizes and the keep-alive time a builder accepts. -/
structure SizesOk (core maximum : ℕ) (keepAlive : Duration) : Prop where
  /-- Some worker may be created. -/
  maximum_pos : 0 < maximum
  /-- The core fits into the pool. -/
  core_le : core ≤ maximum
  /-- A timed wait takes some time. -/
  keepAlive_pos : 0 < keepAlive

/-- The state with new values of what the setters set. -/
def ThreadPoolState.configured (core maximum : ℕ) (keepAlive : Duration) (allow : Bool)
    (st : ThreadPoolState Job) : ThreadPoolState Job :=
  { st with corePoolSize := core, maximumPoolSize := maximum, keepAlive := keepAlive
            allowCoreThreadTimeout := allow }

/-- The ways a setter can go. -/
inductive Configured (s : Pool Job) : Call Job → Pool Job → Prop
  /-- The value was refused, and nothing has changed. -/
  | refused (error : ThreadPoolBuildError) : Configured s (.returned (.setter (.error error))) s
  /-- The value was written, and everybody is to be told. -/
  | written (core maximum : ℕ) (keepAlive : Duration) (allow : Bool)
      (hsizes : SizesOk s.state.corePoolSize s.state.maximumPoolSize s.state.keepAlive →
        SizesOk core maximum keepAlive) :
      Configured s .setterNotify
        { s with state := s.state.configured core maximum keepAlive allow }

section Setters

variable (s : Pool Job)

theorem setCorePoolSize_run (n : ℕ) :
    ∃ c s', (setCorePoolSize n).run s = .ok c s' ∧ Configured s c s' := by
  by_cases h : s.state.maximumPoolSize < n
  · refine ⟨_, _, ?_, .refused (.corePoolSizeExceedsMaximum n s.state.maximumPoolSize)⟩
    simp [setCorePoolSize, h]
  · refine ⟨_, _, ?_, .written n s.state.maximumPoolSize s.state.keepAlive
      s.state.allowCoreThreadTimeout
      fun hs => ⟨hs.maximum_pos, Nat.not_lt.mp h, hs.keepAlive_pos⟩⟩
    simp [setCorePoolSize, h, ThreadPoolState.configured]

theorem setMaximumPoolSize_run (n : ℕ) :
    ∃ c s', (setMaximumPoolSize n).run s = .ok c s' ∧ Configured s c s' := by
  by_cases hzero : n = 0
  · refine ⟨_, _, ?_, .refused .zeroMaximumPoolSize⟩
    simp [setMaximumPoolSize, hzero]
  · by_cases h : n < s.state.corePoolSize
    · refine ⟨_, _, ?_, .refused (.corePoolSizeExceedsMaximum s.state.corePoolSize n)⟩
      simp [setMaximumPoolSize, hzero, h]
    · refine ⟨_, _, ?_, .written s.state.corePoolSize n s.state.keepAlive
        s.state.allowCoreThreadTimeout
        fun hs => ⟨Nat.pos_of_ne_zero hzero, Nat.not_lt.mp h, hs.keepAlive_pos⟩⟩
      simp [setMaximumPoolSize, hzero, h, ThreadPoolState.configured]

theorem setKeepAlive_run (d : Duration) :
    ∃ c s', (setKeepAlive d).run s = .ok c s' ∧ Configured s c s' := by
  by_cases hzero : d = 0
  · refine ⟨_, _, ?_, .refused .zeroKeepAlive⟩
    simp [setKeepAlive, hzero]
  · refine ⟨_, _, ?_, .written s.state.corePoolSize s.state.maximumPoolSize d
      s.state.allowCoreThreadTimeout
      fun hs => ⟨hs.maximum_pos, hs.core_le, Nat.pos_of_ne_zero hzero⟩⟩
    simp [setKeepAlive, hzero, ThreadPoolState.configured]

theorem allowCoreThreadTimeout_run (allow : Bool) :
    ∃ c s', (allowCoreThreadTimeout allow).run s = .ok c s' ∧ Configured s c s' := by
  refine ⟨_, _, ?_, .written s.state.corePoolSize s.state.maximumPoolSize s.state.keepAlive allow
    fun hs => ⟨hs.maximum_pos, hs.core_le, hs.keepAlive_pos⟩⟩
  simp [allowCoreThreadTimeout, ThreadPoolState.configured]

end Setters

/-! ### Shutdown -/

/-- Waking everybody twice is waking them once. -/
@[simp] theorem Pool.wakeAll_wakeAll (s : Pool Job) : s.wakeAll.wakeAll = s.wakeAll := by
  have hphase : ∀ p : WorkerPhase Job, p.wake.wake = p.wake := by
    intro p
    cases p with
    | waiting timeout wake => cases wake <;> rfl
    | _ => rfl
  have hcall : ∀ c : Call Job, c.wake.wake = c.wake := by
    intro c
    cases c <;> rfl
  simp [wakeAll, Worker.wake, Function.comp_def, hphase, hcall]

/-- Once everybody is awake, the notification of termination does nothing. -/
@[simp] theorem Pool.notifyTerminated_wakeAll (s : Pool Job) :
    s.wakeAll.notifyTerminated = s.wakeAll := by
  rw [notifyTerminated]
  split_ifs with h
  · exact Pool.wakeAll_wakeAll s
  · rfl

theorem shutdown_run (s : Pool Job) :
    shutdown.run s =
      .ok (.returned .shutdown)
        (Pool.wakeAll { s with state := { s.state with lifecycle :=
          if s.state.lifecycle = .running then .shutdown else s.state.lifecycle } }) := by
  by_cases h : s.state.lifecycle = .running
  · simp [shutdown, h]
  · simp [shutdown, h]

/-- What `shutdown_now` leaves of the pool: nothing waits in it any more. -/
def Pool.drain (s : Pool Job) : Pool Job :=
  { s with
    state :=
      { s.state with
        lifecycle := .stopping
        queue := []
        queuedTasks := 0
        cancelledTasks := s.state.cancelledTasks + s.state.queuedTasks }
    workerQueues := s.workerQueues.map fun q => { q with jobs := [] } }

/-- Nothing waits in a drained pool. -/
@[simp] theorem Pool.queuedJobs_drain (s : Pool Job) : s.drain.queuedJobs = [] := by
  simp [queuedJobs, drain, List.flatMap_eq_nil_iff]

theorem shutdownNow_run (s : Pool Job) :
    shutdownNow.run s =
      .ok (.shutdownNow s.queuedJobs none
          ⟨s.state.queuedTasks, s.state.runningTasks, s.state.queuedTasks⟩)
        s.drain.wakeAll := by
  have hlife : s.state.lifecycle = .running ∨ s.state.lifecycle = .shutdown ∨
      s.state.lifecycle = .stopping := by
    cases s.state.lifecycle <;> simp
  rcases hlife with h | h | h
  all_goals
    simp [shutdownNow, drainAllWorkerQueuedJobsLocked, h, ThreadPoolLifecycle.isRunning,
      ThreadPoolLifecycle.isShutdown, Pool.drain, Pool.queuedJobs]

theorem isTerminated_run (s : Pool Job) :
    isTerminated.run s = .ok (.returned (.isTerminated s.state.isTerminated)) s := rfl

theorem waitForTermination_run (s : Pool Job) :
    waitForTermination.run s =
      .ok (if s.state.isTerminated then .returned .waitForTermination
        else .waitForTermination false) s := by
  by_cases h : s.state.isTerminated = true
  · simp [waitForTermination, h]
  · simp [waitForTermination, h]

/-! ### The worker loop -/

theorem finishRunningJob_run_zero {s : Pool Job} (h : s.state.runningTasks = 0) :
    finishRunningJob.run s = .error "thread pool running task counter underflow" s := by
  simp [finishRunningJob, h]

theorem finishRunningJob_run_of_pos {s : Pool Job} (h : 0 < s.state.runningTasks) :
    finishRunningJob.run s =
      .ok () (Pool.notifyTerminated
        { s with state := { s.state with runningTasks := s.state.runningTasks - 1
                                         completedTasks := s.state.completedTasks + 1 } }) := by
  simp [finishRunningJob, checkedSub_run_of_pos h]

/-- The registered queues split at the one of a registered worker. -/
theorem QueuesOk.exists_split {s : Pool Job} {i : ℕ} (h : QueuesOk s i) :
    ∃ l₁ js l₂, s.workerQueues = l₁ ++ ⟨i, js⟩ :: l₂ ∧ i ∉ l₁.map WorkerQueue.workerIndex := by
  obtain ⟨q, hq, rfl⟩ := List.mem_map.mp h.registered
  obtain ⟨l₁, l₂, hsplit⟩ := List.append_of_mem hq
  refine ⟨l₁, q.jobs, l₂, hsplit, fun hmem => ?_⟩
  have hnd := h.nodup
  rw [hsplit, List.map_append, List.map_cons] at hnd
  exact (List.nodup_append.mp hnd).2.2 _ hmem _ (List.mem_cons_self ..) rfl

/-- The pool after a worker with nothing left to do has unregistered itself, but
for the thread. -/
def Pool.unregistered (l₁ l₂ : List (WorkerQueue Job)) (s : Pool Job) : Pool Job :=
  { s with state := { s.state with liveWorkers := s.state.liveWorkers - 1 }
           workerQueues := l₁ ++ l₂ }

/-- A worker that leaves while nothing waits leaves an empty queue behind. -/
theorem unregisterExitingWorker_run_idle {s : Pool Job} {i : ℕ} (h : QueuesOk s i)
    (hlive : 0 < s.state.liveWorkers) (hnil : s.queuedJobs = []) :
    ∃ l₁ l₂, s.workerQueues = l₁ ++ ⟨i, []⟩ :: l₂ ∧
      (unregisterExitingWorker i).run s = .ok () (s.unregistered l₁ l₂).notifyTerminated := by
  obtain ⟨l₁, js, l₂, hqs, hi⟩ := h.exists_split
  have hjs : js = [] := by
    simp only [Pool.queuedJobs, hqs, List.append_eq_nil_iff, List.flatMap_append,
      List.flatMap_cons] at hnil
    exact hnil.2.2.1
  subst hjs
  refine ⟨l₁, l₂, hqs, ?_⟩
  rw [unregisterExitingWorker_run hqs hi hlive]
  simp [Pool.unregistered]

/-- The timeout an idle worker parks with, if it does not wait forever. -/
def ThreadPoolState.waitTimeout (st : ThreadPoolState Job) : Option Duration :=
  if st.workerWaitIsTimed then some st.keepAlive else none

/-- The ways a round of `wait_for_job` can end. -/
inductive Waited (s : Pool Job) (i : ℕ) : WaitOutcome Job → Pool Job → Prop
  /-- The oldest job of the global queue was taken. -/
  | takeGlobal (c : ℕ) (j : Job) (js : List Job) (hlife : s.state.lifecycle ≠ .stopping)
      (hq : s.state.queue = j :: js) :
      Waited s i (.job j)
        { s with state := { s.state.claim with queue := js }, nextEnqueueWorker := c }
  /-- The oldest job of a local queue was taken. -/
  | takeLocal (c v : ℕ) (j : Job) (js : List Job) (l₁ l₂ : List (WorkerQueue Job))
      (hlife : s.state.lifecycle ≠ .stopping) (hqs : s.workerQueues = l₁ ++ ⟨v, j :: js⟩ :: l₂) :
      Waited s i (.job j)
        { s with state := s.state.claim, workerQueues := l₁ ++ ⟨v, js⟩ :: l₂,
                 nextEnqueueWorker := c }
  /-- Nothing waits and the worker parks. -/
  | park (c : ℕ) (hrun : s.state.lifecycle = .running) (hnil : s.queuedJobs = [])
      (hmax : s.state.liveWorkers ≤ s.state.maximumPoolSize) :
      Waited s i (.park s.state.waitTimeout)
        { s with state := { s.state with idleWorkers := s.state.idleWorkers + 1 }
                 nextEnqueueWorker := c }
  /-- Nothing waits and the worker leaves. -/
  | exit (c : ℕ) (l₁ l₂ : List (WorkerQueue Job)) (hnil : s.queuedJobs = [])
      (hwhy : s.state.lifecycle ≠ .running ∨ s.state.idleWorkerCanRetire = true)
      (hqs : s.workerQueues = l₁ ++ ⟨i, []⟩ :: l₂) :
      Waited s i .exit
        (Pool.notifyTerminated { s.unregistered l₁ l₂ with nextEnqueueWorker := c })

/-- Where the cursor points matters to none of the facts a worker relies on. -/
theorem QueuesOk.moveCursor {s : Pool Job} {i : ℕ} (h : QueuesOk s i) (c : ℕ) :
    QueuesOk { s with nextEnqueueWorker := c } i :=
  ⟨h.nodup, h.registered, h.queued, h.unbounded⟩

/-- **What a round of `wait_for_job` does.** -/
theorem waitForJob_run {s : Pool Job} {i : ℕ} (h : QueuesOk s i) (hlive : 0 < s.state.liveWorkers)
    (hstop : s.state.lifecycle = .stopping → s.queuedJobs = []) :
    ∃ o s', (waitForJob i).run s = .ok o s' ∧ Waited s i o s' := by
  -- leaving, with the cursor moved or not
  have hleave : ∀ c, s.queuedJobs = [] →
      ∃ l₁ l₂, s.workerQueues = l₁ ++ ⟨i, []⟩ :: l₂ ∧
        (unregisterExitingWorker i).run { s with nextEnqueueWorker := c } =
          .ok () (Pool.notifyTerminated { s.unregistered l₁ l₂ with nextEnqueueWorker := c }) :=
    fun c hnil => unregisterExitingWorker_run_idle (h.moveCursor c) hlive hnil
  cases hlife : s.state.lifecycle with
  | running =>
    rcases tryTakeQueuedJobLocked_run h with ⟨c, htake, hnil⟩ | ⟨c, j, js, htake, hq⟩ |
      ⟨c, l₁, v, j, js, l₂, htake, hqs⟩
    · by_cases hmax : s.state.maximumPoolSize < s.state.liveWorkers
      · obtain ⟨l₁, l₂, hqs, hrun⟩ := hleave c hnil
        refine ⟨_, _, ?_, .exit c l₁ l₂ hnil (Or.inr ?_) hqs⟩
        · simp [waitForJob, hlife, htake, hmax, hlive, hrun]
        · simp [ThreadPoolState.idleWorkerCanRetire, hmax]
      · refine ⟨_, _, ?_, .park c hlife hnil (Nat.not_lt.mp hmax)⟩
        by_cases htimed : s.state.workerWaitIsTimed = true
        · simp [waitForJob, hlife, htake, hmax, htimed, ThreadPoolState.waitTimeout]
        · simp [waitForJob, hlife, htake, hmax, htimed, ThreadPoolState.waitTimeout]
    · exact ⟨_, _, by simp [waitForJob, hlife, htake], .takeGlobal c j js (by simp [hlife]) hq⟩
    · exact ⟨_, _, by simp [waitForJob, hlife, htake],
        .takeLocal c v j js l₁ l₂ (by simp [hlife]) hqs⟩
  | shutdown =>
    rcases tryTakeQueuedJobLocked_run h with ⟨c, htake, hnil⟩ | ⟨c, j, js, htake, hq⟩ |
      ⟨c, l₁, v, j, js, l₂, htake, hqs⟩
    · obtain ⟨l₁, l₂, hqs, hrun⟩ := hleave c hnil
      exact ⟨_, _, by simp [waitForJob, hlife, htake, hrun],
        .exit c l₁ l₂ hnil (Or.inl (by simp [hlife])) hqs⟩
    · exact ⟨_, _, by simp [waitForJob, hlife, htake], .takeGlobal c j js (by simp [hlife]) hq⟩
    · exact ⟨_, _, by simp [waitForJob, hlife, htake],
        .takeLocal c v j js l₁ l₂ (by simp [hlife]) hqs⟩
  | stopping =>
    obtain ⟨l₁, l₂, hqs, hrun⟩ := hleave s.nextEnqueueWorker (hstop hlife)
    exact ⟨_, _, by simp [waitForJob, hlife, hrun],
      .exit s.nextEnqueueWorker l₁ l₂ (hstop hlife) (Or.inl (by simp [hlife])) hqs⟩

/-- **From a running pool a worker that has not waited leaves only above the maximum.** -/
theorem maximum_lt_of_waitForJob_run {s s' : Pool Job} {i : ℕ} (h : QueuesOk s i)
    (hlife : s.state.lifecycle = .running) (hrun : (waitForJob i).run s = .ok .exit s') :
    s.state.maximumPoolSize < s.state.liveWorkers := by
  by_contra hmax
  rcases tryTakeQueuedJobLocked_run h with ⟨c, htake, hnil⟩ | ⟨c, j, js, htake, hq⟩ |
    ⟨c, l₁, v, j, js, l₂, htake, hqs⟩
  · by_cases htimed : s.state.workerWaitIsTimed = true
    · simp [waitForJob, hlife, htake, hmax, htimed] at hrun
    · simp [waitForJob, hlife, htake, hmax, htimed] at hrun
  · simp [waitForJob, hlife, htake] at hrun
  · simp [waitForJob, hlife, htake] at hrun

/-- The pool after a worker came back from its wait. -/
def Pool.unparked (s : Pool Job) : Pool Job :=
  { s with state := { s.state with idleWorkers := s.state.idleWorkers - 1 } }

theorem QueuesOk.unparked {s : Pool Job} {i : ℕ} (h : QueuesOk s i) : QueuesOk s.unparked i :=
  ⟨h.nodup, h.registered, h.queued, h.unbounded⟩

/-- What a worker back from a timed wait that has run out finds, if it is not needed. -/
def ThreadPoolState.Retires (st : ThreadPoolState Job) (timeout : Option Duration)
    (status : WaitTimeoutStatus) : Prop :=
  timeout.isSome = true ∧ status = .timedOut ∧ st.queuedTasks = 0 ∧ st.idleWorkerCanRetire = true

instance (st : ThreadPoolState Job) (timeout : Option Duration) (status : WaitTimeoutStatus) :
    Decidable (st.Retires timeout status) := by
  unfold ThreadPoolState.Retires
  infer_instance

section Resume

variable {s : Pool Job} {i : ℕ}

/-- A worker back from its wait is no longer idle; timed out and not needed it leaves, and
otherwise it goes another round. -/
theorem resumeFromWait_run_eq (hidle : 0 < s.state.idleWorkers) (timeout : Option Duration)
    (status : WaitTimeoutStatus) :
    (resumeFromWait i timeout status).run s =
      if s.state.Retires timeout status then
        ((fun _ => WaitOutcome.exit) <$> unregisterExitingWorker i).run s.unparked
      else (waitForJob i).run s.unparked := by
  simp only [resumeFromWait, EStateM.run_bind, EStateM.run_get, checkedSub_run_of_pos hidle,
    modifyState_run, bind_pure_comp]
  split_ifs with h₁ h₂ h₂
  · rfl
  · exact absurd h₁ h₂
  · exact absurd h₂ h₁
  · rfl

variable (h : QueuesOk s i) (hlive : 0 < s.state.liveWorkers) (hidle : 0 < s.state.idleWorkers)

include h hlive hidle

/-- A worker back from its wait, timed out and not needed, leaves. -/
theorem resumeFromWait_run_retire {timeout : Option Duration} {status : WaitTimeoutStatus}
    (hretires : s.state.Retires timeout status) :
    ∃ l₁ l₂, s.workerQueues = l₁ ++ ⟨i, []⟩ :: l₂ ∧ s.queuedJobs = [] ∧
      (resumeFromWait i timeout status).run s =
        .ok .exit (s.unparked.unregistered l₁ l₂).notifyTerminated := by
  have hnil : s.queuedJobs = [] := by
    rw [← List.length_eq_zero_iff, ← h.queued]
    exact hretires.2.2.1
  obtain ⟨l₁, l₂, hqs, hrun⟩ := unregisterExitingWorker_run_idle h.unparked hlive hnil
  refine ⟨l₁, l₂, hqs, hnil, ?_⟩
  rw [resumeFromWait_run_eq hidle, if_pos hretires, PoolM.run_map, hrun]

/-- **What a worker does between two waits.** -/
theorem resumeFromWait_run (hstop : s.state.lifecycle = .stopping → s.queuedJobs = [])
    (timeout : Option Duration) (status : WaitTimeoutStatus) :
    ∃ o s', (resumeFromWait i timeout status).run s = .ok o s' ∧ Waited s.unparked i o s' := by
  by_cases hretires : s.state.Retires timeout status
  · obtain ⟨l₁, l₂, hqs, hnil, hrun⟩ := resumeFromWait_run_retire h hlive hidle hretires
    exact ⟨_, _, hrun, .exit s.nextEnqueueWorker l₁ l₂ hnil (Or.inr hretires.2.2.2) hqs⟩
  · rw [resumeFromWait_run_eq hidle, if_neg hretires]
    exact waitForJob_run h.unparked hlive hstop

omit hlive in
/-- **From a running pool a worker that has waited leaves above the maximum, or since its wait
has timed out.** -/
theorem maximum_lt_of_resumeFromWait_run {s' : Pool Job} {timeout : Option Duration}
    {status : WaitTimeoutStatus} (hlife : s.state.lifecycle = .running)
    (hrun : (resumeFromWait i timeout status).run s = .ok .exit s') :
    s.state.maximumPoolSize < s.state.liveWorkers ∨ status = .timedOut := by
  by_cases hretires : s.state.Retires timeout status
  · exact Or.inr hretires.2.1
  · rw [resumeFromWait_run_eq hidle, if_neg hretires] at hrun
    exact Or.inl (maximum_lt_of_waitForJob_run (s := s.unparked) h.unparked hlife hrun)

end Resume

end ThreadPool

end QubitConcurrent
