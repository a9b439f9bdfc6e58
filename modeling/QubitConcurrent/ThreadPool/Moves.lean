import QubitConcurrent.ThreadPool.WellFormed

/-!
# What a step does behind the monitor

`QubitConcurrent.ThreadPool.Effect` breaks a step into pieces an invariant can be checked
on. Where a statement is about a whole step – no step takes the pool below its core, the
step that ends the pool wakes everybody – the pieces are too small: they do not say which of
them come together. Here a step is kept in one piece.

The specifications of `submit` and of a prestart are collected into one inductive type each,
as those of the setters and of `wait_for_job` are in `QubitConcurrent.ThreadPool.Sections`.
`QubitConcurrent.ThreadPool.Worked` is how a worker goes on and
`QubitConcurrent.ThreadPool.Continued` how a call does that has begun, and
`QubitConcurrent.ThreadPool.Move` is the list of what a step can be, seen from the state
behind the monitor. Most steps do not touch it. What is followed besides is who was told that
the pool is terminated, since a pool tells that to nobody unless it is.
-/

namespace QubitConcurrent

namespace ThreadPool

variable {Job : Type} {s s' : Pool Job}

/-! ### Reports of termination -/

/-- Whether the call has told its caller that the pool is terminated. -/
def Call.reportsEnd : Call Job → Bool
  | returned (.isTerminated true) | returned .waitForTermination => true
  | _ => false

/-- Whether some caller was told that the pool is terminated. -/
def Pool.reported (s : Pool Job) : Bool := s.calls.any Call.reportsEnd

/-- A notification tells nobody that the pool is terminated. -/
@[simp] theorem Call.reportsEnd_wake (c : Call Job) : c.wake.reportsEnd = c.reportsEnd := by
  cases c <;> rfl

@[simp] theorem Pool.reported_wakeAll (s : Pool Job) : s.wakeAll.reported = s.reported := by
  simp [reported, Function.comp_def]

@[simp] theorem Pool.reported_addCall (c : Call Job) (s : Pool Job) :
    (s.addCall c).reported = (s.reported || c.reportsEnd) := by
  simp [reported, addCall]

/-- A new call that is told nothing. -/
theorem Pool.reported_of_addCall {c : Call Job} (hc : c.reportsEnd = false)
    (h : (s.addCall c).reported = true) : s.reported = true := by
  rwa [reported_addCall, hc, Bool.or_false] at h

/-- A call that moves on may have been told. -/
theorem Pool.reported_setCall {k : ℕ} {c : Call Job} (h : (s.setCall k c).reported = true) :
    s.reported = true ∨ c.reportsEnd = true := by
  obtain ⟨d, hd, hreports⟩ := List.any_eq_true.mp h
  rcases List.mem_or_eq_of_mem_set hd with hmem | rfl
  · exact Or.inl (List.any_eq_true.mpr ⟨d, hmem, hreports⟩)
  · exact Or.inr hreports

/-- A call that moves on and was not told. -/
theorem Pool.reported_of_setCall {k : ℕ} {c : Call Job} (hc : c.reportsEnd = false)
    (h : (s.setCall k c).reported = true) : s.reported = true :=
  (reported_setCall h).resolve_right (by simp [hc])

/-- Waking one thread up tells nobody that the pool is terminated. -/
theorem Pool.reported_wakeOne (t : Sleeper) (s : Pool Job) :
    (s.wakeOne t).reported = s.reported := by
  cases t with
  | worker k => rfl
  | caller k =>
    refine Bool.eq_iff_iff.mpr ?_
    simp only [reported, wakeOne, List.any_eq_true]
    constructor
    · rintro ⟨c, hc, hreports⟩
      obtain ⟨i, hi⟩ := List.mem_iff_getElem?.mp hc
      rw [List.getElem?_modify] at hi
      obtain ⟨d, hd, rfl⟩ := Option.map_eq_some_iff.mp hi
      refine ⟨d, List.mem_of_getElem? hd, ?_⟩
      split_ifs at hreports
      · rwa [Call.reportsEnd_wake] at hreports
      · exact hreports
    · rintro ⟨c, hc, hreports⟩
      obtain ⟨i, hi⟩ := List.mem_iff_getElem?.mp hc
      refine ⟨_, List.mem_of_getElem? (i := i) (by rw [List.getElem?_modify, hi]; rfl), ?_⟩
      split_ifs
      · rwa [Call.reportsEnd_wake]
      · exact hreports

/-- A notification of termination tells nobody by itself. -/
@[simp] theorem Pool.reported_notifyTerminated (s : Pool Job) :
    s.notifyTerminated.reported = s.reported := by
  rw [notifyTerminated]
  split_ifs
  · exact Pool.reported_wakeAll s
  · rfl

/-! ### Submission -/

/-- The pool after an index was used up by a thread that could not be created. -/
def Pool.indexSkipped (s : Pool Job) : Pool Job :=
  { s with state := { s.state with nextWorkerIndex := s.state.nextWorkerIndex + 1 } }

/-- The ways a `submit` can go: what it leaves behind, and the pool. -/
inductive Submitted (s : Pool Job) (job : Job) : Call Job → Pool Job → Prop
  /-- The pool does not run any more, or is full. -/
  | refused (error : RejectedExecution) : Submitted s job (.returned (.submit (.error error))) s
  /-- The worker the job was meant for could not be created. -/
  | notSpawned (source : IoError) :
      Submitted s job (.returned (.submit (.error (.workerSpawnFailed source)))) s.indexSkipped
  /-- The job was queued, and taken back since no worker could be created to serve it. -/
  | takenBack (source : IoError) :
      Submitted s job (.submitRollback job (.workerSpawnFailed source) false) s.indexSkipped
  /-- Creating the worker the job was meant for has panicked, and the job is gone. -/
  | lost (message : String) (hrun : s.state.lifecycle = .running)
      (hroom : s.state.liveWorkers < s.state.corePoolSize ∨
        s.state.isSaturated = true ∧ s.state.liveWorkers < s.state.maximumPoolSize) :
      Submitted s job (.returned (.panicked message)) (s.stillborn (some job))
  /-- The job was queued, and stays there, since creating the worker that was to serve it
  has panicked. -/
  | leftBehind (message : String) (hrun : s.state.lifecycle = .running)
      (hsat : s.state.isSaturated = false) (hlive : s.state.liveWorkers = 0) :
      Submitted s job (.returned (.panicked message))
        { s.stillborn none with
          state := { (s.stillborn none).state.enqueue with queue := s.state.queue ++ [job] } }
  /-- The job was handed to a new worker. -/
  | handed (hrun : s.state.lifecycle = .running)
      (hroom : s.state.liveWorkers < s.state.corePoolSize ∨
        s.state.isSaturated = true ∧ s.state.liveWorkers < s.state.maximumPoolSize) :
      Submitted s job (.returned (.submit (.ok ())))
        { s.spawned (some job) with
          state := { (s.spawned (some job)).state with
            submittedTasks := s.state.submittedTasks + 1 } }
  /-- The job was queued for the first worker, which was created for it. -/
  | queuedFirst (hrun : s.state.lifecycle = .running)
      (hsat : s.state.isSaturated = false) (hlive : s.state.liveWorkers = 0) :
      Submitted s job s.state.enqueueCall
        { s.spawned none with
          state := { (s.spawned none).state.enqueue with queue := s.state.queue ++ [job] } }
  /-- The job went to the global queue. -/
  | queuedGlobal (hrun : s.state.lifecycle = .running) (hsat : s.state.isSaturated = false)
      (hlive : 0 < s.state.liveWorkers)
      (hglobal : s.state.queueCapacity = none ∨ 0 < s.state.idleWorkers) :
      Submitted s job s.state.enqueueCall
        { s with state := { s.state.enqueue with queue := s.state.queue ++ [job] } }
  /-- The job went to a local queue. -/
  | queuedLocal (hrun : s.state.lifecycle = .running)
      (hcore : s.state.corePoolSize ≤ s.state.liveWorkers) (hsat : s.state.isSaturated = false)
      (hlive : 0 < s.state.liveWorkers) (hcap : s.state.queueCapacity.isSome = true)
      (hidle : s.state.idleWorkers = 0) (q₁ q₂ : List (WorkerQueue Job)) (q : WorkerQueue Job)
      (hqs : s.workerQueues = q₁ ++ q :: q₂) :
      Submitted s job s.state.enqueueCall
        { s with state := s.state.enqueue, workerQueues := q₁ ++ q.pushBack job :: q₂
                 nextEnqueueWorker := (s.nextEnqueueWorker + 1) % usizeModulus }

/-- While some worker is live, some queue is registered. -/
theorem Wf.workerQueues_ne_nil (h : Wf s) (hlive : 0 < s.state.liveWorkers) :
    s.workerQueues ≠ [] := by
  intro hnil
  have hcount := h.live
  rw [Pool.countWorkers, List.countP_eq_length_filter, ← List.length_map Worker.index,
    ← h.registered, hnil] at hcount
  exact absurd hcount (by simpa using hlive.ne')

/-- The error a `submit` has returned, or will return once it has cancelled its job. -/
def Call.rejection? : Call Job → Option RejectedExecution
  | submitRollback _ error _ | returned (.submit (.error error)) => some error
  | _ => none

/-- A `submit` that leaves this behind has rejected nothing. -/
@[simp] theorem Call.rejection?_enqueueCall (st : ThreadPoolState Job) :
    st.enqueueCall.rejection? = none := by
  rw [ThreadPoolState.enqueueCall]
  split_ifs <;> rfl

/-- A `submit` that leaves this behind has not panicked. -/
theorem Call.enqueueCall_ne_panicked (st : ThreadPoolState Job) (message : String) :
    st.enqueueCall ≠ .returned (.panicked message) := by
  rw [ThreadPoolState.enqueueCall]
  split_ifs <;> simp

/-- Neither the queue nor the pool can take one more. -/
def ThreadPoolState.IsFull (st : ThreadPoolState Job) : Prop :=
  st.corePoolSize ≤ st.liveWorkers ∧ st.isSaturated = true ∧ st.maximumPoolSize ≤ st.liveWorkers

/-- Which answer a `submit` gives, and when. -/
inductive Rejects (s : Pool Job) : Option RejectedExecution → Prop
  /-- The pool does not run any more. -/
  | shutdown (hrun : s.state.lifecycle ≠ .running) : Rejects s (some .shutdown)
  /-- The pool is full. -/
  | saturated (hrun : s.state.lifecycle = .running) (hfull : s.state.IsFull) :
      Rejects s (some .saturated)
  /-- A worker was needed, and could not be created. -/
  | workerSpawnFailed (source : IoError) (hrun : s.state.lifecycle = .running)
      (hroom : ¬s.state.IsFull) : Rejects s (some (.workerSpawnFailed source))
  /-- The job is accepted, or a panic has ended the call. -/
  | not (hrun : s.state.lifecycle = .running) (hroom : ¬s.state.IsFull) : Rejects s none

/-- **What a `submit` does, and what it answers.** It panics only where creating a worker
does. -/
theorem submit_answers (h : Wf s) (job : Job) (spawned : SpawnOutcome) :
    ∃ c t, critical (submit job spawned) s = (c, t) ∧ Submitted s job c t ∧
      Rejects s c.rejection? ∧
      ∀ message, c = .returned (.panicked message) → spawned = .panicked message := by
  by_cases hrun : s.state.lifecycle = .running
  · by_cases hroom : s.state.liveWorkers < s.state.corePoolSize ∨
        s.state.isSaturated = true ∧ s.state.liveWorkers < s.state.maximumPoolSize
    · have hfull : ¬s.state.IsFull := by
        rintro ⟨hcore, -, hmax⟩
        rcases hroom with hlt | ⟨-, hlt⟩ <;> omega
      cases spawned with
      | ok =>
        exact ⟨_, _, by rw [critical, submit_run_spawn_ok job hrun hroom], .handed hrun hroom,
          .not hrun hfull, by simp⟩
      | error source =>
        refine ⟨_, _, by rw [critical, submit_run_spawn_error job hrun source h.notMem hroom], ?_,
          ?_, by simp⟩
        · exact .notSpawned source
        · exact .workerSpawnFailed source hrun hfull
      | panicked message =>
        exact ⟨_, _, by rw [critical, submit_run_spawn_panicked job hrun message hroom],
          .lost message hrun hroom, .not hrun hfull, by simp⟩
    · have hcore : s.state.corePoolSize ≤ s.state.liveWorkers := by
        by_contra hlt
        exact hroom (Or.inl (by omega))
      by_cases hsat : s.state.isSaturated = true
      · have hmax : s.state.maximumPoolSize ≤ s.state.liveWorkers := by
          by_contra hlt
          exact hroom (Or.inr ⟨hsat, by omega⟩)
        exact ⟨_, _, by rw [critical, submit_run_saturated job hrun hcore hsat hmax], .refused _,
          .saturated hrun ⟨hcore, hsat, hmax⟩, by simp⟩
      · have hsat' : s.state.isSaturated = false := by simpa using hsat
        have hfull : ¬s.state.IsFull := fun hfull => hsat hfull.2.1
        have haccepts : Rejects s s.state.enqueueCall.rejection? := by
          rw [Call.rejection?_enqueueCall]
          exact .not hrun hfull
        have hpanics : ∀ message, s.state.enqueueCall = .returned (.panicked message) →
            spawned = .panicked message :=
          fun message heq => absurd heq (Call.enqueueCall_ne_panicked s.state message)
        rcases Nat.eq_zero_or_pos s.state.liveWorkers with hlive | hlive
        · cases spawned with
          | ok =>
            exact ⟨_, _, by rw [critical, submit_run_first_ok job hrun hcore hsat' hlive],
              .queuedFirst hrun hsat' hlive, haccepts, hpanics⟩
          | error source =>
            refine ⟨_, _, by
              rw [critical, submit_run_first_error job hrun hcore hsat' source h.notMem hlive], ?_,
              ?_, by simp⟩
            · -- without a worker nothing runs, so there is no count to take back
              have hskip : ({ s with state := s.state.spawnFailed none } : Pool Job) =
                  s.indexSkipped := by
                simp [ThreadPoolState.spawnFailed, Pool.indexSkipped, h.running_of_live hlive]
              rw [hskip]
              exact .takenBack source
            · exact .workerSpawnFailed source hrun hfull
          | panicked message =>
            exact ⟨_, _, by
              rw [critical, submit_run_first_panicked job hrun hcore hsat' message hlive],
              .leftBehind message hrun hsat' hlive, .not hrun hfull, by simp⟩
        · by_cases hglobal : s.state.queueCapacity = none ∨ 0 < s.state.idleWorkers
          · exact ⟨_, _, by rw [critical, submit_run_global job hrun hcore hsat' hlive hglobal],
              .queuedGlobal hrun hsat' hlive hglobal, haccepts, hpanics⟩
          · have hcap : s.state.queueCapacity.isSome = true := by
              rw [Option.isSome_iff_ne_none]
              exact fun hnone => hglobal (Or.inl hnone)
            have hidle : s.state.idleWorkers = 0 := by
              by_contra hne
              exact hglobal (Or.inr (by omega))
            obtain ⟨q₁, q, q₂, hsplit, hsubmit⟩ := submit_run_local job hrun hcore hsat' hlive hcap
              hidle (h.workerQueues_ne_nil hlive) spawned
            exact ⟨_, _, by rw [critical, hsubmit],
              .queuedLocal hrun hcore hsat' hlive hcap hidle q₁ q₂ q hsplit, haccepts, hpanics⟩
  · exact ⟨_, _, by rw [critical, submit_run_of_not_running job hrun], .refused _, .shutdown hrun,
      by simp⟩

/-- **What a `submit` does.** -/
theorem submit_cases (h : Wf s) (job : Job) (spawned : SpawnOutcome) :
    ∃ c t, critical (submit job spawned) s = (c, t) ∧ Submitted s job c t ∧
      ∀ message, c = .returned (.panicked message) → spawned = .panicked message := by
  obtain ⟨c, t, hrun, hsubmitted, -, hpanics⟩ := submit_answers h job spawned
  exact ⟨c, t, hrun, hsubmitted, hpanics⟩

/-! ### Prestart -/

/-- The ways a prestart of one core worker can go. -/
inductive Prestarted (s : Pool Job) : SpawnOutcome → Pool Job → Prop
  /-- The pool does not run any more, or its core is complete. -/
  | refused (spawned : SpawnOutcome) : Prestarted s spawned s
  /-- A worker was created. -/
  | started (hrun : s.state.lifecycle = .running)
      (hcore : s.state.liveWorkers < s.state.corePoolSize) : Prestarted s .ok (s.spawned none)
  /-- The worker could not be created. -/
  | notStarted (source : IoError) (hrun : s.state.lifecycle = .running) :
      Prestarted s (.error source) { s with state := s.state.spawnFailed none }
  /-- Creating the worker has panicked. -/
  | panicked (message : String) (hrun : s.state.lifecycle = .running)
      (hcore : s.state.liveWorkers < s.state.corePoolSize) :
      Prestarted s (.panicked message) (s.stillborn none)

/-- **What a prestart of one core worker does**: it answers, or panics. -/
theorem prestartCoreThread_cases (h : Wf s) (spawned : SpawnOutcome) :
    ∃ t, Prestarted s spawned t ∧ ((∃ r, (prestartCoreThread spawned).run s = .ok r t) ∨
      ∃ message, (prestartCoreThread spawned).run s = .error message t) := by
  by_cases hrun : s.state.lifecycle = .running
  · by_cases hcore : s.state.liveWorkers < s.state.corePoolSize
    · cases spawned with
      | ok =>
        exact ⟨_, .started hrun hcore, Or.inl ⟨_, prestartCoreThread_run_ok hrun hcore⟩⟩
      | error source =>
        exact ⟨_, .notStarted source hrun,
          Or.inl ⟨_, prestartCoreThread_run_error hrun hcore source h.notMem⟩⟩
      | panicked message =>
        exact ⟨_, .panicked message hrun hcore,
          Or.inr ⟨_, prestartCoreThread_run_panicked hrun hcore message⟩⟩
    · have hfull := prestartCoreThread_run_full hrun (Nat.not_lt.mp hcore) spawned
      exact ⟨_, .refused _, Or.inl ⟨_, hfull⟩⟩
  · exact ⟨_, .refused _, Or.inl ⟨_, prestartCoreThread_run_of_not_running hrun spawned⟩⟩

/-- A prestart makes no call. -/
theorem Prestarted.calls_eq {spawned : SpawnOutcome} (h : Prestarted s spawned s') :
    s'.calls = s.calls := by
  cases h <;> rfl

/-- What a call of `prestart_core_thread` leaves behind. -/
theorem critical_prestartCoreThread (h : Wf s) (spawned : SpawnOutcome) :
    ∃ c t, critical (do return .returned (.prestartCoreThread (← prestartCoreThread spawned))) s =
        (c, t) ∧ c.isQuiet = true ∧ c.reportsEnd = false ∧ Prestarted s spawned t := by
  obtain ⟨t, hcases, ⟨r, hrun⟩ | ⟨message, hrun⟩⟩ := prestartCoreThread_cases h spawned
  · exact ⟨.returned (.prestartCoreThread r), t, by simp [critical, hrun], rfl, rfl, hcases⟩
  · exact ⟨.returned (.panicked message), t, by simp [critical, hrun], rfl, rfl, hcases⟩

/-- **What a round of `prestart_all_core_threads` does**: a prestart of one core worker, and
a call that goes on or returns. -/
theorem prestartAllNext_cases (h : Wf s) (started : ℕ) (spawned : SpawnOutcome) :
    ∃ c t, critical (prestartAllNext started spawned) s = (c, t) ∧ c.isQuiet = true ∧
      c.reportsEnd = false ∧ Prestarted s spawned t := by
  obtain ⟨t, hcases, ⟨r, hrun⟩ | ⟨message, hrun⟩⟩ := prestartCoreThread_cases h spawned
  · cases r with
    | error e =>
      refine ⟨.returned (.prestartAllCoreThreads (.error e)), t, ?_, rfl, rfl, hcases⟩
      simp [critical, prestartAllNext, hrun]
    | ok more =>
      cases more with
      | false =>
        refine ⟨.returned (.prestartAllCoreThreads (.ok started)), t, ?_, rfl, rfl, hcases⟩
        simp [critical, prestartAllNext, hrun]
      | true =>
        refine ⟨.prestartAll (started + 1), t, ?_, rfl, rfl, hcases⟩
        simp [critical, prestartAllNext, hrun]
  · exact ⟨.returned (.panicked message), t, by simp [critical, prestartAllNext, hrun], rfl, rfl,
      hcases⟩

/-- What `submit` leaves behind tells nobody that the pool is terminated. -/
theorem Submitted.reported_eq {job : Job} {c : Call Job} (h : Submitted s job c s') :
    s'.reported = s.reported ∧ c.reportsEnd = false := by
  have henqueue : (s.state.enqueueCall).reportsEnd = false := by
    rw [ThreadPoolState.enqueueCall]
    split_ifs <;> rfl
  cases h with
  | refused | notSpawned | takenBack | lost | leftBehind | handed => exact ⟨rfl, rfl⟩
  | queuedFirst | queuedGlobal | queuedLocal => exact ⟨rfl, henqueue⟩

/-- A round of `wait_for_job` tells nobody that the pool is terminated. -/
theorem Waited.reported_eq {i : ℕ} {o : WaitOutcome Job} (h : Waited s i o s') (k : ℕ) :
    (s'.settleWait k o).reported = s.reported := by
  have hsettle : (s'.settleWait k o).reported = s'.reported := by cases o <;> rfl
  rw [hsettle]
  cases h with
  | takeGlobal | takeLocal | park => rfl
  | exit => rw [Pool.reported_notifyTerminated]; rfl

/-! ### All steps -/

/-- Whether an action is a call of a setter. -/
def Action.isSetter : Action Job → Bool
  | .setCorePoolSize _ | .setMaximumPoolSize _ | .setKeepAlive _ | .allowCoreThreadTimeout _ =>
    true
  | _ => false

/-- A setter is called by a user. -/
theorem Action.worker?_of_isSetter {a : Action Job} (h : a.isSetter = true) : a.worker? = none := by
  cases a <;> first | rfl | exact absurd h (by simp [isSetter])

/-- Whether an action may create a worker without a job. -/
def Action.isPrestart : Action Job → Bool
  | .prestartCoreThread _ | .prestartAllNext _ _ => true
  | _ => false

/-- **What a step is**, seen from the state behind the monitor. -/
inductive Move (s : Pool Job) : Action Job → Pool Job → Prop
  /-- A `submit`. -/
  | submit (job : Job) (spawned : SpawnOutcome) (hnew : job ∉ s.ledger.presented)
      (c : Call Job) (t : Pool Job) (h : Submitted s job c t) :
      Move s (.submit job spawned) (s.recordSubmit job c t)
  /-- A prestart of one core worker. -/
  | prestart (a : Action Job) (ha : a.isPrestart = true) (spawned : SpawnOutcome)
      (t : Pool Job) (h : Prestarted s spawned t) (calls : List (Call Job))
      (hreported : calls.any Call.reportsEnd = true → s.reported = true)
      (hdrained : calls.flatMap Call.drained = s.drainedJobs) :
      Move s a { t with calls := calls }
  /-- A setter. -/
  | configure (a : Action Job) (ha : a.isSetter = true) (c : Call Job) (t : Pool Job)
      (h : Configured s c t) : Move s a (t.addCall c)
  /-- A `shutdown`. -/
  | shutdown :
      Move s .shutdown ((Pool.wakeAll { s with state := { s.state with lifecycle :=
        if s.state.lifecycle = .running then .shutdown else s.state.lifecycle } }).addCall
          (.returned .shutdown))
  /-- A `shutdown_now`. -/
  | shutdownNow :
      Move s .shutdownNow (s.drain.wakeAll.addCall (.shutdownNow s.queuedJobs none
        ⟨s.state.queuedTasks, s.state.runningTasks, s.state.queuedTasks⟩))
  /-- A round of `wait_for_job`, by a worker that comes to it or comes back from its wait. -/
  | wait (a : Action Job) (k : ℕ) (w : Worker Job) (hk : s.workers[k]? = some w)
      (hlive : w.phase.isLive = true) (u : Pool Job) (hu : u = s ∨ u = s.unparked)
      (o : WaitOutcome Job) (t : Pool Job) (h : Waited u w.index o t) : Move s a (t.settleWait k o)
  /-- A job is accounted as finished. -/
  | finish (a : Action Job) (k : ℕ) (j : Job) (hpos : 0 < s.state.runningTasks) :
      Move s a
        (((Pool.notifyTerminated { s with state := { s.state with
            runningTasks := s.state.runningTasks - 1
            completedTasks := s.state.completedTasks + 1 } }).setPhase k .ready).record
          fun l => { l with completed := l.completed ++ [j] })
  /-- Whatever else threads do. -/
  | beside (a : Action Job) (s' : Pool Job) (hstate : s'.state = s.state)
      (hqueues : s'.workerQueues = s.workerQueues) (hworkers : s'.workers.length = s.workers.length)
      (haccepted : s'.ledger.accepted = s.ledger.accepted)
      (hreported : s'.reported = true → s.reported = true ∨ s.state.isTerminated = true) :
      Move s a s'

/-- **Only a terminated pool tells anybody that it is terminated.** -/
theorem Move.reported_of {a : Action Job} (h : Move s a s') (hreported : s'.reported = true) :
    s.reported = true ∨ s.state.isTerminated = true := by
  cases h with
  | submit job spawned hnew c t h =>
    obtain ⟨hsame, hsilent⟩ := h.reported_eq
    exact Or.inl (hsame ▸ Pool.reported_of_addCall hsilent hreported)
  | prestart a ha spawned t h calls hsilent => exact Or.inl (hsilent hreported)
  | configure a ha c t h =>
    cases h with
    | refused | written => exact Or.inl (Pool.reported_of_addCall rfl hreported)
  | shutdown | shutdownNow =>
    have hbefore := Pool.reported_of_addCall rfl hreported
    rw [Pool.reported_wakeAll] at hbefore
    exact Or.inl hbefore
  | wait a k w hk hlive u hu o t h =>
    rw [h.reported_eq] at hreported
    rcases hu with rfl | rfl
    · exact Or.inl hreported
    · exact Or.inl hreported
  | finish a k j hpos =>
    have hnotified : (Pool.notifyTerminated { s with state :=
        { s.state with runningTasks := s.state.runningTasks - 1
                       completedTasks := s.state.completedTasks + 1 } }).reported = true :=
      hreported
    rw [Pool.reported_notifyTerminated] at hnotified
    exact Or.inl hnotified
  | beside a s' hstate hqueues hworkers haccepted hbefore => exact hbefore hreported

/-- **How a worker goes on**, the worker `w` at position `k`, and where it stands before. -/
inductive Worked (s : Pool Job) (k : ℕ) (w : Worker Job) : Action Job → Pool Job → Prop
  /-- The run callback of the job it holds begins. -/
  | runInvoked (n : ℕ) (j : Job) (hp : w.phase = .holding j) :
      Worked s k w (.invokeRun n) ((s.setPhase k (.running j)).record
        fun l => { l with runInvoked := l.runInvoked ++ [j] })
  /-- That run callback returns. -/
  | runReturned (n : ℕ) (j : Job) (hp : w.phase = .running j) :
      Worked s k w (.runReturns n) ((s.setPhase k (.finishing j)).record
        fun l => { l with runReturned := l.runReturned ++ [j] })
  /-- That run callback unwinds. -/
  | runUnwound (n : ℕ) (j : Job) (hp : w.phase = .running j) :
      Worked s k w (.runUnwinds n) ((s.setPhase k .unwound).record
        fun l => { l with runUnwound := l.runUnwound ++ [j] })
  /-- The job is accounted as finished. -/
  | finished (n : ℕ) (j : Job) (hp : w.phase = .finishing j) (hpos : 0 < s.state.runningTasks) :
      Worked s k w (.finishRunningJob n)
        (((Pool.notifyTerminated { s with state := { s.state with
            runningTasks := s.state.runningTasks - 1
            completedTasks := s.state.completedTasks + 1 } }).setPhase k .ready).record
          fun l => { l with completed := l.completed ++ [j] })
  /-- Nothing is counted as running, and the subtraction panics. -/
  | finishPanicked (n : ℕ) (j : Job) (hp : w.phase = .finishing j)
      (hzero : s.state.runningTasks = 0) :
      Worked s k w (.finishRunningJob n) ((s.setPhase k .unwound).record
        fun l => { l with abandoned := l.abandoned ++ [j] })
  /-- It looks for work. -/
  | waited (n : ℕ) (hp : w.phase = .ready) (o : WaitOutcome Job) (t : Pool Job)
      (hrun : (waitForJob w.index).run s = .ok o t) (hwait : Waited s w.index o t) :
      Worked s k w (.waitForJob n) (t.settleWait k o)
  /-- It wakes up without a notification. -/
  | woken (n : ℕ) (status : WaitTimeoutStatus) (timeout : Option Duration)
      (hp : w.phase = .waiting timeout none) (hcond : ¬ (status = .timedOut ∧ timeout = none)) :
      Worked s k w (.wakeWorker n status) (s.setPhase k (.waiting timeout (some status)))
  /-- Back from its wait it is not idle any more, and then looks for work as before. -/
  | resumed (n : ℕ) (timeout : Option Duration) (status : WaitTimeoutStatus)
      (hp : w.phase = .waiting timeout (some status)) (o : WaitOutcome Job) (t : Pool Job)
      (hrun : (resumeFromWait w.index timeout status).run s = .ok o t)
      (hwait : Waited s.unparked w.index o t) :
      Worked s k w (.resumeWorker n) (t.settleWait k o)

/-- **A worker goes on in one of these ways**; what it does behind the monitor does not panic, but
for the accounting of a job. -/
theorem workerStep_worked (h : Wf s) {k : ℕ} {w : Worker Job} (hk : s.workers[k]? = some w)
    {a : Action Job} (hstep : workerStep s k w.index a w.phase = some s') :
    Worked s k w a s' := by
  have hmem : w ∈ s.workers := List.mem_of_getElem? hk
  unfold workerStep at hstep
  split at hstep
  case h_1 n j hp =>
    obtain rfl := Option.some.inj hstep
    exact .runInvoked n j hp
  case h_2 n j hp =>
    obtain rfl := Option.some.inj hstep
    exact .runReturned n j hp
  case h_3 n j hp =>
    obtain rfl := Option.some.inj hstep
    exact .runUnwound n j hp
  case h_4 n j hp =>
    rcases Nat.eq_zero_or_pos s.state.runningTasks with hzero | hpos
    · rw [finishRunningJob_run_zero hzero] at hstep
      obtain rfl := Option.some.inj hstep
      exact .finishPanicked n j hp hzero
    · rw [finishRunningJob_run_of_pos hpos] at hstep
      obtain rfl := Option.some.inj hstep
      exact .finished n j hp hpos
  case h_5 n hp =>
    obtain rfl := Option.some.inj hstep
    have hlive : w.phase.isLive = true := by rw [hp]; rfl
    obtain ⟨o, t, hrun, hwait⟩ := waitForJob_run (h.queuesOk hmem hlive) (h.live_pos hmem hlive)
      h.stopped
    rw [workerCritical, hrun]
    exact .waited n hp o t hrun hwait
  case h_6 n status timeout hp =>
    split_ifs at hstep with hcond
    obtain rfl := Option.some.inj hstep
    exact .woken n status timeout hp hcond
  case h_7 n timeout status hp =>
    obtain rfl := Option.some.inj hstep
    have hlive : w.phase.isLive = true := by rw [hp]; rfl
    have hidle : w.phase.isWaiting = true := by rw [hp]; rfl
    obtain ⟨o, t, hrun, hwait⟩ := resumeFromWait_run (h.queuesOk hmem hlive)
      (h.live_pos hmem hlive) (h.idle_pos hmem hidle) h.stopped timeout status
    rw [workerCritical, hrun]
    exact .resumed n timeout status hp o t hrun hwait
  case h_8 => exact absurd hstep (by simp)

/-- Whoever takes a step has not unregistered. -/
theorem Worked.isLive {k : ℕ} {w : Worker Job} {a : Action Job} (hgoes : Worked s k w a s') :
    w.phase.isLive = true := by
  cases hgoes <;> simp [*, WorkerPhase.isLive]

/-- A step of a worker, in one piece. -/
theorem Worked.move {k : ℕ} {w : Worker Job} (hk : s.workers[k]? = some w) {a : Action Job}
    (hgoes : Worked s k w a s') : Move s a s' := by
  have hlive := hgoes.isLive
  cases hgoes with
  | finished n j hp hpos => exact .finish _ k j hpos
  | waited n hp o t hrun hwait => exact .wait _ k w hk hlive s (Or.inl rfl) o t hwait
  | resumed n timeout status hp o t hrun hwait =>
    exact .wait _ k w hk hlive s.unparked (Or.inr rfl) o t hwait
  | runInvoked | runReturned | runUnwound | finishPanicked | woken =>
    exact .beside _ _ rfl rfl (by simp [Pool.setPhase, Pool.record]) rfl Or.inl

/-- The actions with which a call goes on that has begun. -/
def Action.goesOn : Action Job → Bool
  | .notifyOne .. | .prestartAllNext .. | .notifySetter _ | .invokeCancel _ | .cancelReturns _
  | .cancelUnwinds .. | .shutdownNowReturns _ | .wakeCaller _ | .resumeCaller _ => true
  | _ => false

/-- **How a call goes on** that has begun, and where it stands before. -/
inductive Continued (s : Pool Job) : Action Job → Pool Job → Prop
  /-- The `notify_one` of a submission reaches a thread. -/
  | notified (k : ℕ) (t : Sleeper) (hk : s.calls[k]? = some .submitNotify)
      (ht : s.isParked t = true) :
      Continued s (.notifyOne k (some t))
        ((s.wakeOne t).setCall k (.returned (.submit (.ok ()))))
  /-- The `notify_one` of a submission finds nobody parked. -/
  | notifiedNobody (k : ℕ) (hk : s.calls[k]? = some .submitNotify) (hnone : s.noneParked = true) :
      Continued s (.notifyOne k none) (s.setCall k (.returned (.submit (.ok ()))))
  /-- A round of `prestart_all_core_threads`. -/
  | prestarted (k started : ℕ) (spawned : SpawnOutcome)
      (hk : s.calls[k]? = some (.prestartAll started)) :
      Continued s (.prestartAllNext k spawned)
        ((critical (prestartAllNext started spawned) s).2.setCall k
          (critical (prestartAllNext started spawned) s).1)
  /-- The `notify_all` of a setter. -/
  | setterNotified (k : ℕ) (hk : s.calls[k]? = some .setterNotify) :
      Continued s (.notifySetter k) (s.wakeAll.setCall k (.returned (.setter (.ok ()))))
  /-- The cancel callback of a drained job begins. -/
  | cancelInvoked (k : ℕ) (job : Job) (jobs : List Job) (report : ShutdownReport)
      (hk : s.calls[k]? = some (.shutdownNow (job :: jobs) none report)) :
      Continued s (.invokeCancel k) ((s.setCall k (.shutdownNow jobs (some job) report)).record
        fun l => { l with cancelInvoked := l.cancelInvoked ++ [job] })
  /-- The cancel callback of a job taken back begins. -/
  | rollbackInvoked (k : ℕ) (job : Job) (error : RejectedExecution)
      (hk : s.calls[k]? = some (.submitRollback job error false)) :
      Continued s (.invokeCancel k) ((s.setCall k (.submitRollback job error true)).record
        fun l => { l with rollbackInvoked := l.rollbackInvoked ++ [job] })
  /-- The cancel callback of a drained job returns. -/
  | cancelReturned (k : ℕ) (job : Job) (jobs : List Job) (report : ShutdownReport)
      (hk : s.calls[k]? = some (.shutdownNow jobs (some job) report)) :
      Continued s (.cancelReturns k) ((s.setCall k (.shutdownNow jobs none report)).record
        fun l => { l with cancelReturned := l.cancelReturned ++ [job] })
  /-- The cancel callback of a job taken back returns. -/
  | rollbackReturned (k : ℕ) (job : Job) (error : RejectedExecution)
      (hk : s.calls[k]? = some (.submitRollback job error true)) :
      Continued s (.cancelReturns k) ((s.setCall k (.returned (.submit (.error error)))).record
        fun l => { l with rollbackReturned := l.rollbackReturned ++ [job] })
  /-- The cancel callback of a drained job unwinds. -/
  | cancelUnwound (k : ℕ) (job : Job) (jobs : List Job) (report : ShutdownReport)
      (message : String) (hk : s.calls[k]? = some (.shutdownNow jobs (some job) report)) :
      Continued s (.cancelUnwinds k message)
        (s.setCall k (.shutdownNowUnwound (job :: jobs) message))
  /-- The cancel callback of a job taken back unwinds. -/
  | rollbackUnwound (k : ℕ) (job : Job) (error : RejectedExecution) (message : String)
      (hk : s.calls[k]? = some (.submitRollback job error true)) :
      Continued s (.cancelUnwinds k message) (s.setCall k (.returned (.panicked message)))
  /-- `shutdown_now` returns. -/
  | shutdownNowReturned (k : ℕ) (report : ShutdownReport)
      (hk : s.calls[k]? = some (.shutdownNow [] none report)) :
      Continued s (.shutdownNowReturns k) (s.setCall k (.returned (.shutdownNow report)))
  /-- A user wakes up in `wait_for_termination`. -/
  | callerWoken (k : ℕ) (hk : s.calls[k]? = some (.waitForTermination false)) :
      Continued s (.wakeCaller k) (s.setCall k (.waitForTermination true))
  /-- A user comes back from a wait to a terminated pool. -/
  | callerReturns (k : ℕ) (hk : s.calls[k]? = some (.waitForTermination true))
      (hterm : s.state.isTerminated = true) :
      Continued s (.resumeCaller k) (s.setCall k (.returned .waitForTermination))
  /-- A user comes back from a wait too early, and parks again. -/
  | callerParks (k : ℕ) (hk : s.calls[k]? = some (.waitForTermination true))
      (hterm : s.state.isTerminated = false) :
      Continued s (.resumeCaller k) (s.setCall k (.waitForTermination false))

/-- A round of `prestart_all_core_threads` prestarts one core worker. -/
theorem Move.of_prestarted (h : Wf s) {k started : ℕ} (spawned : SpawnOutcome)
    (hk : s.calls[k]? = some (.prestartAll started)) :
    Move s (.prestartAllNext k spawned)
      ((critical (prestartAllNext started spawned) s).2.setCall k
        (critical (prestartAllNext started spawned) s).1) := by
  obtain ⟨c, t, hcrit, hquiet, hsilent, hprestarted⟩ := prestartAllNext_cases h started spawned
  rw [hcrit]
  refine .prestart _ rfl spawned t hprestarted _ (fun hreported => ?_) ?_
  · have hbefore : t.reported = true := Pool.reported_of_setCall hsilent hreported
    rwa [Pool.reported, hprestarted.calls_eq] at hbefore
  · obtain ⟨c₁, c₂, hcalls, rfl⟩ := exists_split_of_getElem? hk
    rw [Pool.drainedJobs, hprestarted.calls_eq, hcalls,
      List.set_append_right _ _ (Nat.le_refl _), Nat.sub_self, List.set_cons_zero]
    have hnone : (Call.prestartAll started : Call Job).drained = [] := rfl
    simp [Call.drained_of_isQuiet hquiet, hnone]

/-- A call that goes on, in one piece: but for a prestart it leaves the state as it is, and it
tells of the end only where the pool is terminated. -/
theorem Continued.move (h : Wf s) {a : Action Job} (hgoes : Continued s a s') : Move s a s' := by
  cases hgoes with
  | notified k t hk ht =>
    have hreported : ((s.wakeOne t).setCall k (.returned (.submit (.ok ())))).reported = true →
        s.reported = true := fun hreported => by
      rw [← Pool.reported_wakeOne t s]
      exact Pool.reported_of_setCall rfl hreported
    cases t with
    | worker j =>
      exact .beside _ _ rfl rfl (by simp [Pool.setCall, Pool.wakeOne]) rfl
        fun h => Or.inl (hreported h)
    | caller j => exact .beside _ _ rfl rfl rfl rfl fun h => Or.inl (hreported h)
  | prestarted k started spawned hk => exact .of_prestarted h spawned hk
  | setterNotified k hk =>
    refine .beside _ _ rfl rfl (by simp [Pool.setCall]) rfl fun hreported => Or.inl ?_
    rw [← Pool.reported_wakeAll]
    exact Pool.reported_of_setCall rfl hreported
  | callerReturns k hk hterm => exact .beside _ _ rfl rfl rfl rfl fun _ => Or.inr hterm
  | notifiedNobody | cancelInvoked | rollbackInvoked | cancelReturned | rollbackReturned
  | cancelUnwound | rollbackUnwound | shutdownNowReturned | callerWoken | callerParks =>
    exact .beside _ _ rfl rfl rfl rfl fun h => Or.inl (Pool.reported_of_setCall rfl h)

section Step

variable [DecidableEq Job]

/-- **A call that has begun goes on in one of these ways.** -/
theorem callerStep_goesOn {a : Action Job} (ha : a.goesOn = true)
    (hstep : callerStep s a = some s') : Continued s a s' := by
  cases a with
  | notifyOne k target =>
    simp only [callerStep] at hstep
    split at hstep
    · next t hk =>
      split_ifs at hstep with ht
      obtain rfl := Option.some.inj hstep
      exact .notified k t hk ht
    · next hk =>
      split_ifs at hstep with hnone
      obtain rfl := Option.some.inj hstep
      exact .notifiedNobody k hk hnone
    · exact absurd hstep (by simp)
  | prestartAllNext k spawned =>
    simp only [callerStep] at hstep
    split at hstep
    · next started hk =>
      obtain rfl := Option.some.inj hstep
      exact .prestarted k started spawned hk
    · exact absurd hstep (by simp)
  | notifySetter k =>
    simp only [callerStep] at hstep
    split at hstep
    · next hk =>
      obtain rfl := Option.some.inj hstep
      exact .setterNotified k hk
    · exact absurd hstep (by simp)
  | invokeCancel k =>
    simp only [callerStep] at hstep
    split at hstep
    · next job jobs report hk =>
      obtain rfl := Option.some.inj hstep
      exact .cancelInvoked k job jobs report hk
    · next job error hk =>
      obtain rfl := Option.some.inj hstep
      exact .rollbackInvoked k job error hk
    · exact absurd hstep (by simp)
  | cancelReturns k =>
    simp only [callerStep] at hstep
    split at hstep
    · next jobs job report hk =>
      obtain rfl := Option.some.inj hstep
      exact .cancelReturned k job jobs report hk
    · next job error hk =>
      obtain rfl := Option.some.inj hstep
      exact .rollbackReturned k job error hk
    · exact absurd hstep (by simp)
  | cancelUnwinds k message =>
    simp only [callerStep] at hstep
    split at hstep
    · next jobs job report hk =>
      obtain rfl := Option.some.inj hstep
      exact .cancelUnwound k job jobs report message hk
    · next job error hk =>
      obtain rfl := Option.some.inj hstep
      exact .rollbackUnwound k job error message hk
    · exact absurd hstep (by simp)
  | shutdownNowReturns k =>
    simp only [callerStep] at hstep
    split at hstep
    · next report hk =>
      obtain rfl := Option.some.inj hstep
      exact .shutdownNowReturned k report hk
    · exact absurd hstep (by simp)
  | wakeCaller k =>
    simp only [callerStep] at hstep
    split at hstep
    · next hk =>
      obtain rfl := Option.some.inj hstep
      exact .callerWoken k hk
    · exact absurd hstep (by simp)
  | resumeCaller k =>
    simp only [callerStep, critical, waitForTermination_run] at hstep
    split at hstep
    · next hk =>
      obtain rfl := Option.some.inj hstep
      cases hterm : s.state.isTerminated with
      | true => exact .callerReturns k hk hterm
      | false => exact .callerParks k hk hterm
    · exact absurd hstep (by simp)
  | _ => exact absurd ha (by simp [Action.goesOn])

/-- What a setter does, read off its step. -/
theorem callerStep_setter {a : Action Job} (ha : a.isSetter = true)
    (hstep : callerStep s a = some s') : ∃ c t, Configured s c t ∧ s' = t.addCall c := by
  have hconfigured : ∀ n : PoolM Job (Call Job), (∃ c t, n.run s = .ok c t ∧ Configured s c t) →
      some ((critical n s).2.addCall (critical n s).1) = some s' →
      ∃ c t, Configured s c t ∧ s' = t.addCall c := by
    rintro n ⟨c, t, hrun, hconf⟩ hs'
    rw [critical, hrun] at hs'
    exact ⟨c, t, hconf, (Option.some.inj hs').symm⟩
  cases a with
  | setCorePoolSize n => exact hconfigured _ (setCorePoolSize_run s n) hstep
  | setMaximumPoolSize n => exact hconfigured _ (setMaximumPoolSize_run s n) hstep
  | setKeepAlive d => exact hconfigured _ (setKeepAlive_run s d) hstep
  | allowCoreThreadTimeout allow => exact hconfigured _ (allowCoreThreadTimeout_run s allow) hstep
  | _ => exact absurd ha (by simp [Action.isSetter])

/-- What a submission does, read off its step. -/
theorem callerStep_submit (h : Wf s) {job : Job} {spawned : SpawnOutcome}
    (hstep : callerStep s (.submit job spawned) = some s') :
    job ∉ s.ledger.presented ∧ ∃ c t, Submitted s job c t ∧
      s' = s.recordSubmit job c t := by
  rw [callerStep] at hstep
  split_ifs at hstep with hnew
  obtain ⟨c, t, hcrit, hsubmitted, -⟩ := submit_cases h job spawned
  rw [hcrit] at hstep
  exact ⟨hnew, c, t, hsubmitted, (Option.some.inj hstep).symm⟩

/-- A step of a user, in one piece. -/
theorem callerStep_move (h : Wf s) {a : Action Job} (hstep : callerStep s a = some s') :
    Move s a s' := by
  cases a with
  | submit job spawned =>
    obtain ⟨hnew, c, t, hsubmitted, rfl⟩ := callerStep_submit h hstep
    exact .submit job spawned hnew c t hsubmitted
  | prestartCoreThread spawned =>
    obtain ⟨c, t, hcrit, hquiet, hsilent, hprestarted⟩ := critical_prestartCoreThread h spawned
    rw [callerStep, hcrit] at hstep
    obtain rfl := Option.some.inj hstep
    refine .prestart _ rfl spawned t hprestarted _ (fun hreported => ?_) ?_
    · have hbefore : t.reported = true := Pool.reported_of_addCall hsilent hreported
      rwa [Pool.reported, hprestarted.calls_eq] at hbefore
    · simp [hprestarted.calls_eq, Pool.drainedJobs, Call.drained_of_isQuiet hquiet]
  | prestartAllCoreThreads =>
    obtain rfl := Option.some.inj hstep
    exact .beside _ _ rfl rfl rfl rfl fun h => Or.inl (Pool.reported_of_addCall rfl h)
  | setCorePoolSize | setMaximumPoolSize | setKeepAlive | allowCoreThreadTimeout =>
    obtain ⟨c, t, hconf, rfl⟩ := callerStep_setter (by rfl) hstep
    exact .configure _ rfl c t hconf
  | shutdown =>
    rw [callerStep, critical, shutdown_run] at hstep
    obtain rfl := Option.some.inj hstep
    exact .shutdown
  | shutdownNow =>
    rw [callerStep, critical, shutdownNow_run] at hstep
    obtain rfl := Option.some.inj hstep
    exact .shutdownNow
  | isTerminated =>
    rw [callerStep, critical, isTerminated_run] at hstep
    obtain rfl := Option.some.inj hstep
    refine .beside _ _ rfl rfl rfl rfl fun hreported => ?_
    rw [Pool.reported_addCall, Bool.or_eq_true] at hreported
    refine hreported.imp_right fun hanswer => ?_
    cases hterm : s.state.isTerminated with
    | true => rfl
    | false => exact absurd hanswer (by simp [hterm, Call.reportsEnd])
  | waitForTermination =>
    -- whoever returns at once has found the pool terminated
    rw [callerStep, critical, waitForTermination_run] at hstep
    obtain rfl := Option.some.inj hstep
    refine .beside _ _ rfl rfl rfl rfl fun hreported => ?_
    rw [Pool.reported_addCall, Bool.or_eq_true] at hreported
    refine hreported.imp_right fun hanswer => ?_
    by_contra hup
    exact absurd hanswer (by simp [hup, Call.reportsEnd])
  | notifyOne | prestartAllNext | notifySetter | invokeCancel | cancelReturns | cancelUnwinds
  | shutdownNowReturns | wakeCaller | resumeCaller =>
    exact (callerStep_goesOn (by rfl) hstep).move h
  | _ => exact absurd hstep (by simp [callerStep])

/-- **Every step is one of the moves.** -/
theorem step_move (h : Wf s) {a : Action Job} (hstep : step s a = some s') : Move s a s' := by
  rw [step] at hstep
  cases ha : a.worker? with
  | none =>
    rw [ha] at hstep
    exact callerStep_move h hstep
  | some k =>
    rw [ha] at hstep
    cases hk : s.workers[k]? with
    | none => simp [hk] at hstep
    | some w =>
      simp only [hk] at hstep
      exact (workerStep_worked h hk hstep).move hk

end Step

end ThreadPool

end QubitConcurrent
