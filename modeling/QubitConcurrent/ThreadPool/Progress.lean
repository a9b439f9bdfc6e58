import QubitConcurrent.ThreadPool.Ending
import QubitConcurrent.ThreadPool.Jobs

/-!
# How long a pool works

Nothing is lost and nobody is forgotten; but is anything ever done? Here the steps are counted
that are left to a pool.

A worker with a job in its hands has four steps to go, and whatever else it stands at, fewer; a
job in a queue is good for four steps of whoever takes it. After a shutdown nobody parks, so
nothing adds to this sum any more, and every step of a worker lowers it: whatever the users go
on doing, the pool is terminated after as many steps of its workers
(`QubitConcurrent.ThreadPool.drains_after_shutdown`).

While the pool runs, parked workers are woken up, look for a job and park again. Each notification
that is still owed is good for as many steps as it may wake threads. With them counted in, a pool
that its users leave alone works off everything, whatever its lifecycle
(`QubitConcurrent.ThreadPool.works_off`).
-/

namespace QubitConcurrent

namespace ThreadPool

variable {Job : Type} {m : Mode} {s s' : Pool Job}

/-! ### What is left to do -/

/-- How many steps a worker has to go before it looks for a job and finds none. -/
def WorkerPhase.effort : WorkerPhase Job → ℕ
  | holding _ => 4
  | running _ => 3
  | finishing _ => 2
  | ready | waiting _ (some _) => 1
  | waiting _ none | exited | unwound | unborn => 0

/-- How many steps the workers have to go, with what is queued. -/
def Pool.workload (s : Pool Job) : ℕ :=
  (s.workers.map fun w => w.phase.effort).sum + 4 * s.queuedJobs.length

/-- How many steps a call has to go, and those it wakes up after it; `n` is how many threads
there are, or will be. -/
def Call.effort (n : ℕ) : Call Job → ℕ
  | submitNotify => 2
  | submitRollback _ _ invoked => if invoked then 1 else 2
  | prestartAll _ => 1
  | setterNotify => n + 1
  | shutdownNow jobs current _ => 2 * jobs.length + current.toList.length + 1
  | waitForTermination woken => woken.toNat
  | shutdownNowUnwound _ _ | returned _ => 0

/-- Whether a call is a `prestart_all_core_threads` between two rounds. -/
def Call.isPrestartAll : Call Job → Bool
  | prestartAll _ => true
  | _ => false

/-- Whether a `prestart_all_core_threads` is under way. -/
def Pool.isPrestarting (s : Pool Job) : Bool := s.calls.any Call.isPrestartAll

/-- How many workers a `prestart_all_core_threads` under way has yet to create. -/
def Pool.vacancies (s : Pool Job) : ℕ :=
  if s.state.lifecycle.isRunning && s.isPrestarting then
    s.state.corePoolSize - s.state.liveWorkers
  else 0

/-- How many threads there are, or will be. -/
def Pool.threads (s : Pool Job) : ℕ := s.workers.length + s.vacancies + s.calls.length

/-- How many steps the calls have to go. -/
def Pool.callsEffort (s : Pool Job) : ℕ := (s.calls.map (Call.effort s.threads)).sum

/-- How many are told when the pool terminates, if it has not. -/
def Pool.unannounced (s : Pool Job) : ℕ :=
  if s.state.isTerminated then 0 else s.calls.countP Call.isAwaiting

/-- Whether a worker has waited long enough, and may leave. -/
def WorkerPhase.isTimedOut : WorkerPhase Job → Bool
  | waiting _ (some .timedOut) => true
  | _ => false

/-- What it costs if a worker leaves while a `prestart_all_core_threads` is under way: a round
that creates another one, the step in which that one looks for a job, and one more whenever a
setter wakes it up. -/
def Pool.surcharge (s : Pool Job) : ℕ := if s.isPrestarting then s.calls.length + 2 else 0

/-- What the workers still to be created cost, and those that may leave. -/
def Pool.recruiting (s : Pool Job) : ℕ :=
  2 * s.vacancies + s.surcharge * s.countWorkers WorkerPhase.isTimedOut

/-- How many steps the pool has to go, if its users leave it alone. -/
def Pool.effort (s : Pool Job) : ℕ :=
  s.workload + s.callsEffort + s.unannounced + s.recruiting

/-- The steps the threads of a pool take on their own: no user makes a call, nobody wakes up
without a notification, run callbacks return and threads are created. A loop of
`prestart_all_core_threads` that was entered goes on. -/
def Action.isOwn : Action Job → Bool
  | .notifyOne _ _ | .prestartAllNext _ .ok | .notifySetter _ | .invokeCancel _
  | .cancelReturns _ | .cancelUnwinds _ _ | .shutdownNowReturns _ | .resumeCaller _
  | .invokeRun _ | .runReturns _ | .finishRunningJob _ | .waitForJob _ | .resumeWorker _ => true
  | _ => false

/-- A thread leaves the wait set without a notification. -/
def Action.isWakeup : Action Job → Bool
  | .wakeWorker _ _ | .wakeCaller _ => true
  | _ => false

/-- What the threads of a pool do on their own is none of its users' doing. -/
theorem Action.calm_of_isOwn {a : Action Job} (h : (a.isOwn || a.isWakeup) = true) :
    a.calm = true ∧ a.awaitsLate s = true := by
  cases a with
  | prestartAllNext k spawned =>
    cases spawned <;> first | exact ⟨rfl, rfl⟩ | exact absurd h (by simp [isOwn, isWakeup])
  | _ => first | exact ⟨rfl, rfl⟩ | exact absurd h (by simp [isOwn, isWakeup])

/-- A worker moves on. -/
theorem WorkerPhase.sum_effort_move (l₁ l₂ : List (Worker Job)) (w : Worker Job)
    (p : WorkerPhase Job) :
    ((l₁ ++ { w with phase := p } :: l₂).map fun w => w.phase.effort).sum + w.phase.effort =
      ((l₁ ++ w :: l₂).map fun w => w.phase.effort).sum + p.effort := by
  simp only [List.map_append, List.map_cons, List.sum_append, List.sum_cons]
  omega

/-- Whoever is woken up has one step to go. -/
theorem WorkerPhase.effort_wake_le (p : WorkerPhase Job) : p.wake.effort ≤ p.effort + 1 := by
  cases p with
  | waiting timeout wake => cases wake <;> simp [wake, effort]
  | _ => simp [wake]

/-- Whoever is not parked is not woken up. -/
theorem WorkerPhase.wake_of_not_parked {p : WorkerPhase Job} (h : p.isParked = false) :
    p.wake = p := by
  cases p with
  | waiting timeout wake => cases wake <;> first | rfl | exact absurd h (by simp [isParked])
  | _ => rfl

/-- Nobody's wait has timed out since it was notified. -/
@[simp] theorem WorkerPhase.isTimedOut_wake (p : WorkerPhase Job) :
    p.wake.isTimedOut = p.isTimedOut := by
  cases p with
  | waiting timeout wake => cases wake <;> rfl
  | _ => rfl

@[simp] theorem Call.isPrestartAll_wake (c : Call Job) :
    c.wake.isPrestartAll = c.isPrestartAll := by
  cases c <;> rfl

@[simp] theorem Pool.isPrestarting_wakeAll (s : Pool Job) :
    s.wakeAll.isPrestarting = s.isPrestarting := by
  simp [isPrestarting, Function.comp_def]

/-- The more threads there are, the more a call has to go. -/
theorem Call.effort_mono {n n' : ℕ} (h : n ≤ n') (c : Call Job) : c.effort n ≤ c.effort n' := by
  cases c with
  | setterNotify => exact Nat.succ_le_succ h
  | _ => exact le_rfl

/-- A setter has one step more to go for each thread that comes. -/
theorem Call.effort_add_le (n d : ℕ) (c : Call Job) : c.effort (n + d) ≤ c.effort n + d := by
  cases c with
  | setterNotify => exact (Nat.succ_add n d).symm.le
  | _ => exact Nat.le_add_right _ _

/-- A caller that is woken up has one step to go. -/
theorem Call.effort_wake_le (n : ℕ) (c : Call Job) :
    c.wake.effort n ≤ c.effort n + c.isAwaiting.toNat := by
  cases c with
  | waitForTermination woken => cases woken <;> simp [wake, effort, isAwaiting]
  | _ => simp [wake, isAwaiting]

/-! ### Who is still to be created -/

/-- There is room for no more workers than before, but for `n` of them that have left. -/
theorem Pool.vacancies_le {t : Pool Job} (n : ℕ)
    (hprestarting : t.isPrestarting = true → s.isPrestarting = true)
    (hlife : t.state.lifecycle = s.state.lifecycle)
    (hcore : t.state.corePoolSize = s.state.corePoolSize)
    (hlive : s.state.lifecycle = .running →
      s.state.corePoolSize ≤ t.state.liveWorkers ∨ s.state.liveWorkers ≤ t.state.liveWorkers + n) :
    t.vacancies ≤ s.vacancies + n := by
  rw [vacancies, vacancies, hlife, hcore]
  by_cases hrun : s.state.lifecycle = .running
  · cases ht : t.isPrestarting with
    | false => simp
    | true =>
      have := hlive hrun
      simp only [hrun, hprestarting ht, ThreadPoolLifecycle.isRunning, Bool.and_true, if_true]
      omega
  · have hstopped : s.state.lifecycle.isRunning = false := by
      rw [← Bool.not_eq_true, ThreadPoolLifecycle.isRunning_eq_true]
      exact hrun
    simp [hstopped]

/-- As long as no call is made, no loop of `prestart_all_core_threads` is entered, and a worker
that leaves costs no more than before. -/
theorem Pool.surcharge_le {t : Pool Job} (hlen : t.calls.length = s.calls.length)
    (hprestarting : t.isPrestarting = true → s.isPrestarting = true) :
    t.surcharge ≤ s.surcharge := by
  rw [surcharge, surcharge, hlen]
  cases ht : t.isPrestarting with
  | false => simp
  | true => simp [hprestarting ht]

/-- What is left to a pool whose threads have taken a step, with or without a notification. -/
structure Pool.Spends (s s' : Pool Job) (wakeup : Bool) : Prop where
  /-- A worker that leaves costs no more than before. -/
  surcharge : s'.surcharge ≤ s.surcharge
  /-- A step is paid for, and a wakeup adds no more than a worker that leaves. -/
  effort : s'.effort + 1 ≤ s.effort + (2 + s.surcharge) * wakeup.toNat

/-! ### Steps of workers -/

/-- A round of `wait_for_job` is paid for by the worker that comes to it, or by a job it takes. -/
theorem Waited.effort_le {k : ℕ} {l₁ l₂ : List (Worker Job)} {w : Worker Job}
    {o : WaitOutcome Job} (hw : s.workers = l₁ ++ w :: l₂) (hk : l₁.length = k)
    (hp : w.phase.effort = 1) (h : Waited s w.index o s')
    (hexit : s.state.lifecycle = .running → o = .exit →
      s.state.corePoolSize < s.state.liveWorkers ∨ w.phase.isTimedOut = true) :
    ∃ t p, (s'.settleWait k o = t ∨ s'.settleWait k o = t.notifyTerminated) ∧
      t.calls = s.calls ∧ t.workers = l₁ ++ { w with phase := p } :: l₂ ∧
      p.isTimedOut = false ∧ t.vacancies ≤ s.vacancies + w.phase.isTimedOut.toNat ∧
      p.effort + 4 * t.queuedJobs.length + 1 ≤ w.phase.effort + 4 * s.queuedJobs.length := by
  subst hk
  cases h with
  | takeGlobal c j js hlife hq =>
    simp only [Pool.settleWait, Pool.setPhase, hw, modify_split]
    refine ⟨_, _, Or.inl rfl, rfl, rfl, rfl, Nat.le_add_right s.vacancies _, ?_⟩
    rw [hp]
    simp only [Pool.queuedJobs, Pool.record, hq, WorkerPhase.effort, ThreadPoolState.claim,
      List.length_append, List.length_cons]
    omega
  | takeLocal c v j js q₁ q₂ hlife hqs =>
    simp only [Pool.settleWait, Pool.setPhase, hw, modify_split]
    refine ⟨_, _, Or.inl rfl, rfl, rfl, rfl, Nat.le_add_right s.vacancies _, ?_⟩
    rw [hp]
    simp only [Pool.queuedJobs, Pool.record, hqs, WorkerPhase.effort, ThreadPoolState.claim,
      List.length_append, List.length_cons, List.flatMap_append, List.flatMap_cons]
    omega
  | park c hrun hnil hmax =>
    simp only [Pool.settleWait, Pool.setPhase, hw, modify_split]
    refine ⟨_, _, Or.inl rfl, rfl, rfl, rfl, Nat.le_add_right s.vacancies _, ?_⟩
    rw [hp]
    simp only [Pool.queuedJobs, WorkerPhase.effort]
    omega
  | exit c q₁ q₂ hnil hwhy hqs =>
    rw [Pool.settleWait, Pool.setPhase_notifyTerminated (p := .exited) _ rfl]
    simp only [Pool.setPhase, Pool.unregistered, hw, modify_split]
    refine ⟨_, _, Or.inr rfl, rfl, rfl, rfl, Pool.vacancies_le _ id rfl rfl ?_, ?_⟩
    · intro hrun
      rcases hexit hrun rfl with hcore | htimed
      · exact Or.inl (Nat.le_sub_one_of_lt hcore)
      · exact Or.inr (by rw [htimed]; exact Nat.le_add_of_sub_le le_rfl)
    · rw [hp]
      simp only [Pool.queuedJobs, hqs, WorkerPhase.effort, List.length_append,
        List.flatMap_append, List.flatMap_cons, List.nil_append]
      omega

/-- **A step of a worker is paid for**: the worker has one step less to go afterwards, or a job has
been taken out of a queue – unless it was woken up without a notification. If it leaves a place
to be filled, its wait has timed out before. -/
theorem Worked.effort_le (h : Wf s) {l₁ l₂ : List (Worker Job)} {w : Worker Job}
    (hw : s.workers = l₁ ++ w :: l₂) {a : Action Job} (hgoes : Worked s l₁.length w a s') :
    ∃ t p, (s' = t ∨ s' = t.notifyTerminated) ∧ t.calls = s.calls ∧
      t.workers = l₁ ++ { w with phase := p } :: l₂ ∧
      p.isTimedOut.toNat ≤ a.isWakeup.toNat ∧
      t.vacancies ≤ s.vacancies + w.phase.isTimedOut.toNat ∧
      p.effort + 4 * t.queuedJobs.length + 1 ≤
        w.phase.effort + 4 * s.queuedJobs.length + 2 * a.isWakeup.toNat := by
  have hmem : w ∈ s.workers := by rw [hw]; simp
  have hlive := hgoes.isLive
  have hcore := h.sizes.core_le
  -- a worker that has one step less to go, while the queues stay as they are
  have hgo : ∀ (p : WorkerPhase Job) (n : ℕ), p.effort + 1 ≤ w.phase.effort →
      p.effort + 4 * s.queuedJobs.length + 1 ≤ w.phase.effort + 4 * s.queuedJobs.length + n := by
    intro p n hlt
    omega
  cases hgoes with
  | finished n j hp hpos =>
    rw [Pool.setPhase_notifyTerminated (p := .ready) _ rfl, Pool.record_notifyTerminated]
    simp only [Pool.setPhase, Pool.record, hw, modify_split]
    exact ⟨_, _, Or.inr rfl, rfl, rfl, Nat.zero_le _, Nat.le_add_right s.vacancies _,
      hgo .ready _ (by rw [hp]; simp [WorkerPhase.effort])⟩
  | waited n hp o t hrun hwait =>
    obtain ⟨u, p, hu, hcalls, hworkers, htimed, hvacancies, hle⟩ :=
      hwait.effort_le hw rfl (by rw [hp]; rfl) fun hlife ho => Or.inl <| hcore.trans_lt <|
        maximum_lt_of_waitForJob_run (h.queuesOk hmem hlive) hlife (ho ▸ hrun)
    exact ⟨u, p, hu, hcalls, hworkers, by simp [htimed], hvacancies, by omega⟩
  | woken n status timeout hp hcond =>
    rw [Pool.setPhase_split hw]
    refine ⟨_, _, Or.inl rfl, rfl, rfl, Bool.toNat_le _, Nat.le_add_right s.vacancies _, ?_⟩
    simp only [hp, Pool.queuedJobs, WorkerPhase.effort, Action.isWakeup, Bool.toNat_true]
    omega
  | resumed n timeout status hp o t hrun hwait =>
    have hidle : w.phase.isWaiting = true := by rw [hp]; rfl
    have hexit : s.state.lifecycle = .running → o = .exit →
        s.state.corePoolSize < s.state.liveWorkers ∨ w.phase.isTimedOut = true := by
      intro hlife ho
      have hwhy := maximum_lt_of_resumeFromWait_run (h.queuesOk hmem hlive)
        (h.idle_pos hmem hidle) hlife (ho ▸ hrun)
      exact hwhy.imp hcore.trans_lt fun hstatus => by rw [hp, hstatus]; rfl
    obtain ⟨u, p, hu, hcalls, hworkers, htimed, hvacancies, hle⟩ :=
      hwait.effort_le (s := s.unparked) hw rfl (by rw [hp]; rfl) hexit
    exact ⟨u, p, hu, hcalls, hworkers, by simp [htimed], hvacancies,
      hle.trans (Nat.le_add_right _ _)⟩
  | runInvoked n j hp | runReturned n j hp | runUnwound n j hp | finishPanicked n j hp =>
    rw [Pool.setPhase_split hw]
    exact ⟨_, _, Or.inl rfl, rfl, rfl, Nat.zero_le _, Nat.le_add_right s.vacancies _,
      hgo _ _ (by rw [hp]; simp [WorkerPhase.effort])⟩

/-- Notifying everybody creates no room for workers, and takes none. -/
@[simp] theorem Pool.vacancies_wakeAll (s : Pool Job) : s.wakeAll.vacancies = s.vacancies := by
  simp [vacancies]

@[simp] theorem Pool.threads_wakeAll (s : Pool Job) : s.wakeAll.threads = s.threads := by
  simp [threads]

@[simp] theorem Pool.surcharge_wakeAll (s : Pool Job) : s.wakeAll.surcharge = s.surcharge := by
  simp [surcharge]

@[simp] theorem Pool.recruiting_wakeAll (s : Pool Job) : s.wakeAll.recruiting = s.recruiting := by
  simp [recruiting, countWorkers, Function.comp_def]

/-- What is left of a notification of termination to what is to be created: nothing. -/
@[simp] theorem Pool.surcharge_notifyTerminated (s : Pool Job) :
    s.notifyTerminated.surcharge = s.surcharge :=
  Pool.notifyTerminated_of (I := fun t => t.surcharge = s.surcharge) (fun _ h => by simpa using h)
    rfl

@[simp] theorem Pool.recruiting_notifyTerminated (s : Pool Job) :
    s.notifyTerminated.recruiting = s.recruiting :=
  Pool.notifyTerminated_of (I := fun t => t.recruiting = s.recruiting)
    (fun _ h => by simpa using h) rfl

/-- **A worker that leaves a place to be filled has paid for it when its wait timed out.** -/
theorem Pool.recruiting_le {t : Pool Job} (hcalls : t.calls = s.calls)
    (hlen : t.workers.length = s.workers.length) {left : Bool} {n : ℕ}
    (hvacancies : t.vacancies ≤ s.vacancies + left.toNat)
    (htimed : t.countWorkers WorkerPhase.isTimedOut + left.toNat ≤
      s.countWorkers WorkerPhase.isTimedOut + n) :
    t.callsEffort + t.recruiting ≤ s.callsEffort + s.recruiting + s.surcharge * n := by
  have hsame : t.isPrestarting = s.isPrestarting := by rw [isPrestarting, isPrestarting, hcalls]
  cases hs : s.isPrestarting with
  | false =>
    have hnone : t.vacancies = 0 ∧ s.vacancies = 0 := by simp [vacancies, hsame, hs]
    have hfree : t.surcharge = 0 ∧ s.surcharge = 0 := by simp [surcharge, hsame, hs]
    have hthreads : t.threads = s.threads := by
      rw [threads, threads, hcalls, hlen, hnone.1, hnone.2]
    rw [callsEffort, callsEffort, recruiting, recruiting, hcalls, hthreads, hnone.1, hnone.2,
      hfree.1, hfree.2]
    simp
  | true =>
    have hthreads : t.threads ≤ s.threads + left.toNat := by
      rw [threads, threads, hcalls, hlen]
      omega
    -- each setter may wake up whoever comes for the one that has left
    have hsum := sum_map_le_add_countP (p := fun _ => left) (fun c : Call Job =>
      (c.effort_mono hthreads).trans (c.effort_add_le s.threads left.toNat)) s.calls
    have hcost : s.calls.countP (fun _ => left) + 2 * left.toNat ≤
        (s.calls.length + 2) * left.toNat := by
      cases left <;> simp
    have hpaid := Nat.mul_le_mul_left (s.calls.length + 2) htimed
    rw [Nat.mul_add, Nat.mul_add] at hpaid
    have hsurcharge : t.surcharge = s.calls.length + 2 ∧ s.surcharge = s.calls.length + 2 := by
      simp [surcharge, hsame, hs, hcalls]
    rw [callsEffort, callsEffort, recruiting, recruiting, hcalls, hsurcharge.1, hsurcharge.2]
    omega

/-- A notification of termination finds no worker, so it adds nothing to what is left to them. -/
theorem Pool.workload_notifyTerminated (h : Wf s.notifyTerminated) :
    s.notifyTerminated.workload = s.workload := by
  by_cases hterm : s.state.isTerminated = true
  · rw [Pool.notifyTerminated_of_isTerminated hterm] at h ⊢
    have hlive := h.live
    rw [Pool.wakeAll_state, (ThreadPoolState.isTerminated_iff.mp hterm).2.2.2, eq_comm,
      Pool.countWorkers, List.countP_eq_zero] at hlive
    have hexited : ∀ w ∈ s.workers, w.wake.phase.effort = w.phase.effort := by
      intro w hw
      have hgone := hlive w.wake (List.mem_map_of_mem hw)
      rw [Worker.wake_phase, WorkerPhase.isLive_wake] at hgone
      rw [Worker.wake_phase]
      revert hgone
      cases w.phase <;> simp [WorkerPhase.isLive, WorkerPhase.wake]
    have hsum : (s.wakeAll.workers.map fun w => w.phase.effort) =
        s.workers.map fun w => w.phase.effort := by
      rw [Pool.wakeAll_workers, List.map_map]
      exact List.map_congr_left hexited
    rw [Pool.workload, hsum]
    rfl
  · rw [Pool.notifyTerminated, if_neg hterm]

/-- Whoever is told by a notification of termination was counted as unannounced. -/
theorem Pool.callsEffort_notifyTerminated (s : Pool Job) :
    s.notifyTerminated.callsEffort + s.notifyTerminated.unannounced ≤
      s.callsEffort + s.calls.countP Call.isAwaiting := by
  by_cases hterm : s.state.isTerminated = true
  · rw [Pool.notifyTerminated_of_isTerminated hterm]
    have hsum := sum_map_le_add_countP (fun c : Call Job => c.effort_wake_le s.threads) s.calls
    simpa [Pool.unannounced, hterm, Pool.callsEffort, Function.comp_def] using hsum
  · rw [Pool.notifyTerminated, if_neg hterm, Pool.unannounced, if_neg hterm]

/-- **A step of a worker lowers what is left to the pool**, unless it is a wakeup. -/
theorem Worked.spends (h : Wf s) (h' : Wf s') {l₁ l₂ : List (Worker Job)} {w : Worker Job}
    (hw : s.workers = l₁ ++ w :: l₂) {a : Action Job} (hgoes : Worked s l₁.length w a s') :
    s'.workload + 1 ≤ s.workload + 2 * a.isWakeup.toNat ∧ s.Spends s' a.isWakeup := by
  obtain ⟨t, p, hs', hcalls, hworkers, hpays, hvacancies, hle⟩ := hgoes.effort_le h hw
  have hlen : t.workers.length = s.workers.length := by rw [hworkers, hw]; simp
  have hload : t.workload + 1 ≤ s.workload + 2 * a.isWakeup.toNat := by
    have hmove := WorkerPhase.sum_effort_move l₁ l₂ w p
    rw [Pool.workload, Pool.workload, hworkers, hw]
    omega
  have hrecruiting : t.callsEffort + t.recruiting ≤
      s.callsEffort + s.recruiting + s.surcharge * a.isWakeup.toNat := by
    refine Pool.recruiting_le hcalls hlen hvacancies ?_
    have hcount := Pool.countWorkers_move WorkerPhase.isTimedOut hw hworkers
    omega
  have hsurcharge : t.surcharge ≤ s.surcharge :=
    Pool.surcharge_le (by rw [hcalls]) (by rw [Pool.isPrestarting, hcalls]; exact id)
  -- the worker that takes the step is there, so the pool is not terminated
  have hup : s.unannounced = s.calls.countP Call.isAwaiting := by
    have hpos := h.live_pos (w := w) (by rw [hw]; simp) hgoes.isLive
    rw [Pool.unannounced, if_neg]
    exact fun hterm => hpos.ne' (ThreadPoolState.isTerminated_iff.mp hterm).2.2.2
  rcases hs' with rfl | rfl
  · have hle' : s'.unannounced ≤ s'.calls.countP Call.isAwaiting := by
      rw [Pool.unannounced]
      split_ifs
      · exact Nat.zero_le _
      · exact le_rfl
    rw [hcalls] at hle'
    refine ⟨hload, hsurcharge, ?_⟩
    rw [Pool.effort, Pool.effort, Nat.add_mul]
    omega
  · have htold := t.callsEffort_notifyTerminated
    rw [hcalls] at htold
    refine ⟨Pool.workload_notifyTerminated h' ▸ hload, ?_, ?_⟩
    · rwa [Pool.surcharge_notifyTerminated]
    · rw [Pool.effort, Pool.effort, Pool.workload_notifyTerminated h',
        Pool.recruiting_notifyTerminated, Nat.add_mul]
      omega

/-! ### Steps of calls -/

/-- A call moves on without entering a loop of `prestart_all_core_threads`. -/
theorem Pool.isPrestarting_setCall {k : ℕ} {c c' : Call Job} (hk : s.calls[k]? = some c)
    (hstarts : c'.isPrestartAll = true → c.isPrestartAll = true)
    (h : (s.setCall k c').isPrestarting = true) : s.isPrestarting = true := by
  obtain ⟨d, hd, hp⟩ := List.any_eq_true.mp h
  rcases List.mem_or_eq_of_mem_set hd with hd | rfl
  · exact List.any_eq_true.mpr ⟨d, hd, hp⟩
  · exact List.any_eq_true.mpr ⟨c, List.mem_of_getElem? hk, hstarts hp⟩

/-- A call that moves on makes no worker that leaves cost more. -/
theorem Pool.surcharge_setCall {k : ℕ} {c c' : Call Job} (hk : s.calls[k]? = some c)
    (hstarts : c'.isPrestartAll = true → c.isPrestartAll = true) :
    (s.setCall k c').surcharge ≤ s.surcharge :=
  surcharge_le List.length_set (isPrestarting_setCall hk hstarts)

/-- A call moves on, and what is left to it changes. -/
theorem Pool.effort_setCall {k : ℕ} {c : Call Job} (c' : Call Job) (hk : s.calls[k]? = some c)
    (hawaits : c'.isAwaiting.toNat ≤ c.isAwaiting.toNat)
    (hstarts : c'.isPrestartAll = true → c.isPrestartAll = true) :
    (s.setCall k c').effort + c.effort s.threads ≤ s.effort + c'.effort s.threads := by
  have hvacancies : (s.setCall k c').vacancies ≤ s.vacancies :=
    vacancies_le 0 (isPrestarting_setCall hk hstarts) rfl rfl fun _ => Or.inr le_rfl
  have hthreads : (s.setCall k c').threads ≤ s.threads := by
    have hlen : (s.setCall k c').calls.length = s.calls.length := List.length_set
    have hworkers : (s.setCall k c').workers.length = s.workers.length := rfl
    rw [threads, threads, hlen, hworkers]
    omega
  obtain ⟨n, hbefore, hafter⟩ := sum_map_set (Call.effort s.threads) hk c'
  have hcalls : (s.setCall k c').callsEffort ≤ n + c'.effort s.threads := by
    have hsum := sum_map_le_add_countP (f := Call.effort s.threads) (p := fun _ => false)
      (fun d : Call Job => d.effort_mono hthreads) (s.calls.set k c')
    have hnone : (s.calls.set k c').countP (fun _ => false) = 0 := by simp
    rwa [hnone, Nat.add_zero, hafter] at hsum
  obtain ⟨r, hcount, hcount'⟩ := countP_set_toNat Call.isAwaiting hk c'
  have hunannounced : (s.setCall k c').unannounced ≤ s.unannounced := by
    have hcount'' : (s.setCall k c').calls.countP Call.isAwaiting ≤
        s.calls.countP Call.isAwaiting := by
      rw [hcount, show (s.setCall k c').calls = s.calls.set k c' from rfl, hcount']
      omega
    by_cases hterm : s.state.isTerminated = true
    · rw [unannounced, if_pos (by exact hterm)]
      exact Nat.zero_le _
    · rwa [unannounced, if_neg (by exact hterm), unannounced, if_neg hterm]
  have hrecruiting : (s.setCall k c').recruiting ≤ s.recruiting :=
    Nat.add_le_add (Nat.mul_le_mul_left 2 hvacancies)
      (Nat.mul_le_mul_right _ (surcharge_setCall hk hstarts))
  have hload : (s.setCall k c').workload = s.workload := rfl
  have hsum : s.callsEffort = n + c.effort s.threads := hbefore
  rw [effort, effort, hload, hsum]
  omega

/-- Whoever is notified has one step to go, and costs no more if it leaves. -/
theorem Pool.effort_wakeOne {t : Sleeper} (ht : s.isParked t = true) :
    (s.wakeOne t).surcharge ≤ s.surcharge ∧ (s.wakeOne t).effort ≤ s.effort + 1 := by
  cases t with
  | worker k =>
    obtain ⟨w, hk, -⟩ := (Option.any_eq_true ..).mp ht
    obtain ⟨l₁, l₂, hw, rfl⟩ := exists_split_of_getElem? hk
    have hwake := w.phase.effort_wake_le
    have hmove := WorkerPhase.sum_effort_move l₁ l₂ w w.phase.wake
    have hworkers : (s.wakeOne (.worker l₁.length)).workers =
        l₁ ++ { w with phase := w.phase.wake } :: l₂ := by
      simp only [Pool.wakeOne, hw, modify_split]
      rfl
    have hload : (s.wakeOne (.worker l₁.length)).workload ≤ s.workload + 1 := by
      have hjobs : (s.wakeOne (.worker l₁.length)).queuedJobs = s.queuedJobs := rfl
      rw [Pool.workload, Pool.workload, hworkers, hw, hjobs]
      omega
    have hlen : (s.wakeOne (.worker l₁.length)).workers.length = s.workers.length := by
      rw [hworkers, hw]
      simp
    have htimed : (s.wakeOne (.worker l₁.length)).countWorkers WorkerPhase.isTimedOut +
        Bool.toNat false ≤ s.countWorkers WorkerPhase.isTimedOut + 0 := by
      have hcount := Pool.countWorkers_move WorkerPhase.isTimedOut hw hworkers
      rw [WorkerPhase.isTimedOut_wake] at hcount
      rw [Bool.toNat_false]
      omega
    have hvacancies : (s.wakeOne (.worker l₁.length)).vacancies ≤ s.vacancies + Bool.toNat false :=
      Nat.le_refl s.vacancies
    have hrecruiting := Pool.recruiting_le (by rfl) hlen hvacancies htimed
    have hunannounced : (s.wakeOne (.worker l₁.length)).unannounced = s.unannounced := rfl
    refine ⟨le_rfl, ?_⟩
    rw [Pool.effort, Pool.effort]
    omega
  | caller k =>
    obtain ⟨c, hk, hparked⟩ := (Option.any_eq_true ..).mp ht
    have hset : s.wakeOne (.caller k) = s.setCall k c.wake := by
      obtain ⟨c₁, c₂, hc, rfl⟩ := exists_split_of_getElem? hk
      rw [Pool.setCall_split hc, Pool.wakeOne, hc, modify_split]
    have hgo := Pool.effort_setCall c.wake hk (by simp) (by simp)
    have hwake := c.effort_wake_le s.threads
    have hone := Bool.toNat_le c.isAwaiting
    rw [hset]
    exact ⟨Pool.surcharge_setCall hk (by simp), by omega⟩

/-- Whoever is woken up by a notification to everybody has one step to go. -/
theorem Pool.effort_wakeAll (s : Pool Job) : s.wakeAll.effort ≤ s.effort + s.threads := by
  have hworkers : (s.wakeAll.workers.map fun w => w.phase.effort).sum ≤
      (s.workers.map fun w => w.phase.effort).sum + s.workers.length := by
    have hsum := sum_map_le_add_countP (p := fun _ => true)
      (fun w : Worker Job => w.phase.effort_wake_le) s.workers
    simpa [Function.comp_def] using hsum
  have hcalls : s.wakeAll.callsEffort ≤ s.callsEffort + s.calls.length := by
    have hsum := sum_map_le_add_countP (fun c : Call Job => c.effort_wake_le s.threads) s.calls
    have hcount := List.countP_le_length (p := Call.isAwaiting) (l := s.calls)
    rw [Pool.callsEffort, Pool.callsEffort, Pool.threads_wakeAll]
    simp only [Pool.wakeAll_calls, List.map_map, Function.comp_def]
    omega
  have hunannounced : s.wakeAll.unannounced = s.unannounced := by
    simp [Pool.unannounced, Function.comp_def]
  have hjobs : s.wakeAll.queuedJobs = s.queuedJobs := rfl
  rw [Pool.effort, Pool.effort, Pool.workload, Pool.workload, hjobs, Pool.recruiting_wakeAll,
    Pool.threads]
  omega

/-- A call that has one step less to go pays for the step. -/
theorem Pool.Spends.of_setCall {k : ℕ} {c c' : Call Job} {f : Ledger Job → Ledger Job}
    (hk : s.calls[k]? = some c) (hawaits : c'.isAwaiting.toNat ≤ c.isAwaiting.toNat)
    (hstarts : c'.isPrestartAll = true → c.isPrestartAll = true)
    (hless : ∀ n, c'.effort n + 1 ≤ c.effort n) :
    s.Spends ((s.setCall k c').record f) false := by
  refine ⟨Pool.surcharge_setCall hk hstarts, ?_⟩
  have hset := Pool.effort_setCall c' hk hawaits hstarts
  have hless := hless s.threads
  have hrecord : ((s.setCall k c').record f).effort = (s.setCall k c').effort := rfl
  rw [Bool.toNat_false]
  omega

/-- A round of `prestart_all_core_threads` creates a worker and goes on, or ends. -/
theorem critical_prestartAllNext_ok (started : ℕ) :
    s.state.lifecycle = .running ∧ s.state.liveWorkers < s.state.corePoolSize ∧
        critical (prestartAllNext started .ok) s = (.prestartAll (started + 1), s.spawned none) ∨
      ∃ r, critical (prestartAllNext started .ok) s =
        (.returned (.prestartAllCoreThreads r), s) := by
  by_cases hrun : s.state.lifecycle = .running
  · by_cases hcore : s.state.liveWorkers < s.state.corePoolSize
    · refine Or.inl ⟨hrun, hcore, ?_⟩
      simp [critical, prestartAllNext, prestartCoreThread_run_ok hrun hcore]
    · have hfull := prestartCoreThread_run_full hrun (Nat.not_lt.mp hcore) .ok
      exact Or.inr ⟨.ok started, by simp [critical, prestartAllNext, hfull]⟩
  · have hstopped := prestartCoreThread_run_of_not_running hrun .ok
    exact Or.inr ⟨.error .shutdown, by simp [critical, prestartAllNext, hstopped]⟩

/-- **A worker that is created was a vacancy.** -/
theorem Pool.Spends.of_spawned {k started : ℕ} (hk : s.calls[k]? = some (.prestartAll started))
    (hrun : s.state.lifecycle = .running) (hcore : s.state.liveWorkers < s.state.corePoolSize) :
    s.Spends ((s.spawned none).setCall k (.prestartAll (started + 1))) false := by
  have hbefore : s.isPrestarting = true :=
    List.any_eq_true.mpr ⟨_, List.mem_of_getElem? hk, rfl⟩
  have hvacancies : (s.spawned none).vacancies + 1 = s.vacancies := by
    have hafter : (s.spawned none).isPrestarting = true := hbefore
    rw [vacancies, vacancies, hbefore, hafter]
    simp only [spawned, hrun, ThreadPoolLifecycle.isRunning, Bool.and_self, if_true]
    omega
  have hthreads : (s.spawned none).threads = s.threads := by
    have hlen : (s.spawned none).workers.length = s.workers.length + 1 := by simp [spawned]
    have hcalls : (s.spawned none).calls.length = s.calls.length := rfl
    rw [threads, threads, hlen, hcalls]
    omega
  have hcallsEffort : (s.spawned none).callsEffort = s.callsEffort := by
    rw [callsEffort, callsEffort, hthreads]
    rfl
  have hunannounced : (s.spawned none).unannounced = s.unannounced := by
    have hup : ∀ t : Pool Job, t.state.lifecycle = .running → t.state.isTerminated = false := by
      intro t ht
      simp [ThreadPoolState.isTerminated, ht]
    rw [unannounced, unannounced, hup s hrun, hup (s.spawned none) hrun]
    rfl
  have hload : (s.spawned none).workload = s.workload + 1 := by
    have hjobs : (s.spawned none).queuedJobs = s.queuedJobs := by simp [queuedJobs, spawned]
    rw [workload, workload, hjobs]
    simp [spawned, WorkerPhase.effort]
    omega
  have hrecruiting : (s.spawned none).recruiting + 2 = s.recruiting := by
    have htimed : (s.spawned none).countWorkers WorkerPhase.isTimedOut =
        s.countWorkers WorkerPhase.isTimedOut := by
      simp [countWorkers, spawned, WorkerPhase.isTimedOut]
    have hsame : (s.spawned none).surcharge = s.surcharge := rfl
    rw [recruiting, recruiting, htimed, hsame, ← hvacancies]
    omega
  have hset := effort_setCall (s := s.spawned none) (.prestartAll (started + 1)) hk le_rfl id
  refine ⟨surcharge_setCall (s := s.spawned none) hk id, ?_⟩
  have hspawned : (s.spawned none).effort + 1 = s.effort := by
    rw [Pool.effort, Pool.effort, hload, hcallsEffort, hunannounced]
    omega
  simp only [Call.effort] at hset
  rw [Bool.toNat_false]
  omega

/-- A submission that has notified has one step less to go, and whoever it wakes up has one. -/
theorem Pool.Spends.of_notified {k : ℕ} {t : Sleeper} (hk : s.calls[k]? = some .submitNotify)
    (ht : s.isParked t = true) :
    s.Spends ((s.wakeOne t).setCall k (.returned (.submit (.ok ())))) false := by
  have hwake := Pool.effort_wakeOne ht
  have hk' : (s.wakeOne t).calls[k]? = some .submitNotify := by
    cases t with
    | worker j => exact hk
    | caller j =>
      simp only [Pool.wakeOne, List.getElem?_modify, hk]
      split_ifs <;> rfl
  have hset := Pool.effort_setCall (.returned (.submit (.ok ()))) hk'
    (by simp [Call.isAwaiting]) (by simp [Call.isPrestartAll])
  simp only [Call.effort] at hset
  refine ⟨(Pool.surcharge_setCall hk' (by simp [Call.isPrestartAll])).trans hwake.1, ?_⟩
  rw [Bool.toNat_false]
  omega

/-- A round of `prestart_all_core_threads` fills a vacancy, or is the last. -/
theorem Pool.Spends.of_prestarted {k started : ℕ}
    (hk : s.calls[k]? = some (.prestartAll started)) :
    s.Spends ((critical (prestartAllNext started .ok) s).2.setCall k
      (critical (prestartAllNext started .ok) s).1) false := by
  rcases critical_prestartAllNext_ok (s := s) started with ⟨hrun, hcore, hcrit⟩ | ⟨r, hcrit⟩
  · rw [hcrit]
    exact .of_spawned hk hrun hcore
  · rw [hcrit]
    exact .of_setCall (f := id) hk (by simp [Call.isAwaiting]) (by simp [Call.isPrestartAll])
      fun n => by simp [Call.effort]

/-- The `notify_all` of a setter was provided for, whoever sleeps. -/
theorem Pool.Spends.of_setterNotified {k : ℕ} (hk : s.calls[k]? = some .setterNotify) :
    s.Spends (s.wakeAll.setCall k (.returned (.setter (.ok ())))) false := by
  have hwake := s.effort_wakeAll
  have hk' : s.wakeAll.calls[k]? = some .setterNotify := by
    rw [Pool.wakeAll_calls, List.getElem?_map, hk]
    rfl
  have hset := Pool.effort_setCall (.returned (.setter (.ok ()))) hk'
    (by simp [Call.isAwaiting]) (by simp [Call.isPrestartAll])
  simp only [Call.effort, Pool.threads_wakeAll] at hset
  refine ⟨(Pool.surcharge_setCall hk' (by simp [Call.isPrestartAll])).trans (by simp), ?_⟩
  rw [Bool.toNat_false]
  omega

/-- A user wakes up, which is what a wakeup may add. -/
theorem Pool.Spends.of_callerWoken {k : ℕ}
    (hk : s.calls[k]? = some (.waitForTermination false)) :
    s.Spends (s.setCall k (.waitForTermination true)) true := by
  have hset := Pool.effort_setCall (.waitForTermination true) hk le_rfl id
  simp only [Call.effort, Bool.toNat_true, Bool.toNat_false] at hset
  refine ⟨Pool.surcharge_setCall hk id, ?_⟩
  rw [Bool.toNat_true]
  omega

/-- **A call that goes on lowers what is left to the pool**, unless it is woken up. -/
theorem Continued.spends {a : Action Job} (ha : (a.isOwn || a.isWakeup) = true)
    (hgoes : Continued s a s') : s.Spends s' a.isWakeup := by
  cases hgoes with
  | notified k t hk ht => exact .of_notified hk ht
  | prestarted k started spawned hk =>
    obtain rfl : spawned = .ok := by
      cases spawned <;> first | rfl | exact absurd ha (by simp [Action.isOwn, Action.isWakeup])
    exact .of_prestarted hk
  | setterNotified k hk => exact .of_setterNotified hk
  | callerWoken k hk => exact .of_callerWoken hk
  | callerParks k hk hterm =>
    exact .of_setCall (f := id) hk le_rfl id fun n => by simp [Call.effort]
  | cancelInvoked k job jobs report hk =>
    exact .of_setCall hk (by simp [Call.isAwaiting]) (by simp [Call.isPrestartAll])
      fun n => by simp [Call.effort]; omega
  | rollbackInvoked k job error hk | cancelReturned k job jobs report hk
  | rollbackReturned k job error hk =>
    exact .of_setCall hk (by simp [Call.isAwaiting]) (by simp [Call.isPrestartAll])
      fun n => by simp [Call.effort]
  | notifiedNobody k hk hnone | cancelUnwound k job jobs report message hk
  | rollbackUnwound k job error message hk | shutdownNowReturned k report hk
  | callerReturns k hk hterm =>
    exact .of_setCall (f := id) hk (by simp [Call.isAwaiting]) (by simp [Call.isPrestartAll])
      fun n => by simp [Call.effort]

/-- What the threads of a pool do on their own is done by a worker, or a call goes on. -/
theorem Action.goesOn_of_isOwn {a : Action Job} (ha : a.worker? = none)
    (hown : (a.isOwn || a.isWakeup) = true) : a.goesOn = true := by
  cases a with
  | notifyOne | prestartAllNext | notifySetter | invokeCancel | cancelReturns | cancelUnwinds
  | shutdownNowReturns | wakeCaller | resumeCaller => rfl
  | invokeRun | runReturns | finishRunningJob | waitForJob | wakeWorker | resumeWorker =>
    exact absurd ha (by simp [Action.worker?])
  | _ => exact absurd hown (by simp [isOwn, isWakeup])

section Step

variable [DecidableEq Job]

/-- **What a step leaves to the pool**: a step of a worker lowers the workload, and a step the
threads take on their own lowers what is left to all of them. -/
theorem effort_step (h : Wf s) {a : Action Job} (hstep : step s a = some s') :
    (a.worker?.isSome = true → s'.workload + 1 ≤ s.workload + 2 * a.isWakeup.toNat) ∧
      ((a.isOwn || a.isWakeup) = true → s.Spends s' a.isWakeup) := by
  have h' : Wf s' := Machine.invariant_of_chain (fun _ _ h he => h.effect he)
    (step_effects (m := Mode.any) h Permitted.any hstep) h
  rw [step] at hstep
  cases ha : a.worker? with
  | none =>
    rw [ha] at hstep
    refine ⟨fun hsome => absurd hsome (by simp), fun hown => ?_⟩
    exact (callerStep_goesOn (a.goesOn_of_isOwn ha hown) hstep).spends hown
  | some k =>
    rw [ha] at hstep
    cases hk : s.workers[k]? with
    | none => simp [hk] at hstep
    | some w =>
      simp only [hk] at hstep
      obtain ⟨l₁, l₂, hw, rfl⟩ := exists_split_of_getElem? hk
      obtain ⟨hload, hspends⟩ := (workerStep_worked h hk hstep).spends h h' hw
      exact ⟨fun _ => hload, fun _ => hspends⟩

end Step

/-! ### After a shutdown -/

/-- After a shutdown no worker sleeps. -/
def Alert (s : Pool Job) : Prop :=
  s.state.lifecycle ≠ .running → ∀ w ∈ s.workers, w.phase.isParked = false

namespace Alert

/-- The workers are the same, and the pool runs if it ran before. -/
theorem of_eq (h : Alert s) {t : Pool Job} (hworkers : t.workers = s.workers)
    (hlife : t.state.lifecycle = s.state.lifecycle) : Alert t := by
  intro hrun w hw
  rw [hlife] at hrun
  exact h hrun w (hworkers ▸ hw)

/-- A worker moves on, and does not park. -/
theorem of_move (h : Alert s) {t : Pool Job} {l₁ l₂ : List (Worker Job)} {w : Worker Job}
    {p : WorkerPhase Job} (hw : s.workers = l₁ ++ w :: l₂)
    (ht : t.workers = l₁ ++ { w with phase := p } :: l₂) (hp : p.isParked = false)
    (hlife : t.state.lifecycle = s.state.lifecycle) : Alert t := by
  intro hrun v hv
  rw [hlife] at hrun
  have halert := h hrun
  rw [ht] at hv
  rcases List.mem_append.mp hv with hv | hv
  · exact halert v (by rw [hw]; exact List.mem_append_left _ hv)
  · rcases List.mem_cons.mp hv with rfl | hv
    · exact hp
    · exact halert v (by rw [hw]; exact List.mem_append_right _ (List.mem_cons_of_mem _ hv))

theorem wakeAll (s : Pool Job) : Alert s.wakeAll := by
  intro _ v hv
  obtain ⟨w, -, rfl⟩ := List.mem_map.mp hv
  simp

/-- **Effects put nobody to sleep after a shutdown.** -/
theorem effect (h : Alert s) (he : Effect m s s') : Alert s' := by
  cases he with
  | spawnIdle hrun => exact fun hne => absurd hrun hne
  | spawnFor job hnew hrun => exact fun hne => absurd hrun hne
  | spawnPanics firstTask hm hrun => exact fun hne => absurd hrun hne
  | wakeWorker l₁ l₂ w hw => exact h.of_move hw rfl rfl rfl
  | wakeAll => exact wakeAll s
  | claimGlobal l₁ l₂ w hw => exact h.of_move hw rfl rfl rfl
  | claimLocal l₁ l₂ w hw => exact h.of_move hw rfl rfl rfl
  | park l₁ l₂ w hw hp hrun => exact fun hne => absurd hrun hne
  | unpark l₁ l₂ w hw => exact h.of_move hw rfl rfl rfl
  | exit _ l₁ l₂ w hw =>
    exact Pool.notifyTerminated_of (I := Alert) (fun t _ => wakeAll t) (h.of_move hw rfl rfl rfl)
  | invokeRun l₁ l₂ w hw => exact h.of_move hw rfl rfl rfl
  | runReturns l₁ l₂ w hw => exact h.of_move hw rfl rfl rfl
  | finish l₁ l₂ w hw =>
    exact Pool.notifyTerminated_of (I := Alert) (fun t _ => wakeAll t) (h.of_move hw rfl rfl rfl)
  | shutdown hparked | drain hparked =>
    simp only [Pool.noneParked, Bool.and_eq_true, List.all_eq_true, Bool.not_eq_true'] at hparked
    exact fun _ => hparked.1
  | unwind l₁ l₂ w hw => exact h.of_move hw rfl rfl rfl
  | finishPanics l₁ l₂ w hw => exact h.of_move hw rfl rfl rfl
  | _ => exact h.of_eq rfl rfl

/-- A pool that was just built runs. -/
theorem of_build {b : ThreadPoolBuilder} (hb : build b = .ok s) : Alert s := by
  obtain ⟨-, rfl | rfl⟩ := build_eq_ok hb
  · exact fun hne => absurd rfl hne
  · exact fun hne => absurd rfl hne

/-- After a shutdown no worker of a run sleeps. -/
theorem of_reach [DecidableEq Job] {ok : Pool Job → Action Job → Prop}
    (hs : (machine Job).ReachVia ok s) : Alert s :=
  reach_invariant (fun _ _ _ _ => Permitted.any) (fun _ _ => of_build)
    (fun _ _ _ h he => h.effect he) hs

end Alert

/-- A worker moves on, and what is left to the workers with it. -/
theorem Pool.workload_le_of_move {t : Pool Job} {l₁ l₂ : List (Worker Job)} {w : Worker Job}
    {p : WorkerPhase Job} (hw : s.workers = l₁ ++ w :: l₂)
    (ht : t.workers = l₁ ++ { w with phase := p } :: l₂)
    (hle : p.effort + 4 * t.queuedJobs.length ≤ w.phase.effort + 4 * s.queuedJobs.length) :
    t.workload ≤ s.workload := by
  have hmove := WorkerPhase.sum_effort_move l₁ l₂ w p
  rw [Pool.workload, Pool.workload, hw, ht]
  omega

/-- Where no worker sleeps, none is woken up. -/
theorem Pool.workload_wakeAll (h : ∀ w ∈ s.workers, w.phase.isParked = false) :
    s.wakeAll.workload = s.workload := by
  have hsum : (s.wakeAll.workers.map fun w => w.phase.effort) =
      s.workers.map fun w => w.phase.effort := by
    rw [Pool.wakeAll_workers, List.map_map]
    refine List.map_congr_left fun w hw => ?_
    rw [Function.comp_apply, Worker.wake_phase, WorkerPhase.wake_of_not_parked (h w hw)]
  rw [Pool.workload, hsum]
  rfl

/-- **After a shutdown nothing adds to the workload.** -/
theorem Effect.workload_le (hlife : s.state.lifecycle ≠ .running) (halert : Alert s)
    (he : Effect m s s') : s'.workload ≤ s.workload := by
  -- a notification of termination reaches nobody that sleeps
  have hnotified : ∀ t : Pool Job, t.state.lifecycle ≠ .running → Alert t →
      t.workload ≤ s.workload → t.notifyTerminated.workload ≤ s.workload := by
    intro t hrun ht hle
    rw [Pool.notifyTerminated]
    split_ifs
    · rw [Pool.workload_wakeAll (ht hrun)]
      exact hle
    · exact hle
  have hsame : ∀ t : Pool Job, t.workers = s.workers → t.queuedJobs = s.queuedJobs →
      t.workload ≤ s.workload := by
    intro t hworkers hjobs
    rw [Pool.workload, Pool.workload, hworkers, hjobs]
  cases he with
  | spawnIdle hrun => exact absurd hrun hlife
  | spawnFor job hnew hrun => exact absurd hrun hlife
  | spawnPanics firstTask hm hrun => exact absurd hrun hlife
  | enqueueGlobal job c hc hnew hrun => exact absurd hrun hlife
  | enqueueLocal job hnew hrun => exact absurd hrun hlife
  | wakeWorker l₁ l₂ w hw timeout status hp =>
    have hawake := halert hlife w (by rw [hw]; simp)
    rw [hp] at hawake
    exact absurd hawake (by simp [WorkerPhase.isParked])
  | wakeAll => exact (Pool.workload_wakeAll (halert hlife)).le
  | claimGlobal l₁ l₂ w hw hp j js _ hq =>
    refine Pool.workload_le_of_move hw rfl ?_
    rw [hp]
    simp only [Pool.queuedJobs, hq, WorkerPhase.effort, List.length_append, List.length_cons]
    omega
  | claimLocal l₁ l₂ w hw hp q₁ q₂ v j js _ hqs =>
    refine Pool.workload_le_of_move hw rfl ?_
    rw [hp]
    simp only [Pool.queuedJobs, hqs, WorkerPhase.effort, ThreadPoolState.claim,
      List.length_append, List.length_cons, List.flatMap_append, List.flatMap_cons]
    omega
  | park l₁ l₂ w hw hp hrun => exact absurd hrun hlife
  | unpark l₁ l₂ w hw timeout status hp =>
    refine Pool.workload_le_of_move hw rfl ?_
    rw [hp]
    exact le_rfl
  | exit hm l₁ l₂ w hw hp hnil hwhy q₁ q₂ hqs =>
    refine hnotified _ hlife (halert.of_move hw rfl rfl rfl) (Pool.workload_le_of_move hw rfl ?_)
    rw [hp]
    simp only [Pool.queuedJobs, Pool.unregistered, hqs, WorkerPhase.effort, List.length_append,
      List.flatMap_append, List.flatMap_cons, List.nil_append]
    omega
  | invokeRun l₁ l₂ w hw j hp | runReturns l₁ l₂ w hw j hp =>
    refine Pool.workload_le_of_move hw rfl ?_
    rw [hp]
    exact Nat.add_le_add_right (by simp [WorkerPhase.effort]) _
  | finish l₁ l₂ w hw j hp hpos =>
    refine hnotified _ hlife (halert.of_move hw rfl rfl rfl) (Pool.workload_le_of_move hw rfl ?_)
    rw [hp]
    exact Nat.add_le_add_right (by simp [WorkerPhase.effort]) _
  | drain =>
    have hnil := s.queuedJobs_drain
    rw [Pool.workload, Pool.workload, show Pool.queuedJobs { s.drain with
      calls := s.calls ++ [.shutdownNow s.queuedJobs none ⟨s.state.queuedTasks,
        s.state.runningTasks, s.state.queuedTasks⟩] } = [] from hnil]
    exact Nat.add_le_add_left (Nat.zero_le _) _
  | unwind l₁ l₂ w hw j hp | finishPanics l₁ l₂ w hw j hp =>
    refine Pool.workload_le_of_move hw rfl ?_
    rw [hp]
    exact Nat.add_le_add_right (by simp [WorkerPhase.effort]) _
  | _ => exact hsame _ rfl rfl

section Drains

variable [DecidableEq Job]

/-- **After a shutdown a step of a worker lowers the workload, and no step raises it.** -/
theorem workload_step (hs : (machine Job).Reach s) (hlife : s.state.lifecycle ≠ .running)
    {a : Action Job} (hstep : step s a = some s') :
    s'.state.lifecycle ≠ .running ∧ s'.workload + a.worker?.isSome.toNat ≤ s.workload := by
  have hwf : Wf s := wf_of_reach hs
  have halert : Alert s := Alert.of_reach hs
  have hall : (Wf s' ∧ Alert s' ∧ s'.state.lifecycle ≠ .running) ∧ s'.workload ≤ s.workload :=
    Machine.invariant_of_chain
      (I := fun t => (Wf t ∧ Alert t ∧ t.state.lifecycle ≠ .running) ∧ t.workload ≤ s.workload)
      (fun _ _ ⟨⟨hwf, halert, hlife⟩, hle⟩ he =>
        ⟨⟨hwf.effect he, halert.effect he, (he.accepted_of_not_running hlife).1⟩,
          (he.workload_le hlife halert).trans hle⟩)
      (step_effects (m := Mode.any) hwf Permitted.any hstep) ⟨⟨hwf, halert, hlife⟩, le_rfl⟩
  refine ⟨hall.1.2.2, ?_⟩
  cases hworker : a.worker?.isSome with
  | false => exact hall.2
  | true =>
    have hless := (effort_step hwf hstep).1 hworker
    -- nobody sleeps, so this was no wakeup
    have hawake : a.isWakeup = false := by
      cases a with
      | wakeWorker k status =>
        exfalso
        simp only [step, Action.worker?] at hstep
        cases hk : s.workers[k]? with
        | none => simp [hk] at hstep
        | some w =>
          have hup := halert hlife w (List.mem_of_getElem? hk)
          simp only [hk] at hstep
          cases hp : w.phase with
          | waiting timeout wake =>
            cases wake with
            | none => simp [hp, WorkerPhase.isParked] at hup
            | some status => simp [hp, workerStep] at hstep
          | _ => simp [hp, workerStep] at hstep
      | wakeCaller k => exact absurd hworker (by simp [Action.worker?])
      | _ => rfl
    rw [hawake, Bool.toNat_false] at hless
    rw [Bool.toNat_true]
    omega

/-- A worker that neither sleeps nor has left can take a step of its own. -/
theorem exists_workerStep {k : ℕ} {w : Worker Job} (hk : s.workers[k]? = some w)
    (hended : w.phase.hasEnded = false) (hup : w.phase.isParked = false) :
    ∃ a : Action Job, a.worker? = some k ∧ a.isOwn = true ∧ (step s a).isSome = true := by
  cases hp : w.phase with
  | holding job =>
    exact ⟨.invokeRun k, rfl, rfl, by simp [step, Action.worker?, hk, hp, workerStep]⟩
  | running job =>
    exact ⟨.runReturns k, rfl, rfl, by simp [step, Action.worker?, hk, hp, workerStep]⟩
  | finishing job =>
    refine ⟨.finishRunningJob k, rfl, rfl, ?_⟩
    simp only [step, Action.worker?, hk, hp, workerStep]
    split <;> rfl
  | ready => exact ⟨.waitForJob k, rfl, rfl, by simp [step, Action.worker?, hk, hp, workerStep]⟩
  | waiting timeout wake =>
    cases wake with
    | none => exact absurd (hp ▸ hup) (by simp [WorkerPhase.isParked])
    | some status =>
      exact ⟨.resumeWorker k, rfl, rfl, by simp [step, Action.worker?, hk, hp, workerStep]⟩
  | exited => exact absurd (hp ▸ hended) (by simp [WorkerPhase.hasEnded])
  | unwound => exact absurd (hp ▸ hended) (by simp [WorkerPhase.hasEnded])
  | unborn => exact absurd (hp ▸ hended) (by simp [WorkerPhase.hasEnded])

omit [DecidableEq Job] in
/-- A pool that was shut down and whose workers have all left is terminated. -/
theorem Wf.isTerminated_of_exited (h : Wf s) (hlife : s.state.lifecycle ≠ .running)
    (hexited : ∀ w ∈ s.workers, w.phase = .exited) : s.state.isTerminated = true := by
  have hlive : s.state.liveWorkers = 0 := by
    rw [h.live, Pool.countWorkers, List.countP_eq_zero]
    intro w hw
    rw [hexited w hw]
    simp [WorkerPhase.isLive]
  have hqueued : s.queuedJobs = [] := by
    by_contra hne
    exact (h.staffed hne).ne' hlive
  refine ThreadPoolState.isTerminated_iff.mpr ⟨hlife, ?_, h.running_of_live hlive, hlive⟩
  rw [h.queued, hqueued]
  rfl

omit [DecidableEq Job] in
/-- Whoever is registered has four steps to go at most, and so has every job in a queue. -/
theorem Wf.workload_le (h : Wf s) :
    s.workload ≤ 4 * (s.state.liveWorkers + s.state.queuedTasks) := by
  have hworker : ∀ w : Worker Job, w.phase.effort ≤ 4 * w.phase.isLive.toNat := by
    intro w
    cases hp : w.phase with
    | waiting timeout wake => cases wake <;> simp [WorkerPhase.effort, WorkerPhase.isLive]
    | _ => simp [WorkerPhase.effort, WorkerPhase.isLive]
  have hsum : ∀ l : List (Worker Job), (l.map fun w => w.phase.effort).sum ≤
      4 * l.countP fun w => w.phase.isLive := by
    intro l
    induction l with
    | nil => exact le_rfl
    | cons w l ih =>
      have hw := hworker w
      rw [List.map_cons, List.sum_cons, List.countP_cons]
      cases hlive : w.phase.isLive <;> simp only [hlive, Bool.toNat_true, Bool.toNat_false] at hw
      all_goals simp only [if_true, if_false, Bool.false_eq_true]; omega
  have hworkers := hsum s.workers
  rw [Pool.workload, h.live, h.queued, Pool.countWorkers]
  omega

/-- **A pool that was shut down drains.** Whatever its users do from then on, and in whatever
order, as long as callbacks return: its workers take at most four steps for each of them that is
registered and each job that is queued. Every worker that has not left can take a step at any
time. So after as many steps of workers the pool is terminated. -/
theorem drains_after_shutdown (hs : (machine Job).ReachVia (fun _ a => a.calm = true) s)
    (hlife : s.state.lifecycle ≠ .running) {as : List (Action Job)} {t : Pool Job}
    (hrun : (machine Job).exec (fun _ a => a.calm) s as = some t) :
    as.countP (fun a => a.worker?.isSome) ≤ 4 * (s.state.liveWorkers + s.state.queuedTasks) ∧
      (∀ (k : ℕ) (w : Worker Job), t.workers[k]? = some w → w.phase ≠ .exited →
        ∃ a : Action Job, a.worker? = some k ∧ a.calm = true ∧ (step t a).isSome = true) ∧
      (4 * (s.state.liveWorkers + s.state.queuedTasks) ≤
          as.countP (fun a => a.worker?.isSome) → t.state.isTerminated = true) := by
  obtain ⟨⟨ht, htlife⟩, hcount⟩ := Machine.exec_potential
    (fun s => (machine Job).ReachVia (fun _ a => a.calm = true) s ∧ s.state.lifecycle ≠ .running)
    Pool.workload (fun a => a.worker?.isSome) (fun _ => false) 0
    (fun u a u' h ha hu => ⟨h.1.next ha hu, (workload_step h.1.reach h.2 hu).1⟩)
    (fun u a u' h ha hu => (workload_step h.1.reach h.2 hu).2.trans (Nat.le_add_right _ _))
    as ⟨hs, hlife⟩ hrun
  have hbound := (wf_of_reach hs).workload_le
  have hcounted : Counted t := Counted.of_reach (fun _ _ => Action.not_isFaulty_of_calm) ht
  -- who has not left is neither dead nor asleep
  have hgoes : ∀ (k : ℕ) (w : Worker Job), t.workers[k]? = some w → w.phase ≠ .exited →
      ∃ a : Action Job, a.worker? = some k ∧ a.calm = true ∧ (step t a).isSome = true := by
    intro k w hk hne
    have hw := List.mem_of_getElem? hk
    have hended : w.phase.hasEnded = false := by
      have halive := hcounted.alive w hw
      revert hne halive
      cases w.phase <;> simp [WorkerPhase.hasEnded]
    obtain ⟨a, ha, hown, hstep⟩ :=
      exists_workerStep hk hended (Alert.of_reach ht htlife w hw)
    exact ⟨a, ha, (Action.calm_of_isOwn (s := t) (by rw [hown, Bool.true_or])).1, hstep⟩
  refine ⟨by omega, hgoes, fun hall => ?_⟩
  refine (wf_of_reach ht).isTerminated_of_exited htlife fun w hw => ?_
  by_contra hne
  obtain ⟨k, hk⟩ := List.getElem?_of_mem hw
  obtain ⟨a, ha, hcalm, hstep⟩ := hgoes k w hk hne
  -- one more step would be one too many
  obtain ⟨t', ht'⟩ := Option.isSome_iff_exists.mp hstep
  have hless := (workload_step ht.reach htlife ht').2
  rw [ha, Option.isSome_some, Bool.toNat_true] at hless
  omega

end Drains

/-- A pool of one worker with one job in its hands and one queued is shut down: after five steps of
its worker there are three left at most, and it can take the next. -/
theorem drains_after_shutdown_halfway :
    ∃ s t : Pool ℕ, ∃ as : List (Action ℕ), (machine ℕ).exec (fun _ a => a.calm) s as = some t ∧
      as.countP (fun a => a.worker?.isSome) ≤ 8 ∧ t.state.isTerminated = false ∧
      ∃ a : Action ℕ, a.worker? = some 0 ∧ a.calm = true ∧ (step t a).isSome = true := by
  obtain ⟨s, hs, hp⟩ := Machine.exists_reachVia_of_exec (fun _ a => a.calm = true)
    (fun _ a => a.calm) (fun _ _ h => h) (machine_init_ofSize ℕ 0)
    [.submit 0 .ok, .submit 1 .ok, .shutdown]
    (fun s => !s.state.lifecycle.isRunning && s.state.liveWorkers == 1 &&
      s.state.queuedTasks == 1 &&
      ((machine ℕ).exec (fun _ a => a.calm) s [.invokeRun 0, .runReturns 0, .waitForTermination,
        .finishRunningJob 0, .waitForJob 0, .invokeRun 0]).any fun t =>
          !t.state.isTerminated && (t.workers[0]?).any fun w => !w.phase.hasEnded)
    (by decide)
  simp only [Bool.and_eq_true, Bool.not_eq_true', beq_iff_eq, Option.any_eq_true] at hp
  obtain ⟨⟨⟨hlife, hlive⟩, hqueued⟩, t, ht, hup, w, hw, hended⟩ := hp
  have hne : w.phase ≠ .exited := by
    intro hexited
    rw [hexited] at hended
    exact absurd hended (by simp [WorkerPhase.hasEnded])
  have hstopped : s.state.lifecycle ≠ .running := by
    intro hrun
    rw [hrun] at hlife
    exact absurd hlife (by simp [ThreadPoolLifecycle.isRunning])
  have hdrains := drains_after_shutdown hs hstopped ht
  rw [hlive, hqueued] at hdrains
  exact ⟨s, t, _, ht, hdrains.1, hup, hdrains.2.1 0 w hw hne⟩

/-! ### A pool that is left alone -/

section WorksOff

variable [DecidableEq Job]

/-- Nobody waits for the termination of a running pool, where nobody ever did. -/
theorem patient_of_reach
    (hs : (machine Job).ReachVia (fun s a => a.calm = true ∧ a.awaitsLate s = true) s) :
    Patient s := by
  refine reach_invariant (m := { Mode.any with early := False }) (fun s a _ ha => ?_)
    (fun _ _ => Patient.of_build) (fun _ _ _ h he => h.effect id he) hs
  refine ⟨fun _ => trivial, fun _ => trivial, fun hearly => ?_, fun _ => trivial⟩
  have hlate := ha.2
  revert hearly hlate
  cases a <;> simp [Action.isEarly, Action.awaitsLate]

/-- So somebody is up for every job in a queue. -/
theorem awake_of_reach
    (hs : (machine Job).ReachVia (fun s a => a.calm = true ∧ a.awaitsLate s = true) s) :
    Awake s :=
  reach_invariant (m := { Mode.any with stray := False })
    (fun _ _ hr _ => ⟨fun _ => trivial, (patient_of_reach hr).not_isStray, fun _ => trivial,
      fun _ => trivial⟩)
    (fun _ _ => Awake.of_build) (fun _ _ hwf h he => h.effect id hwf he) hs

/-- Whether a call has nothing left to do on its own: it is over, or is parked. -/
def Call.isSettled : Call Job → Bool
  | shutdownNowUnwound _ _ | returned _ => true
  | waitForTermination woken => !woken
  | _ => false

/-- A call that is not settled can take a step of its own. -/
theorem exists_callerStep {k : ℕ} {c : Call Job} (hk : s.calls[k]? = some c)
    (hgoes : c.isSettled = false) :
    ∃ a : Action Job, a.isOwn = true ∧ (step s a).isSome = true := by
  cases c with
  | submitNotify =>
    by_cases hnone : s.noneParked = true
    · exact ⟨.notifyOne k none, rfl, by simp [step, Action.worker?, callerStep, hk, hnone]⟩
    · -- somebody is there for the notification
      obtain ⟨t, ht⟩ : ∃ t, s.isParked t = true := by
        rw [Pool.noneParked, Bool.and_eq_true, not_and_or, Bool.not_eq_true, Bool.not_eq_true,
          List.all_eq_false, List.all_eq_false] at hnone
        rcases hnone with ⟨w, hw, hp⟩ | ⟨c, hc, hp⟩
        · obtain ⟨j, hj⟩ := List.getElem?_of_mem hw
          exact ⟨.worker j, by simpa [Pool.isParked, hj] using hp⟩
        · obtain ⟨j, hj⟩ := List.getElem?_of_mem hc
          exact ⟨.caller j, by simpa [Pool.isParked, hj] using hp⟩
      exact ⟨.notifyOne k (some t), rfl, by simp [step, Action.worker?, callerStep, hk, ht]⟩
  | submitRollback job error invoked =>
    cases invoked with
    | false => exact ⟨.invokeCancel k, rfl, by simp [step, Action.worker?, callerStep, hk]⟩
    | true => exact ⟨.cancelReturns k, rfl, by simp [step, Action.worker?, callerStep, hk]⟩
  | setterNotify => exact ⟨.notifySetter k, rfl, by simp [step, Action.worker?, callerStep, hk]⟩
  | shutdownNow jobs current report =>
    cases current with
    | some job => exact ⟨.cancelReturns k, rfl, by simp [step, Action.worker?, callerStep, hk]⟩
    | none =>
      cases jobs with
      | nil => exact ⟨.shutdownNowReturns k, rfl, by simp [step, Action.worker?, callerStep, hk]⟩
      | cons job jobs =>
        exact ⟨.invokeCancel k, rfl, by simp [step, Action.worker?, callerStep, hk]⟩
  | waitForTermination woken =>
    cases woken with
    | false => exact absurd hgoes (by simp [Call.isSettled])
    | true => exact ⟨.resumeCaller k, rfl, by simp [step, Action.worker?, callerStep, hk]⟩
  | prestartAll started =>
    exact ⟨.prestartAllNext k .ok, rfl, by simp [step, Action.worker?, callerStep, hk]⟩
  | shutdownNowUnwound jobs message => exact absurd hgoes (by simp [Call.isSettled])
  | returned reply => exact absurd hgoes (by simp [Call.isSettled])

/-- **A pool in which no thread can go on by itself has nothing left to do.** -/
theorem nothing_left
    (hs : (machine Job).ReachVia (fun s a => a.calm = true ∧ a.awaitsLate s = true) s)
    (hstill : ∀ a : Action Job, a.isOwn = true → step s a = none) :
    (∀ w ∈ s.workers, w.phase.isParked = true ∨ w.phase = .exited) ∧
      (∀ c ∈ s.calls, c.isSettled = true) ∧ s.queuedJobs = [] := by
  have hcounted : Counted s := Counted.of_reach (fun _ _ ha => Action.not_isFaulty_of_calm ha.1) hs
  have hworkers : ∀ w ∈ s.workers, w.phase.hasEnded = true ∨ w.phase.isParked = true := by
    intro w hw
    by_contra hgoes
    rw [not_or, Bool.not_eq_true, Bool.not_eq_true] at hgoes
    obtain ⟨k, hk⟩ := List.getElem?_of_mem hw
    obtain ⟨a, -, hown, hstep⟩ := exists_workerStep hk hgoes.1 hgoes.2
    rw [hstill a hown] at hstep
    exact absurd hstep (by simp)
  have hcalls : ∀ c ∈ s.calls, c.isSettled = true := by
    intro c hc
    by_contra hgoes
    rw [Bool.not_eq_true] at hgoes
    obtain ⟨k, hk⟩ := List.getElem?_of_mem hc
    obtain ⟨a, hown, hstep⟩ := exists_callerStep hk hgoes
    rw [hstill a hown] at hstep
    exact absurd hstep (by simp)
  refine ⟨fun w hw => ?_, hcalls, ?_⟩
  · refine (hworkers w hw).symm.imp_right fun hended => ?_
    have halive := hcounted.alive w hw
    revert hended halive
    cases w.phase <;> simp [WorkerPhase.hasEnded]
  · by_contra hne
    rcases (awake_of_reach hs).exists_of_queued hne with hup | ⟨c, hc, howes⟩
    · obtain ⟨w, hw, hgoes, hup⟩ := hcounted.exists_of_live hup
      rcases hworkers w hw with hended | hparked
      · exact absurd (hgoes ▸ hended) (by simp)
      · exact absurd (hup ▸ hparked) (by simp)
    · have hsettled := hcalls c hc
      cases c <;> simp [Call.owesNotifyOne, Call.isSettled] at howes hsettled

/-- Where nothing is left to do, nobody can go on. -/
theorem step_eq_none_of_effort (h : Wf s) (hzero : s.effort = 0) {a : Action Job}
    (ha : a.isOwn = true) : step s a = none := by
  cases hstep : step s a with
  | none => rfl
  | some s' =>
    have hwakeup : a.isWakeup = false := by
      revert ha
      cases a <;> simp [Action.isOwn, Action.isWakeup]
    have hless := ((effort_step h hstep).2 (by rw [ha, Bool.true_or])).effort
    rw [hwakeup, hzero, Bool.toNat_false] at hless
    omega

/-- A run of the threads of a pool spends what is left to it. -/
theorem effort_run
    (hs : (machine Job).ReachVia (fun s a => a.calm = true ∧ a.awaitsLate s = true) s)
    {as : List (Action Job)} {t : Pool Job}
    (hrun : (machine Job).exec (fun _ a => a.isOwn || a.isWakeup) s as = some t) :
    (machine Job).ReachVia (fun s a => a.calm = true ∧ a.awaitsLate s = true) t ∧
      as.countP Action.isOwn + t.effort ≤
        s.effort + (1 + s.surcharge) * as.countP Action.isWakeup := by
  obtain ⟨⟨ht, -⟩, hcount⟩ := Machine.exec_potential
    (fun u => (machine Job).ReachVia (fun s a => a.calm = true ∧ a.awaitsLate s = true) u ∧
      u.surcharge ≤ s.surcharge)
    Pool.effort Action.isOwn Action.isWakeup (1 + s.surcharge)
    (fun u a u' h ha hu => ⟨h.1.next (Action.calm_of_isOwn ha) hu,
      (((effort_step (wf_of_reach h.1) hu).2 ha).surcharge).trans h.2⟩)
    (fun u a u' h ha hu => by
      have hless := ((effort_step (wf_of_reach h.1) hu).2 ha).effort
      cases hwakeup : a.isWakeup with
      | false =>
        rw [hwakeup, Bool.or_false] at ha
        simpa [hwakeup, ha] using hless
      | true =>
        have hown : a.isOwn = false := by
          revert hwakeup
          cases a <;> simp [Action.isOwn, Action.isWakeup]
        have hcost := h.2
        rw [hwakeup, Bool.toNat_true] at hless
        rw [hown, Bool.toNat_false, Bool.toNat_true]
        omega)
    as ⟨hs, le_rfl⟩ hrun
  exact ⟨ht, hcount⟩

/-- **Where every thread is at rest, every accepted job has been dealt with**, or belongs to a
`shutdown_now` that the cancel callback of one of its jobs has unwound. -/
theorem settled_of_still
    (hs : (machine Job).ReachVia (fun s a => a.calm = true ∧ a.awaitsLate s = true) s)
    (hstill : ∀ a : Action Job, a.isOwn = true → step s a = none) {j : Job}
    (hj : j ∈ s.ledger.accepted) :
    s.ledger.completed.count j + s.ledger.cancelReturned.count j = 1 ∨
      ∃ jobs message, .shutdownNowUnwound jobs message ∈ s.calls ∧ j ∈ jobs := by
  obtain ⟨hworkers, hcalls, hqueued⟩ := nothing_left hs hstill
  have hheld : s.heldJobs = [] := by
    refine List.flatMap_eq_nil_iff.mpr fun w hw => ?_
    rcases hworkers w hw with hparked | hexited
    · revert hparked
      cases w.phase <;> simp [WorkerPhase.isParked, WorkerPhase.held]
    · rw [hexited]
      rfl
  have halive : s.countWorkers WorkerPhase.isUnwound = 0 := by
    rw [Pool.countWorkers, List.countP_eq_zero]
    intro w hw
    rcases hworkers w hw with hparked | hexited
    · revert hparked
      cases w.phase <;> simp [WorkerPhase.isParked, WorkerPhase.isUnwound]
    · rw [hexited]
      simp [WorkerPhase.isUnwound]
  obtain ⟨hunwound, habandoned⟩ := (runsCounted_of_reach hs).nothing_lost halive
  have hplaced := placed_of_reach hs
  have hplaces := hplaced.places j
  rw [hplaced.count_accepted hj, hqueued, hheld] at hplaces
  by_cases hdrained : j ∈ s.drainedJobs
  · -- a call that is over and still has jobs was unwound
    obtain ⟨c, hc, hjc⟩ := List.mem_flatMap.mp hdrained
    have hsettled := hcalls c hc
    cases c with
    | shutdownNowUnwound jobs message => exact Or.inr ⟨jobs, message, hc, hjc⟩
    | shutdownNow jobs current report => exact absurd hsettled (by simp [Call.isSettled])
    | _ => exact absurd hjc (by simp [Call.drained])
  · rw [List.count_eq_zero.mpr hdrained] at hplaces
    exact Or.inl (by simpa [Pool.finishedJobs, hunwound, habandoned] using hplaces)

/-- **A pool that is left alone works off everything.** Take a run in which run callbacks return
and nobody waits for termination before a shutdown, and let the users make no more calls, while
those under way go on. Then the threads of the pool take at most `s.effort` steps, and one more
for each wakeup without a notification – or, while a `prestart_all_core_threads` is under way,
`1 + s.surcharge` more, since whoever times out and leaves is replaced. Where none of them can go
on, no job is left: every accepted job has completed or its cancel callback has returned, but for
those of a `shutdown_now` that a cancel callback has unwound; the workers sleep or have left, and
the calls are over or sleep – and if the pool was shut down it is terminated, and everybody who
waits for that has returned. -/
theorem works_off
    (hs : (machine Job).ReachVia (fun s a => a.calm = true ∧ a.awaitsLate s = true) s)
    {as : List (Action Job)} {t : Pool Job}
    (hrun : (machine Job).exec (fun _ a => a.isOwn || a.isWakeup) s as = some t) :
    as.countP Action.isOwn + t.effort ≤
        s.effort + (1 + s.surcharge) * as.countP Action.isWakeup ∧
      ((∀ a : Action Job, a.isOwn = true → step t a = none) →
        (∀ j ∈ t.ledger.accepted,
          t.ledger.completed.count j + t.ledger.cancelReturned.count j = 1 ∨
            ∃ jobs message, .shutdownNowUnwound jobs message ∈ t.calls ∧ j ∈ jobs) ∧
        (∀ w ∈ t.workers, w.phase.isParked = true ∨ w.phase = .exited) ∧
        (∀ c ∈ t.calls, c.isSettled = true) ∧
        (t.state.lifecycle ≠ .running →
          t.state.isTerminated = true ∧ ∀ c ∈ t.calls, c.isAwaiting = false)) := by
  obtain ⟨ht, hcount⟩ := effort_run hs hrun
  refine ⟨hcount, fun hstill => ?_⟩
  obtain ⟨hworkers, hcalls, -⟩ := nothing_left ht hstill
  refine ⟨fun j hj => settled_of_still ht hstill hj, hworkers, hcalls, fun hlife => ?_⟩
  have hterm : t.state.isTerminated = true := by
    refine (wf_of_reach ht).isTerminated_of_exited hlife fun w hw =>
      (hworkers w hw).resolve_left ?_
    rw [Alert.of_reach ht hlife w hw]
    simp
  refine ⟨hterm, fun c hc => ?_⟩
  have hparked := noCallerParked_of_reach ht hterm c hc
  have hsettled := hcalls c hc
  cases c with
  | waitForTermination woken =>
    rw [Call.isParked, Bool.not_eq_false'] at hparked
    rw [Call.isSettled, hparked] at hsettled
    exact absurd hsettled (by simp)
  | _ => rfl

end WorksOff

/-- Two workers of a pool of three run one job each, and a `prestart_all_core_threads` under way
creates the third; then all of them sleep, and both jobs have completed. -/
theorem works_off_two :
    ∃ s t : Pool ℕ, ∃ as : List (Action ℕ),
      (machine ℕ).exec (fun _ a => a.isOwn || a.isWakeup) s as = some t ∧
      as.countP Action.isOwn = 11 ∧ as.countP Action.isOwn + t.effort ≤ s.effort ∧
      t.ledger.accepted = [0, 1] ∧ t.ledger.cancelReturned = [] ∧
      ∀ j ∈ t.ledger.accepted, t.ledger.completed.count j = 1 := by
  obtain ⟨s, hs, hp⟩ := Machine.exists_reachVia_of_exec
    (fun s a => a.calm = true ∧ a.awaitsLate s = true) (fun s a => a.calm && a.awaitsLate s)
    (fun _ _ h => by simpa using h) (machine_init_ofSize ℕ 2)
    [.prestartAllCoreThreads, .submit 0 .ok, .submit 1 .ok]
    (fun s => ((machine ℕ).exec (fun _ a => a.isOwn || a.isWakeup) s [.prestartAllNext 0 .ok,
      .invokeRun 0, .runReturns 0, .finishRunningJob 0, .waitForJob 0, .prestartAllNext 0 .ok,
      .invokeRun 1, .runReturns 1, .finishRunningJob 1, .waitForJob 1, .waitForJob 2]).any fun t =>
        t.effort == 0 && t.ledger.accepted == [0, 1] && t.ledger.cancelReturned.isEmpty &&
          t.drainedJobs.isEmpty)
    (by decide)
  simp only [Option.any_eq_true, Bool.and_eq_true, beq_iff_eq, List.isEmpty_iff] at hp
  obtain ⟨t, ht, ⟨⟨heffort, haccepted⟩, hcancelled⟩, hdrained⟩ := hp
  have hreach : (machine ℕ).Reach t :=
    Machine.reachVia_of_exec (fun _ _ _ => trivial) _ hs.reach ht
  obtain ⟨hbound, hover⟩ := works_off hs ht
  refine ⟨s, t, _, ht, rfl, by simpa [Action.isWakeup] using hbound, haccepted, hcancelled,
    fun j hj => ?_⟩
  have hdone := (hover fun _ ha => step_eq_none_of_effort (wf_of_reach hreach) heffort ha).1 j hj
  rcases hdone with hone | ⟨jobs, message, hc, hj⟩
  · rwa [hcancelled, List.count_nil, Nat.add_zero] at hone
  · have hmem : j ∈ t.drainedJobs := List.mem_flatMap.mpr ⟨_, hc, hj⟩
    rw [hdrained] at hmem
    exact absurd hmem (by simp)

end ThreadPool

end QubitConcurrent
