import QubitConcurrent.ThreadPool.Accounting

/-!
# Who wakes up for a job

Workers that have nothing to do and users that wait for termination park on one
condition variable, and a `submit` that queues a job while some worker is counted
as idle sends a single `notify_one` – after releasing the lock, and to whomever
the condition variable picks.

While every such notification goes to a worker, a job never waits in vain
(`QubitConcurrent.ThreadPool.Awake`): as long as something is queued, some
registered worker is up, or a `submit` still owes its notification. The counter
`idle_workers` on which `submit` decides also counts workers that were woken up
and have not reacquired the lock, so the notification may find nobody; but then
those workers are up, and look at the queues before they park again.

A user who waits for the termination of a *running* pool breaks this: the
notification may go to him, and he parks again. It goes to a worker if no such
user is parked when it is sent, in particular if nobody waits for termination
before shutdown (`QubitConcurrent.ThreadPool.Patient`).
-/

namespace QubitConcurrent

namespace ThreadPool

variable {Job : Type} {m : Mode} {s s' : Pool Job}

/-- Whether a registered worker is on its way to look at the queues: it is not in
the wait set. -/
def WorkerPhase.isUp (p : WorkerPhase Job) : Bool := p.isLive && !p.isParked

theorem WorkerPhase.isUp_wake {p : WorkerPhase Job} (h : p.isLive = true) :
    p.wake.isUp = true := by
  rw [isUp, isLive_wake, isParked_wake, h]
  rfl

theorem WorkerPhase.isLive_of_isUp {p : WorkerPhase Job} (h : p.isUp = true) :
    p.isLive = true := by
  rw [isUp, Bool.and_eq_true] at h
  exact h.1

/-! ### The invariant -/

/-- **A queued job has somebody to take it.** -/
structure Awake (s : Pool Job) : Prop where
  /-- Some registered worker is up, or will be notified. -/
  served : s.queuedJobs ≠ [] →
    (s.workers.any fun w => w.phase.isUp) = true ∨ s.calls.any Call.owesNotifyOne = true
  /-- After shutdown nobody sleeps. -/
  alert : s.state.lifecycle ≠ .running → ∀ w ∈ s.workers, w.phase.isParked = false

namespace Awake

/-- Some worker is up. -/
theorem of_up {t : Pool Job} {w : Worker Job} (hw : w ∈ t.workers)
    (hup : w.phase.isUp = true)
    (halert : t.state.lifecycle ≠ .running → ∀ w ∈ t.workers, w.phase.isParked = false) :
    Awake t where
  served := fun _ => Or.inl (List.any_eq_true.mpr ⟨w, hw, hup⟩)
  alert := halert

/-- Nothing is queued. -/
theorem of_nil {t : Pool Job} (hnil : t.queuedJobs = [])
    (halert : t.state.lifecycle ≠ .running → ∀ w ∈ t.workers, w.phase.isParked = false) :
    Awake t where
  served := fun hne => absurd hnil hne
  alert := halert

/-- A worker stops sleeping, or goes on with what it does. -/
theorem of_move (h : Awake s) {t : Pool Job} {l₁ l₂ : List (Worker Job)}
    {w : Worker Job} {p : WorkerPhase Job} (hw : s.workers = l₁ ++ w :: l₂)
    (ht : t.workers = l₁ ++ { w with phase := p } :: l₂) (hup : p.isUp = true)
    (hlife : t.state.lifecycle = s.state.lifecycle) : Awake t := by
  refine of_up (w := { w with phase := p }) (by rw [ht]; simp) hup fun hrun v hv => ?_
  rw [hlife] at hrun
  have halert := h.alert hrun
  rw [ht] at hv
  rcases List.mem_append.mp hv with hv | hv
  · exact halert v (by rw [hw]; exact List.mem_append_left _ hv)
  · rcases List.mem_cons.mp hv with rfl | hv
    · rw [WorkerPhase.isUp, Bool.and_eq_true, Bool.not_eq_true'] at hup
      exact hup.2
    · exact halert v (by rw [hw]; exact List.mem_append_right _ (List.mem_cons_of_mem _ hv))

/-- Calls come and go, and none that owes a notification goes. -/
theorem of_calls (h : Awake s) {t : Pool Job} (hworkers : t.workers = s.workers)
    (hqueued : t.queuedJobs = s.queuedJobs) (hlife : t.state.lifecycle = s.state.lifecycle)
    (howes : s.calls.any Call.owesNotifyOne = true → t.calls.any Call.owesNotifyOne = true) :
    Awake t where
  served := by
    rw [hqueued, hworkers]
    exact fun hne => (h.served hne).imp_right howes
  alert := by
    rw [hlife, hworkers]
    exact h.alert

/-- A call is made. -/
theorem of_append (h : Awake s) {t : Pool Job} {c : Call Job} (ht : t.calls = s.calls ++ [c])
    (hworkers : t.workers = s.workers) (hqueued : t.queuedJobs = s.queuedJobs)
    (hlife : t.state.lifecycle = s.state.lifecycle) : Awake t := by
  refine h.of_calls hworkers hqueued hlife fun howes => ?_
  rw [ht, List.any_append, howes, Bool.true_or]

/-- A call that owes nothing moves on. -/
theorem of_replace (h : Awake s) {t : Pool Job} {c₁ c₂ : List (Call Job)} {c c' : Call Job}
    (hs : s.calls = c₁ ++ c :: c₂) (ht : t.calls = c₁ ++ c' :: c₂) (hc : c.owesNotifyOne = false)
    (hworkers : t.workers = s.workers) (hqueued : t.queuedJobs = s.queuedJobs)
    (hlife : t.state.lifecycle = s.state.lifecycle) : Awake t := by
  refine h.of_calls hworkers hqueued hlife fun howes => ?_
  rw [hs, List.any_append, List.any_cons, hc, Bool.false_or, Bool.or_eq_true] at howes
  rw [ht, List.any_append, List.any_cons, Bool.or_eq_true, Bool.or_eq_true]
  exact howes.imp_right Or.inr

/-- Waking everybody up leaves nobody asleep. -/
theorem wakeAll (h : Awake s) : Awake s.wakeAll where
  served := by
    intro hne
    refine (h.served hne).imp (fun hup => ?_) (fun howes => by simpa using howes)
    obtain ⟨w, hw, hup⟩ := List.any_eq_true.mp hup
    refine List.any_eq_true.mpr ⟨w.wake, List.mem_map_of_mem hw, ?_⟩
    exact WorkerPhase.isUp_wake (WorkerPhase.isLive_of_isUp hup)
  alert := by
    intro _ v hv
    obtain ⟨w, -, rfl⟩ := List.mem_map.mp hv
    simp

/-- If something is queued and nobody sleeps, a worker is up. -/
theorem any_isUp_of_awake (hwf : Wf s) (hne : s.queuedJobs ≠ [])
    (hawake : ∀ w ∈ s.workers, w.phase.isParked = false) :
    (s.workers.any fun w => w.phase.isUp) = true := by
  have hlive := hwf.staffed hne
  rw [hwf.live] at hlive
  obtain ⟨w, hw, hp⟩ := List.countP_pos_iff.mp hlive
  refine List.any_eq_true.mpr ⟨w, hw, ?_⟩
  rw [WorkerPhase.isUp, hp, hawake w hw]
  rfl

/-- A job that was put into a queue has somebody to take it. -/
theorem of_enqueue (hwf : Wf s) {t : Pool Job} {c : Call Job}
    (hc : c = s.state.enqueueCall ∨ c.isQuiet = true ∧ s.state.idleWorkers = 0)
    (hworkers : t.workers = s.workers) (hcalls : t.calls = s.calls ++ [c])
    (hpos : 0 < s.state.liveWorkers) (hrun : t.state.lifecycle = .running) : Awake t where
  served := by
    intro _
    rcases Nat.eq_zero_or_pos s.state.idleWorkers with hidle | hidle
    · -- nobody waits, so whoever is registered is up
      rw [hwf.idle, Pool.countWorkers, List.countP_eq_zero] at hidle
      rw [hwf.live] at hpos
      obtain ⟨w, hw, hp⟩ := List.countP_pos_iff.mp hpos
      refine Or.inl (List.any_eq_true.mpr ⟨w, by rw [hworkers]; exact hw, ?_⟩)
      have hwait := hidle w hw
      revert hwait hp
      cases w.phase <;> simp [WorkerPhase.isUp, WorkerPhase.isLive, WorkerPhase.isWaiting,
        WorkerPhase.isParked]
    · obtain rfl := hc.resolve_right fun hnone => Nat.ne_of_gt hidle hnone.2
      refine Or.inr ?_
      rw [hcalls, ThreadPoolState.enqueueCall, if_pos hidle]
      simp [Call.owesNotifyOne]
  alert := fun hne => absurd hrun hne

/-- **Effects leave no queued job alone**, but for stray notifications. -/
theorem effect (hm : ¬m.stray) (hwf : Wf s) (h : Awake s) (he : Effect m s s') : Awake s' := by
  cases he with
  | call => exact h.of_append rfl rfl rfl rfl
  | callMoves c₁ c₂ c c' hcalls hc =>
    refine h.of_replace hcalls rfl ?_ rfl rfl rfl
    cases c <;> first | rfl | exact absurd hc (by simp [Call.isQuiet])
  | configure => exact h.of_append rfl rfl rfl rfl
  | setterDone c₁ c₂ hcalls => exact h.of_replace hcalls rfl rfl rfl rfl rfl
  | reject => exact h.of_append rfl rfl rfl rfl
  | rollback => exact h.of_append rfl rfl rfl rfl
  | rollbackInvoked c₁ c₂ job error hcalls => exact h.of_replace hcalls rfl rfl rfl rfl rfl
  | rollbackReturned c₁ c₂ job error hcalls => exact h.of_replace hcalls rfl rfl rfl rfl rfl
  | rollbackUnwound c₁ c₂ job error message hcalls =>
    exact h.of_replace hcalls rfl rfl rfl rfl rfl
  | spawnIdle hrun =>
    exact of_up (List.mem_append_right _ (List.mem_singleton_self _)) rfl
      fun hne => absurd hrun hne
  | spawnFor job hnew hrun =>
    exact of_up (List.mem_append_right _ (List.mem_singleton_self _)) rfl
      fun hne => absurd hrun hne
  | spawnPanics _ _ hrun =>
    exact of_up (List.mem_append_right _ (List.mem_singleton_self _)) rfl
      fun hne => absurd hrun hne
  | enqueueGlobal job c hc hnew hrun hlive => exact of_enqueue hwf hc rfl rfl hlive hrun
  | enqueueLocal job hnew hrun hlive => exact of_enqueue hwf (Or.inl rfl) rfl rfl hlive hrun
  | notifyDone c₁ c₂ hcalls hwoken =>
    -- whoever has answered the notification is up
    have hup : s.queuedJobs ≠ [] → (s.workers.any fun w => w.phase.isUp) = true := by
      intro hne
      rcases hwoken with hstray | hrun | hawake | ⟨w, hw, hwait, hparked⟩
      · exact absurd hstray hm
      · exact any_isUp_of_awake hwf hne (h.alert hrun)
      · exact any_isUp_of_awake hwf hne hawake
      · refine List.any_eq_true.mpr ⟨w, hw, ?_⟩
        revert hwait hparked
        cases w.phase <;> simp [WorkerPhase.isUp, WorkerPhase.isLive, WorkerPhase.isWaiting]
    exact ⟨fun hne => Or.inl (hup hne), h.alert⟩
  | wakeWorker l₁ l₂ w hw => exact h.of_move hw rfl rfl rfl
  | wakeCaller c₁ c₂ hcalls => exact h.of_replace hcalls rfl rfl rfl rfl rfl
  | wakeAll => exact h.wakeAll
  | claimGlobal l₁ l₂ w hw => exact h.of_move hw rfl rfl rfl
  | claimLocal l₁ l₂ w hw => exact h.of_move hw rfl rfl rfl
  | park l₁ l₂ w hw hp hrun hnil => exact of_nil hnil fun hne => absurd hrun hne
  | unpark l₁ l₂ w hw => exact h.of_move hw rfl rfl rfl
  | exit _ l₁ l₂ w hw hp hnil hwhy q₁ q₂ hqs =>
    refine Pool.notifyTerminated_of (I := Awake) (fun _ => wakeAll) (of_nil ?_ fun hrun v hv => ?_)
    · simpa [Pool.queuedJobs, Pool.unregistered, hqs] using hnil
    · have halert := h.alert hrun
      rcases List.mem_append.mp hv with hv | hv
      · exact halert v (by rw [hw]; exact List.mem_append_left _ hv)
      · rcases List.mem_cons.mp hv with rfl | hv
        · rfl
        · exact halert v (by rw [hw]; exact List.mem_append_right _ (List.mem_cons_of_mem _ hv))
  | invokeRun l₁ l₂ w hw => exact h.of_move hw rfl rfl rfl
  | runReturns l₁ l₂ w hw => exact h.of_move hw rfl rfl rfl
  | finish l₁ l₂ w hw j hp hpos =>
    refine Pool.notifyTerminated_of (I := Awake) (fun _ => wakeAll) ?_
    exact h.of_move hw rfl rfl rfl
  | shutdown hparked =>
    simp only [Pool.noneParked, Bool.and_eq_true, List.all_eq_true, Bool.not_eq_true'] at hparked
    refine ⟨fun hne => (h.served hne).imp_right fun howes => ?_, fun _ => hparked.1⟩
    rw [List.any_append, howes, Bool.true_or]
  | drain hparked =>
    simp only [Pool.noneParked, Bool.and_eq_true, List.all_eq_true, Bool.not_eq_true'] at hparked
    exact of_nil s.queuedJobs_drain fun _ => hparked.1
  | cancelInvoked c₁ c₂ job jobs report hcalls => exact h.of_replace hcalls rfl rfl rfl rfl rfl
  | cancelReturned c₁ c₂ job jobs report hcalls => exact h.of_replace hcalls rfl rfl rfl rfl rfl
  | cancelUnwound c₁ c₂ job jobs report message hcalls =>
    exact h.of_replace hcalls rfl rfl rfl rfl rfl
  | shutdownNowReturned c₁ c₂ report hcalls => exact h.of_replace hcalls rfl rfl rfl rfl rfl
  | parkCaller => exact h.of_append rfl rfl rfl rfl
  | reparkCaller c₁ c₂ hcalls => exact h.of_replace hcalls rfl rfl rfl rfl rfl
  | callerReturns c₁ c₂ hcalls => exact h.of_replace hcalls rfl rfl rfl rfl rfl
  | unwind l₁ l₂ w hw => exact h.of_move hw rfl rfl rfl
  | finishPanics l₁ l₂ w hw => exact h.of_move hw rfl rfl rfl
  | skipIndex => exact ⟨h.served, h.alert⟩
  | moveCursor => exact ⟨h.served, h.alert⟩
  | dropRunning => exact ⟨h.served, h.alert⟩

/-- Nothing is queued in a pool that was just built. -/
theorem of_build {b : ThreadPoolBuilder} (hb : build b = .ok s) : Awake s := by
  obtain ⟨-, rfl | rfl⟩ := build_eq_ok hb
  · exact of_nil rfl (by simp [Pool.new])
  · exact of_nil rfl (by simp [Pool.new, Pool.addCall])

end Awake

/-! ### Users who wait for termination -/

/-- Nobody waits for the termination of a running pool. -/
def Patient (s : Pool Job) : Prop :=
  s.calls.any Call.isAwaiting = true → s.state.lifecycle ≠ .running

namespace Patient

theorem of_append (h : Patient s) {t : Pool Job} {c : Call Job} (ht : t.calls = s.calls ++ [c])
    (hc : c.isAwaiting = true → s.state.lifecycle ≠ .running)
    (hlife : t.state.lifecycle = s.state.lifecycle) : Patient t := by
  intro hany
  rw [ht, List.any_append, List.any_cons, List.any_nil, Bool.or_false, Bool.or_eq_true] at hany
  rw [hlife]
  exact hany.elim h hc

theorem of_replace (h : Patient s) {t : Pool Job} {c₁ c₂ : List (Call Job)} {c c' : Call Job}
    (hs : s.calls = c₁ ++ c :: c₂) (ht : t.calls = c₁ ++ c' :: c₂)
    (hc : c'.isAwaiting = true → c.isAwaiting = true)
    (hlife : t.state.lifecycle = s.state.lifecycle) : Patient t := by
  intro hany
  rw [ht, List.any_append, List.any_cons, Bool.or_eq_true, Bool.or_eq_true] at hany
  rw [hlife]
  refine h ?_
  rw [hs, List.any_append, List.any_cons, Bool.or_eq_true, Bool.or_eq_true]
  exact hany.imp_right (Or.imp_left hc)

theorem wakeAll (h : Patient s) : Patient s.wakeAll := by
  intro hany
  exact h (by simpa using hany)

/-- **Effects let nobody wait too early**, unless that is permitted. -/
theorem effect (hm : ¬m.early) (h : Patient s) (he : Effect m s s') : Patient s' := by
  have hquiet : ∀ c : Call Job, c.isQuiet = true → c.isAwaiting = false := by
    intro c hc
    cases c <;> first | rfl | exact absurd hc (by simp [Call.isQuiet])
  have hqueue : (s.state.enqueueCall : Call Job).isAwaiting = false := by
    rw [ThreadPoolState.enqueueCall]
    split_ifs <;> rfl
  cases he with
  | call c hc => exact h.of_append rfl (by simp [hquiet c hc]) rfl
  | callMoves c₁ c₂ c c' hcalls hc hc' =>
    exact h.of_replace hcalls rfl (by simp [hquiet c' hc']) rfl
  | configure => exact h.of_append rfl (by simp [Call.isAwaiting]) rfl
  | setterDone c₁ c₂ hcalls => exact h.of_replace hcalls rfl (by simp [Call.isAwaiting]) rfl
  | reject job c hc => exact h.of_append rfl (by simp [hquiet c hc]) rfl
  | rollback => exact h.of_append rfl (by simp [Call.isAwaiting]) rfl
  | rollbackInvoked c₁ c₂ job error hcalls =>
    exact h.of_replace hcalls rfl (by simp [Call.isAwaiting]) rfl
  | rollbackReturned c₁ c₂ job error hcalls =>
    exact h.of_replace hcalls rfl (by simp [Call.isAwaiting]) rfl
  | rollbackUnwound c₁ c₂ job error message hcalls =>
    exact h.of_replace hcalls rfl (by simp [Call.isAwaiting]) rfl
  | spawnFor => exact h.of_append rfl (by simp [Call.isAwaiting]) rfl
  | enqueueGlobal job c hc =>
    have hnone : c.isAwaiting = false := hc.elim (fun heq => heq ▸ hqueue) fun h => hquiet c h.1
    exact h.of_append rfl (by simp [hnone]) rfl
  | enqueueLocal => exact h.of_append rfl (by simp [hqueue]) rfl
  | notifyDone c₁ c₂ hcalls => exact h.of_replace hcalls rfl (by simp [Call.isAwaiting]) rfl
  | wakeCaller c₁ c₂ hcalls => exact h.of_replace hcalls rfl (fun _ => rfl) rfl
  | wakeAll => exact h.wakeAll
  | exit => exact Pool.notifyTerminated_of (I := Patient) (fun _ => wakeAll) h
  | finish => exact Pool.notifyTerminated_of (I := Patient) (fun _ => wakeAll) h
  | shutdown =>
    intro _
    by_cases hrun : s.state.lifecycle = .running
    · simp [hrun]
    · simp [hrun]
  | drain => exact fun _ => by simp [Pool.drain]
  | cancelInvoked c₁ c₂ job jobs report hcalls =>
    exact h.of_replace hcalls rfl (by simp [Call.isAwaiting]) rfl
  | cancelReturned c₁ c₂ job jobs report hcalls =>
    exact h.of_replace hcalls rfl (by simp [Call.isAwaiting]) rfl
  | cancelUnwound c₁ c₂ job jobs report message hcalls =>
    exact h.of_replace hcalls rfl (by simp [Call.isAwaiting]) rfl
  | shutdownNowReturned c₁ c₂ report hcalls =>
    exact h.of_replace hcalls rfl (by simp [Call.isAwaiting]) rfl
  | parkCaller hterm hearly => exact h.of_append rfl (fun _ => hearly.resolve_left hm) rfl
  | reparkCaller c₁ c₂ hcalls => exact h.of_replace hcalls rfl (fun _ => rfl) rfl
  | callerReturns c₁ c₂ hcalls => exact h.of_replace hcalls rfl (by simp [Call.isAwaiting]) rfl
  | _ =>
    -- the rest makes no call and leaves the lifecycle alone
    exact h

/-- Nobody waits in a pool that was just built. -/
theorem of_build {b : ThreadPoolBuilder} (hb : build b = .ok s) : Patient s := by
  obtain ⟨-, rfl | rfl⟩ := build_eq_ok hb
  · exact fun hany => absurd hany (by simp [Pool.new])
  · exact fun hany => absurd hany (by simp [Pool.new, Pool.addCall, Call.isAwaiting])

end Patient

/-! ### Workers leave when there is nothing to do -/

/-- No effect but leaving costs the pool a registered worker. -/
theorem Effect.liveWorkers_le (hm : ¬m.leaves) (he : Effect m s s') :
    s.state.liveWorkers ≤ s'.state.liveWorkers := by
  cases he with
  | spawnIdle => exact Nat.le_succ _
  | spawnFor => exact Nat.le_succ _
  | spawnPanics => exact Nat.le_succ _
  | exit hleaves => exact absurd hleaves hm
  | finish =>
    exact Pool.notifyTerminated_of (I := fun t => s.state.liveWorkers ≤ t.state.liveWorkers)
      (fun _ => id) le_rfl
  | _ => exact le_rfl

/-- A round of `wait_for_job` that costs the pool a worker finds nothing queued. -/
theorem Waited.queuedJobs_eq_nil {i : ℕ} {o : WaitOutcome Job} (h : Waited s i o s')
    (hlt : s'.state.liveWorkers < s.state.liveWorkers) : s.queuedJobs = [] := by
  cases h with
  | exit c l₁ l₂ hnil hwhy hqs => exact hnil
  | _ => exact absurd hlt (Nat.lt_irrefl _)

/-- Settling the thread of a worker leaves the state alone. -/
theorem Pool.settleWait_state (k : ℕ) (o : WaitOutcome Job) :
    (s.settleWait k o).state = s.state := by
  cases o <;> rfl

section Leaving

variable [DecidableEq Job]

/-- A worker enters `wait_for_job` when it is ready for it. -/
theorem step_waitForJob {k : ℕ} (hstep : step s (.waitForJob k) = some s') :
    ∃ w ∈ s.workers, w.phase = .ready ∧ s' = workerCritical k (waitForJob w.index) s := by
  simp only [step, Action.worker?] at hstep
  cases hk : s.workers[k]? with
  | none => simp [hk] at hstep
  | some w =>
    refine ⟨w, List.mem_of_getElem? hk, ?_⟩
    cases hp : w.phase <;> simp [hk, workerStep, hp] at hstep ⊢
    exact hstep.symm

/-- A worker comes back from a wait when it was woken up. -/
theorem step_resumeWorker {k : ℕ} (hstep : step s (.resumeWorker k) = some s') :
    ∃ w ∈ s.workers, ∃ timeout status, w.phase = .waiting timeout (some status) ∧
      s' = workerCritical k (resumeFromWait w.index timeout status) s := by
  simp only [step, Action.worker?] at hstep
  cases hk : s.workers[k]? with
  | none => simp [hk] at hstep
  | some w =>
    refine ⟨w, List.mem_of_getElem? hk, ?_⟩
    cases hp : w.phase with
    | waiting timeout wake =>
      cases wake with
      | none => simp [hk, workerStep, hp] at hstep
      | some status =>
        refine ⟨timeout, status, rfl, ?_⟩
        simpa [hk, workerStep, hp] using hstep.symm
    | _ => simp [hk, workerStep, hp] at hstep

/-- **A worker leaves the pool only when no job is in any queue.** -/
theorem queuedJobs_of_leaves (hwf : Wf s) {a : Action Job} (hstep : step s a = some s')
    (hlt : s'.state.liveWorkers < s.state.liveWorkers) : s.queuedJobs = [] := by
  by_cases ha : a.mayLeave
  · cases a with
    | waitForJob k =>
      obtain ⟨w, hw, hp, rfl⟩ := step_waitForJob hstep
      have hlive : w.phase.isLive = true := by rw [hp]; rfl
      obtain ⟨o, t, hrun, hwait⟩ :=
        waitForJob_run (hwf.queuesOk hw hlive) (hwf.live_pos hw hlive) hwf.stopped
      rw [workerCritical, hrun] at hlt
      exact hwait.queuedJobs_eq_nil (by rwa [Pool.settleWait_state] at hlt)
    | resumeWorker k =>
      obtain ⟨w, hw, timeout, status, hp, rfl⟩ := step_resumeWorker hstep
      have hlive : w.phase.isLive = true := by rw [hp]; rfl
      have hidle : w.phase.isWaiting = true := by rw [hp]; rfl
      obtain ⟨o, t, hrun, hwait⟩ := resumeFromWait_run (hwf.queuesOk hw hlive)
        (hwf.live_pos hw hlive) (hwf.idle_pos hw hidle) hwf.stopped timeout status
      rw [workerCritical, hrun] at hlt
      exact hwait.queuedJobs_eq_nil (by rwa [Pool.settleWait_state] at hlt)
    | _ => exact absurd ha (by simp [Action.mayLeave])
  · -- whatever else happens, nobody leaves
    have hchain := step_effects (m := { Mode.any with leaves := False }) hwf
      ⟨fun _ => trivial, fun _ => trivial, fun _ => trivial, ha⟩ hstep
    have hle : s.state.liveWorkers ≤ s'.state.liveWorkers :=
      Machine.invariant_of_chain (I := fun t => s.state.liveWorkers ≤ t.state.liveWorkers)
        (fun _ _ hle he => hle.trans (he.liveWorkers_le id)) hchain le_rfl
    omega

end Leaving

/-! ### No job is stranded -/

/-- A `notify_one` sent by a running pool finds no parked user waiting for
termination. -/
def Action.findsNoWaiter (s : Pool Job) : Action Job → Bool
  | .notifyOne _ _ => !s.state.lifecycle.isRunning || s.calls.all fun c => !c.isParked
  | _ => true

/-- `wait_for_termination` is called only after shutdown. -/
def Action.awaitsLate (s : Pool Job) : Action Job → Bool
  | .waitForTermination => !s.state.lifecycle.isRunning
  | _ => true

/-- A notification that finds no waiter is not stray. -/
theorem Action.not_isStray_of_findsNoWaiter {a : Action Job} (h : a.findsNoWaiter s = true) :
    ¬a.isStray s := by
  cases a with
  | notifyOne k target =>
    match target with
    | some (.caller j) =>
      rintro ⟨hrun, hparked⟩
      obtain ⟨c, hj, hc⟩ : ∃ c, s.calls[j]? = some c ∧ c.isParked = true := by
        simpa [Pool.isParked, Option.any_eq_true] using hparked
      have hnone := h
      simp only [findsNoWaiter, hrun, ThreadPoolLifecycle.isRunning, Bool.not_true, Bool.false_or,
        List.all_eq_true, Bool.not_eq_true'] at hnone
      rw [hnone c (List.mem_of_getElem? hj)] at hc
      exact absurd hc (by simp)
    | some (.worker j) => exact id
    | none => exact id
  | _ => exact id

/-- A notification of a patient pool is not stray: nobody is there to take it. -/
theorem Patient.not_isStray (h : Patient s) {a : Action Job} : ¬a.isStray s := by
  cases a with
  | notifyOne k target =>
    match target with
    | some (.caller j) =>
      rintro ⟨hrun, hparked⟩
      obtain ⟨c, hj, hc⟩ : ∃ c, s.calls[j]? = some c ∧ c.isParked = true := by
        simpa [Pool.isParked, Option.any_eq_true] using hparked
      refine h (List.any_eq_true.mpr ⟨c, List.mem_of_getElem? hj, ?_⟩) hrun
      cases c <;> simp [Call.isParked, Call.isAwaiting] at hc ⊢
    | some (.worker j) => exact id
    | none => exact id
  | _ => exact id

/-- Somebody is up for a queued job, spelled out. -/
theorem Awake.exists_of_queued (h : Awake s) (hne : s.queuedJobs ≠ []) :
    (∃ w ∈ s.workers, w.phase.isLive = true ∧ w.phase.isParked = false) ∨
      ∃ c ∈ s.calls, c.owesNotifyOne = true := by
  refine (h.served hne).imp (fun hup => ?_) List.any_eq_true.mp
  obtain ⟨w, hw, hup⟩ := List.any_eq_true.mp hup
  rw [WorkerPhase.isUp, Bool.and_eq_true, Bool.not_eq_true'] at hup
  exact ⟨w, hw, hup⟩

/-- Where no worker has died, a registered worker is one whose loop goes on. -/
theorem Counted.exists_of_live (h : Counted s) {P : Worker Job → Prop}
    (hex : ∃ w ∈ s.workers, w.phase.isLive = true ∧ P w) :
    ∃ w ∈ s.workers, w.phase.hasEnded = false ∧ P w := by
  obtain ⟨w, hw, hlive, hP⟩ := hex
  refine ⟨w, hw, ?_, hP⟩
  have halive := h.alive w hw
  revert hlive halive
  cases w.phase <;> simp [WorkerPhase.isLive, WorkerPhase.hasEnded]

/-- A counted job is somewhere in the queues. -/
theorem Wf.queuedJobs_ne_nil (h : Wf s) (hpos : 0 < s.state.queuedTasks) : s.queuedJobs ≠ [] := by
  rw [h.queued] at hpos
  exact List.ne_nil_of_length_pos hpos

section NoJobStranded

variable [DecidableEq Job]

/-- **A `notify_one` that finds no waiter wakes a worker**, if one sleeps. -/
theorem notifyOne_wakes_worker {k : ℕ} {t : Option Sleeper}
    (hok : Action.findsNoWaiter s (.notifyOne k t) = true) (hrun : s.state.lifecycle = .running)
    (hparked : ∃ w ∈ s.workers, w.phase.isParked = true)
    (hstep : step s (.notifyOne k t) = some s') :
    (∃ j, t = some (.worker j)) ∧
      s'.countWorkers WorkerPhase.isParked + 1 = s.countWorkers WorkerPhase.isParked := by
  simp only [step, Action.worker?, callerStep] at hstep
  split at hstep
  · next u hk =>
    split_ifs at hstep with hu
    obtain rfl := Option.some.inj hstep
    cases u with
    | worker j =>
      refine ⟨⟨j, rfl⟩, ?_⟩
      obtain ⟨w, hj, hp⟩ : ∃ w, s.workers[j]? = some w ∧ w.phase.isParked = true := by
        simpa [Pool.isParked, Option.any_eq_true] using hu
      obtain ⟨l₁, l₂, hw, rfl⟩ := exists_split_of_getElem? hj
      simp [Pool.setCall, Pool.wakeOne, Pool.countWorkers, hw, hp]
      omega
    | caller j =>
      -- the condition rules out the user the notification would go to
      exact absurd ⟨hrun, hu⟩ (Action.not_isStray_of_findsNoWaiter hok)
  · next hk =>
    split_ifs at hstep with hnone
    obtain ⟨w, hw, hp⟩ := hparked
    simp only [Pool.noneParked, Bool.and_eq_true, List.all_eq_true, Bool.not_eq_true'] at hnone
    rw [hnone.1 w hw] at hp
    exact absurd hp (by simp)
  · exact absurd hstep (by simp)

/-- **No job is stranded while notifications find no waiter.** In every run in
which no user waiting for termination is parked when a running pool executes a
`notify_one`: while a job is queued, some registered worker is up or some `submit`
still owes its notification – and, if no callback unwinds and no prestart fails,
the worker is one whose loop has not ended. Such a `notify_one` wakes a worker if
one sleeps. -/
theorem no_job_stranded :
    (∀ s : Pool Job, (machine Job).ReachVia (fun s a => a.findsNoWaiter s = true) s →
      (0 < s.state.queuedTasks →
        (∃ w ∈ s.workers, w.phase.isLive = true ∧ w.phase.isParked = false) ∨
          ∃ c ∈ s.calls, c.owesNotifyOne = true) ∧
      ∀ k t s', Action.findsNoWaiter s (.notifyOne k t) = true → s.state.lifecycle = .running →
        (∃ w ∈ s.workers, w.phase.isParked = true) → step s (.notifyOne k t) = some s' →
        (∃ j, t = some (.worker j)) ∧
          s'.countWorkers WorkerPhase.isParked + 1 = s.countWorkers WorkerPhase.isParked) ∧
    ∀ s : Pool Job,
      (machine Job).ReachVia (fun s a => a.findsNoWaiter s = true ∧ a.calm = true) s →
      0 < s.state.queuedTasks →
        (∃ w ∈ s.workers, w.phase.hasEnded = false ∧ w.phase.isParked = false) ∨
          ∃ c ∈ s.calls, c.owesNotifyOne = true := by
  have hawake : ∀ s : Pool Job, (machine Job).ReachVia (fun s a => a.findsNoWaiter s = true) s →
      Awake s := fun s hs =>
    reach_invariant (m := { Mode.any with stray := False })
      (fun s a _ ha => ⟨fun _ => trivial, Action.not_isStray_of_findsNoWaiter ha, fun _ => trivial,
        fun _ => trivial⟩)
      (fun _ _ => Awake.of_build) (fun _ _ hwf h he => h.effect id hwf he) hs
  refine ⟨fun s hs => ⟨fun hpos => ?_, fun k t s' hok hrun hparked hstep => ?_⟩,
    fun s hs hpos => ?_⟩
  · exact (hawake s hs).exists_of_queued ((wf_of_reach hs).queuedJobs_ne_nil hpos)
  · exact notifyOne_wakes_worker hok hrun hparked hstep
  · have hcounted : Counted s :=
      Counted.of_reach (fun _ _ ha => Action.not_isFaulty_of_calm ha.2) hs
    have hexists := (hawake s (hs.mono fun _ _ => And.left)).exists_of_queued
      ((wf_of_reach hs).queuedJobs_ne_nil hpos)
    exact hexists.imp_left hcounted.exists_of_live

/-- **The wake-up protocol is adequate.** In every run whose callbacks return, whose
prestarted threads are created and in which nobody waits for termination before
shutdown: while a job is in some queue, some worker whose loop goes on is not
parked, or some `submit` still owes its notification; while a job is queued some
worker is registered; and a worker leaves the pool only when no job is in any
queue. -/
theorem wakeup_protocol
    (hs : (machine Job).ReachVia (fun s a => a.calm = true ∧ a.awaitsLate s = true) s) :
    (s.queuedJobs ≠ [] →
        (∃ w ∈ s.workers, w.phase.hasEnded = false ∧ w.phase.isParked = false) ∨
          ∃ c ∈ s.calls, c.owesNotifyOne = true) ∧
      (0 < s.state.queuedTasks → 0 < s.state.liveWorkers) ∧
      ∀ a s', step s a = some s' → s'.state.liveWorkers < s.state.liveWorkers →
        s.queuedJobs = [] := by
  have hpatient : ∀ s : Pool Job,
      (machine Job).ReachVia (fun s a => a.calm = true ∧ a.awaitsLate s = true) s → Patient s := by
    intro s hs
    refine reach_invariant (m := { Mode.any with early := False }) (fun s a _ ha => ?_)
      (fun _ _ => Patient.of_build) (fun _ _ _ h he => h.effect id he) hs
    refine ⟨fun _ => trivial, fun _ => trivial, fun hearly => ?_, fun _ => trivial⟩
    have hlate := ha.2
    revert hearly hlate
    cases a <;> simp [Action.isEarly, Action.awaitsLate]
  have hawake : Awake s :=
    reach_invariant (m := { Mode.any with stray := False })
      (fun s a hr _ => ⟨fun _ => trivial, (hpatient s hr).not_isStray, fun _ => trivial,
        fun _ => trivial⟩)
      (fun _ _ => Awake.of_build) (fun _ _ hwf h he => h.effect id hwf he) hs
  have hcounted : Counted s := Counted.of_reach (fun _ _ ha => Action.not_isFaulty_of_calm ha.1) hs
  have hwf : Wf s := wf_of_reach hs
  refine ⟨fun hne => ?_, fun hpos => ?_, fun a s' hstep hlt => ?_⟩
  · exact (hawake.exists_of_queued hne).imp_left hcounted.exists_of_live
  · exact hwf.staffed (hwf.queuedJobs_ne_nil hpos)
  · exact queuedJobs_of_leaves hwf hstep hlt

end NoJobStranded

/-- A job is queued, the only worker of the pool sleeps, and the `submit` still owes
its notification. -/
theorem no_job_stranded_owed :
    ∃ s : Pool ℕ, (∀ w ∈ s.workers, w.phase.isParked = true) ∧
      ∃ c ∈ s.calls, c.owesNotifyOne = true := by
  obtain ⟨s, hs, hp⟩ := Machine.exists_reachVia_of_exec (fun s a => a.findsNoWaiter s = true)
    (fun s a => a.findsNoWaiter s) (fun _ _ h => h) (machine_init_ofSize ℕ 0)
    [.submit 0 .ok, .invokeRun 0, .runReturns 0, .finishRunningJob 0, .waitForJob 0,
      .submit 1 .ok]
    (fun s => s.state.queuedTasks == 1 && s.workers.all fun w => w.phase.isParked) (by decide)
  simp only [Bool.and_eq_true, beq_iff_eq, List.all_eq_true] at hp
  refine ⟨s, hp.2, ((no_job_stranded.1 s hs).1 (by omega)).resolve_left ?_⟩
  rintro ⟨w, hw, -, hparked⟩
  rw [hp.2 w hw] at hparked
  exact absurd hparked (by simp)

/-- A job waits for the only worker of a pool, which is busy. -/
theorem wakeup_protocol_busy :
    ∃ s : Pool ℕ, s.queuedJobs ≠ [] ∧ 0 < s.state.liveWorkers ∧
      ((∃ w ∈ s.workers, w.phase.hasEnded = false ∧ w.phase.isParked = false) ∨
        ∃ c ∈ s.calls, c.owesNotifyOne = true) := by
  obtain ⟨s, hs, hp⟩ := Machine.exists_reachVia_of_exec
    (fun s a => a.calm = true ∧ a.awaitsLate s = true) (fun s a => a.calm && a.awaitsLate s)
    (fun _ _ h => by simpa using h) (machine_init_ofSize ℕ 0)
    [.submit 0 .ok, .invokeRun 0, .submit 1 .ok]
    (fun s => !s.queuedJobs.isEmpty && s.state.queuedTasks == 1) (by decide)
  simp only [Bool.and_eq_true, Bool.not_eq_true', List.isEmpty_eq_false_iff, beq_iff_eq] at hp
  obtain ⟨hserved, hstaffed, -⟩ := wakeup_protocol hs
  exact ⟨s, hp.1, hstaffed (by omega), hserved hp.1⟩

/-- Whether a call has returned, or is parked until termination. -/
def Call.isResting : Call Job → Bool
  | waitForTermination woken => !woken
  | returned _ => true
  | _ => false

/-- The two ways for a call to rest. -/
theorem Call.eq_of_isResting {c : Call Job} (h : c.isResting = true) :
    c = .waitForTermination false ∨ ∃ reply, c = .returned reply := by
  cases c with
  | waitForTermination woken =>
    rw [isResting, Bool.not_eq_true'] at h
    exact Or.inl (by rw [h])
  | returned reply => exact Or.inr ⟨reply, rfl⟩
  | _ => exact absurd h (by simp [isResting])

/-- **A user waiting for termination takes the notification.** The only worker of a
pool has parked, and a user waits for termination. The `notify_one` of a `submit`
wakes the user, who finds the pool running and parks again: the job is queued, the
worker sleeps, and every call has returned or sleeps too. -/
theorem notify_one_taken_by_waiter :
    ∃ s : Pool ℕ, (machine ℕ).Reach s ∧ s.state.lifecycle = .running ∧
      0 < s.state.queuedTasks ∧ 0 < s.state.liveWorkers ∧
      (∀ w ∈ s.workers, w.phase.isParked = true) ∧
      ∀ c ∈ s.calls, c = .waitForTermination false ∨ ∃ reply, c = .returned reply := by
  obtain ⟨s, hs, hp⟩ := Machine.exists_reachVia_of_exec (fun _ _ => True) (fun _ _ => true)
    (fun _ _ _ => trivial) (machine_init_ofSize ℕ 0)
    [.submit 0 .ok, .invokeRun 0, .runReturns 0, .finishRunningJob 0, .waitForJob 0,
      .waitForTermination, .submit 1 .ok, .notifyOne 2 (some (.caller 1)), .resumeCaller 1]
    (fun s => s.state.lifecycle.isRunning && s.state.queuedTasks == 1 &&
      s.state.liveWorkers == 1 && s.workers.all (fun w => w.phase.isParked) &&
      s.calls.all Call.isResting)
    (by decide)
  simp only [Bool.and_eq_true, beq_iff_eq, List.all_eq_true,
    ThreadPoolLifecycle.isRunning_eq_true] at hp
  obtain ⟨⟨⟨⟨hrun, hqueued⟩, hlive⟩, hworkers⟩, hcalls⟩ := hp
  exact ⟨s, hs, hrun, by omega, by omega, hworkers,
    fun c hc => Call.eq_of_isResting (hcalls c hc)⟩

end ThreadPool

end QubitConcurrent
