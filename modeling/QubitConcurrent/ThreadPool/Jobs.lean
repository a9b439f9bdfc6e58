import QubitConcurrent.ThreadPool.Accounting

/-!
# Where a job is, and what has become of it

A job moves between a submitter, the global queue, a local queue, a thief, the
list a `shutdown_now` has drained, and the hands of a worker. Nothing in the pool
says that no move loses a job or repeats one. Here every place a job can be at is
counted (`QubitConcurrent.ThreadPool.Placed`): for each job, the number of times
it occurs in all of them together is the number of times it was accepted, and
that is at most one. The callbacks that were invoked are counted likewise
(`QubitConcurrent.ThreadPool.RunsCounted`,
`QubitConcurrent.ThreadPool.CancelsCounted`).

All of it holds in every run. A job whose callback unwinds, or for which
`finish_running_job` panics, is finished too – and leaves a dead worker behind.
-/

namespace QubitConcurrent

namespace ThreadPool

variable {Job : Type} {m : Mode} {s s' : Pool Job}

/-! ### More places -/

/-- The job whose run callback the worker has invoked. -/
def WorkerPhase.started : WorkerPhase Job → List Job
  | running job | finishing job => [job]
  | _ => []

/-- The job whose run callback has returned to the worker. -/
def WorkerPhase.back : WorkerPhase Job → List Job
  | finishing job => [job]
  | _ => []

/-- Whether the worker left its loop by unwinding. -/
def WorkerPhase.isUnwound : WorkerPhase Job → Bool
  | unwound => true
  | _ => false

/-- The job whose cancel callback a `shutdown_now` is in, or was left by. -/
def Call.cancelling : Call Job → List Job
  | shutdownNow _ current _ => current.toList
  | shutdownNowUnwound jobs _ => jobs.take 1
  | _ => []

/-- The jobs whose run callback some worker has invoked, and not finished. -/
def Pool.startedJobs (s : Pool Job) : List Job := s.workers.flatMap fun w => w.phase.started

/-- The jobs whose run callback has returned to some worker. -/
def Pool.backJobs (s : Pool Job) : List Job := s.workers.flatMap fun w => w.phase.back

/-- The jobs whose cancel callback some `shutdown_now` is in, or was left by. -/
def Pool.cancellingJobs (s : Pool Job) : List Job := s.calls.flatMap Call.cancelling

@[simp] theorem WorkerPhase.started_wake (p : WorkerPhase Job) : p.wake.started = p.started := by
  cases p with
  | waiting timeout wake => cases wake <;> rfl
  | _ => rfl

@[simp] theorem WorkerPhase.back_wake (p : WorkerPhase Job) : p.wake.back = p.back := by
  cases p with
  | waiting timeout wake => cases wake <;> rfl
  | _ => rfl

@[simp] theorem WorkerPhase.isUnwound_wake (p : WorkerPhase Job) :
    p.wake.isUnwound = p.isUnwound := by
  cases p with
  | waiting timeout wake => cases wake <;> rfl
  | _ => rfl

@[simp] theorem Call.cancelling_wake (c : Call Job) : c.wake.cancelling = c.cancelling := by
  cases c <;> rfl

theorem Call.cancelling_of_isQuiet {c : Call Job} (h : c.isQuiet = true) : c.cancelling = [] := by
  cases c with
  | shutdownNow jobs current report => exact absurd h (by simp [isQuiet])
  | shutdownNowUnwound jobs message => exact absurd h (by simp [isQuiet])
  | _ => rfl

@[simp] theorem Call.cancelling_enqueueCall (st : ThreadPoolState Job) :
    (st.enqueueCall).cancelling = [] := by
  rw [ThreadPoolState.enqueueCall]
  split_ifs <;> rfl

/-- The call of a `submit` that has queued its job cancels nothing. -/
theorem Call.cancelling_of_enqueued {c : Call Job} {st : ThreadPoolState Job}
    (hc : c = st.enqueueCall ∨ c.isQuiet = true ∧ st.idleWorkers = 0) : c.cancelling = [] := by
  rcases hc with rfl | ⟨hquiet, -⟩
  · exact Call.cancelling_enqueueCall st
  · exact Call.cancelling_of_isQuiet hquiet

section Wake

variable (s)

@[simp] theorem Pool.queuedJobs_wakeAll : s.wakeAll.queuedJobs = s.queuedJobs := rfl

@[simp] theorem Pool.finishedJobs_wakeAll : s.wakeAll.finishedJobs = s.finishedJobs := rfl

@[simp] theorem Pool.heldJobs_wakeAll : s.wakeAll.heldJobs = s.heldJobs := by
  simp [heldJobs, List.flatMap_map]

@[simp] theorem Pool.drainedJobs_wakeAll : s.wakeAll.drainedJobs = s.drainedJobs := by
  simp [drainedJobs, List.flatMap_map]

@[simp] theorem Pool.startedJobs_wakeAll : s.wakeAll.startedJobs = s.startedJobs := by
  simp [startedJobs, List.flatMap_map]

@[simp] theorem Pool.backJobs_wakeAll : s.wakeAll.backJobs = s.backJobs := by
  simp [backJobs, List.flatMap_map]

@[simp] theorem Pool.cancellingJobs_wakeAll : s.wakeAll.cancellingJobs = s.cancellingJobs := by
  simp [cancellingJobs, List.flatMap_map]

end Wake

/-- A call that has drained nothing is made. -/
theorem Pool.drainedJobs_append {t : Pool Job} {c : Call Job} (ht : t.calls = s.calls ++ [c])
    (hc : c.drained = []) : t.drainedJobs = s.drainedJobs := by
  simp [drainedJobs, ht, hc]

/-- A call moves on and keeps the jobs it has drained. -/
theorem Pool.drainedJobs_replace {t : Pool Job} {c₁ c₂ : List (Call Job)} {c c' : Call Job}
    (hcalls : s.calls = c₁ ++ c :: c₂) (ht : t.calls = c₁ ++ c' :: c₂)
    (hc : c'.drained = c.drained) : t.drainedJobs = s.drainedJobs := by
  simp [drainedJobs, hcalls, ht, hc]

/-- A worker moves on and keeps what it has in its hands. -/
theorem Pool.heldJobs_replace {t : Pool Job} {l₁ l₂ : List (Worker Job)} {w : Worker Job}
    {p : WorkerPhase Job} (hw : s.workers = l₁ ++ w :: l₂)
    (ht : t.workers = l₁ ++ { w with phase := p } :: l₂) (hp : p.held = w.phase.held) :
    t.heldJobs = s.heldJobs := by
  simp [heldJobs, hw, ht, hp]

/-! ### Every accepted job is somewhere, once -/

section Jobs

variable [DecidableEq Job]

/-- **Where jobs are.** -/
structure Placed (s : Pool Job) : Prop where
  /-- No job was handed over twice. -/
  nodup : s.ledger.presented.Nodup
  /-- Accepted jobs were handed over. -/
  accepted : s.ledger.accepted.Sublist s.ledger.presented
  /-- The places a job is at, counted. -/
  places : ∀ j, s.queuedJobs.count j + s.heldJobs.count j + s.drainedJobs.count j +
    s.finishedJobs.count j = s.ledger.accepted.count j

namespace Placed

/-- Nothing was handed over, and every job stays where it was. -/
theorem of_eq (h : Placed s) {t : Pool Job} (hpresented : t.ledger.presented = s.ledger.presented)
    (haccepted : t.ledger.accepted = s.ledger.accepted)
    (hplaces : ∀ j, t.queuedJobs.count j + t.heldJobs.count j + t.drainedJobs.count j +
        t.finishedJobs.count j =
      s.queuedJobs.count j + s.heldJobs.count j + s.drainedJobs.count j +
        s.finishedJobs.count j) : Placed t where
  nodup := by rw [hpresented]; exact h.nodup
  accepted := by rw [hpresented, haccepted]; exact h.accepted
  places := by
    intro j
    rw [hplaces, haccepted]
    exact h.places j

/-- Nothing was handed over, and no place gained or lost a job. -/
theorem of_kept (h : Placed s) {t : Pool Job}
    (hpresented : t.ledger.presented = s.ledger.presented)
    (haccepted : t.ledger.accepted = s.ledger.accepted) (hqueued : t.queuedJobs = s.queuedJobs)
    (hheld : t.heldJobs = s.heldJobs) (hdrained : t.drainedJobs = s.drainedJobs)
    (hfinished : t.finishedJobs = s.finishedJobs) : Placed t :=
  h.of_eq hpresented haccepted fun j => by rw [hqueued, hheld, hdrained, hfinished]

/-- A job was handed over and not accepted, and no place gained or lost a job. -/
theorem of_present (h : Placed s) {t : Pool Job} {job : Job} (hnew : job ∉ s.ledger.presented)
    (hledger : t.ledger = s.ledger.present job) (hqueued : t.queuedJobs = s.queuedJobs)
    (hheld : t.heldJobs = s.heldJobs) (hdrained : t.drainedJobs = s.drainedJobs)
    (hfinished : t.finishedJobs = s.finishedJobs) : Placed t where
  nodup := by
    rw [hledger]
    exact List.nodup_append.mpr ⟨h.nodup, List.nodup_singleton _, by
      rintro a ha b hb rfl
      exact hnew (List.mem_singleton.mp hb ▸ ha)⟩
  accepted := by
    rw [hledger]
    exact h.accepted.trans (List.sublist_append_left _ _)
  places := by
    intro j
    rw [hqueued, hheld, hdrained, hfinished, hledger]
    exact h.places j

/-- A job was accepted, and is somewhere. -/
theorem of_accept (h : Placed s) {t : Pool Job} {job : Job} (hnew : job ∉ s.ledger.presented)
    (hledger : t.ledger = s.ledger.accept job)
    (hplaces : ∀ j, t.queuedJobs.count j + t.heldJobs.count j + t.drainedJobs.count j +
        t.finishedJobs.count j =
      s.queuedJobs.count j + s.heldJobs.count j + s.drainedJobs.count j +
        s.finishedJobs.count j + [job].count j) : Placed t where
  nodup := by
    rw [hledger]
    exact List.nodup_append.mpr ⟨h.nodup, List.nodup_singleton _, by
      rintro a ha b hb rfl
      exact hnew (List.mem_singleton.mp hb ▸ ha)⟩
  accepted := by
    rw [hledger]
    exact h.accepted.append (List.Sublist.refl _)
  places := by
    intro j
    rw [hplaces, hledger, Ledger.accept, List.count_append, h.places j]

/-- Waking everybody up moves no job. -/
theorem wakeAll (h : Placed s) : Placed s.wakeAll :=
  h.of_eq rfl rfl fun j => by simp

/-- **Effects move jobs and lose none.** -/
theorem effect (h : Placed s) (he : Effect m s s') : Placed s' := by
  cases he with
  | call c hc =>
    exact h.of_kept rfl rfl rfl rfl (Pool.drainedJobs_append rfl (Call.drained_of_isQuiet hc)) rfl
  | callMoves c₁ c₂ c c' hcalls hc hc' =>
    have hdrained : c'.drained = c.drained := by
      rw [Call.drained_of_isQuiet hc, Call.drained_of_isQuiet hc']
    exact h.of_kept rfl rfl rfl rfl (Pool.drainedJobs_replace hcalls rfl hdrained) rfl
  | configure =>
    exact h.of_kept rfl rfl rfl rfl (Pool.drainedJobs_append rfl rfl) rfl
  | setterDone c₁ c₂ hcalls =>
    exact h.of_kept rfl rfl rfl rfl (Pool.drainedJobs_replace hcalls rfl rfl) rfl
  | reject job c hc hnew =>
    exact h.of_present hnew rfl rfl rfl
      (Pool.drainedJobs_append rfl (Call.drained_of_isQuiet hc)) rfl
  | rollback job error hnew =>
    exact h.of_present hnew rfl rfl rfl (Pool.drainedJobs_append rfl rfl) rfl
  | rollbackInvoked c₁ c₂ job error hcalls =>
    exact h.of_kept rfl rfl rfl rfl (Pool.drainedJobs_replace hcalls rfl rfl) rfl
  | rollbackReturned c₁ c₂ job error hcalls =>
    exact h.of_kept rfl rfl rfl rfl (Pool.drainedJobs_replace hcalls rfl rfl) rfl
  | rollbackUnwound c₁ c₂ job error message hcalls =>
    exact h.of_kept rfl rfl rfl rfl (Pool.drainedJobs_replace hcalls rfl rfl) rfl
  | spawnPanics =>
    exact h.of_eq rfl rfl fun j => by
      simp [Pool.stillborn, Pool.spawned, Pool.drainedJobs, Pool.queuedJobs, Pool.heldJobs,
        Pool.finishedJobs, WorkerPhase.held]
  | spawnIdle =>
    exact h.of_eq rfl rfl fun j => by
      simp [Pool.spawned, Pool.drainedJobs, Pool.queuedJobs, Pool.heldJobs, Pool.finishedJobs,
        WorkerPhase.held]
  | spawnFor job hnew =>
    -- a job that is accepted is in one place: in the hands of its worker, or in a queue
    refine h.of_accept hnew rfl fun j => ?_
    simp only [Pool.spawned, Pool.drainedJobs, Call.drained, Pool.queuedJobs, Pool.heldJobs,
      Pool.finishedJobs, Ledger.accept, WorkerPhase.held, List.flatMap_append,
      List.flatMap_singleton, List.count_append, List.append_nil, Option.elim]
    omega
  | enqueueGlobal job c hc hnew =>
    refine h.of_accept hnew rfl fun j => ?_
    simp only [Pool.drainedJobs, Call.drained_of_enqueued hc, Pool.queuedJobs, Pool.heldJobs,
      Pool.finishedJobs, Ledger.accept, List.flatMap_append, List.flatMap_singleton,
      List.count_append, List.append_nil]
    omega
  | enqueueLocal job hnew hrun hlive hcap hidle q₁ q₂ q hqs =>
    refine h.of_accept hnew rfl fun j => ?_
    simp only [Pool.drainedJobs, Call.drained_enqueueCall, Pool.queuedJobs, Pool.heldJobs,
      Pool.finishedJobs, Ledger.accept, ThreadPoolState.enqueue, hqs, WorkerQueue.pushBack,
      List.flatMap_append, List.flatMap_cons, List.flatMap_nil, List.count_append, List.append_nil]
    omega
  | notifyDone c₁ c₂ hcalls =>
    exact h.of_kept rfl rfl rfl rfl (Pool.drainedJobs_replace hcalls rfl rfl) rfl
  | wakeWorker l₁ l₂ w hw timeout status hp =>
    exact h.of_kept rfl rfl rfl (Pool.heldJobs_replace hw rfl (by rw [hp]; rfl)) rfl rfl
  | wakeCaller c₁ c₂ hcalls =>
    exact h.of_kept rfl rfl rfl rfl (Pool.drainedJobs_replace hcalls rfl rfl) rfl
  | wakeAll => exact h.wakeAll
  | claimGlobal l₁ l₂ w hw hp j js hlife hq =>
    -- out of a queue, into the hands of a worker
    refine h.of_eq rfl rfl fun i => ?_
    simp only [Pool.drainedJobs, Pool.queuedJobs, Pool.heldJobs, Pool.finishedJobs, hw, hp, hq,
      WorkerPhase.held, List.flatMap_append, List.flatMap_cons, List.count_append, List.count_cons,
      List.count_nil]
    omega
  | claimLocal l₁ l₂ w hw hp q₁ q₂ v j js hlife hqs =>
    refine h.of_eq rfl rfl fun i => ?_
    simp only [Pool.drainedJobs, Pool.queuedJobs, Pool.heldJobs, Pool.finishedJobs, hw, hp, hqs,
      ThreadPoolState.claim, WorkerPhase.held, List.flatMap_append, List.flatMap_cons,
      List.count_append, List.count_cons, List.count_nil]
    omega
  | park l₁ l₂ w hw hp =>
    exact h.of_kept rfl rfl rfl (Pool.heldJobs_replace hw rfl (by rw [hp]; rfl)) rfl rfl
  | unpark l₁ l₂ w hw timeout status hp =>
    exact h.of_kept rfl rfl rfl (Pool.heldJobs_replace hw rfl (by rw [hp]; rfl)) rfl rfl
  | exit _ l₁ l₂ w hw hp hnil hwhy q₁ q₂ hqs =>
    refine Pool.notifyTerminated_of (I := Placed) (fun _ => wakeAll) ?_
    refine h.of_kept rfl rfl ?_ (Pool.heldJobs_replace hw rfl (by rw [hp]; rfl)) rfl rfl
    simp [Pool.unregistered, Pool.queuedJobs, hqs]
  | invokeRun l₁ l₂ w hw j hp =>
    exact h.of_kept rfl rfl rfl (Pool.heldJobs_replace hw rfl (by rw [hp]; rfl)) rfl rfl
  | runReturns l₁ l₂ w hw j hp =>
    exact h.of_kept rfl rfl rfl (Pool.heldJobs_replace hw rfl (by rw [hp]; rfl)) rfl rfl
  | finish l₁ l₂ w hw j hp hpos =>
    -- out of the hands of the worker, to those that are finished
    refine Pool.notifyTerminated_of (I := Placed) (fun _ => wakeAll) ?_
    refine h.of_eq rfl rfl fun i => ?_
    simp only [Pool.drainedJobs, Pool.queuedJobs, Pool.heldJobs, Pool.finishedJobs, hw, hp,
      WorkerPhase.held, List.flatMap_append, List.flatMap_cons, List.count_append, List.count_nil]
    omega
  | shutdown =>
    exact h.of_kept rfl rfl rfl rfl (Pool.drainedJobs_append rfl rfl) rfl
  | drain =>
    -- out of all the queues, into the hands of the `shutdown_now`
    refine h.of_eq rfl rfl fun j => ?_
    have hnil : List.count j s.drain.queuedJobs = 0 := by rw [Pool.queuedJobs_drain]; rfl
    have hheld : s.drain.heldJobs = s.heldJobs := rfl
    simp only [Pool.drainedJobs, Call.drained, Pool.finishedJobs, List.flatMap_append,
      List.flatMap_singleton, Option.toList_none, List.nil_append, List.count_append] at hnil ⊢
    simp only [Pool.queuedJobs, Pool.heldJobs, Pool.drain, List.count_append] at hnil hheld ⊢
    omega
  | cancelInvoked c₁ c₂ job jobs report hcalls =>
    exact h.of_kept rfl rfl rfl rfl (Pool.drainedJobs_replace hcalls rfl rfl) rfl
  | cancelReturned c₁ c₂ job jobs report hcalls =>
    refine h.of_eq rfl rfl fun j => ?_
    simp only [Pool.drainedJobs, hcalls, Call.drained, Pool.queuedJobs, Pool.heldJobs,
      Pool.finishedJobs, List.flatMap_append, List.flatMap_cons, Option.toList_none,
      Option.toList_some, List.count_append, List.count_nil]
    omega
  | cancelUnwound c₁ c₂ job jobs report message hcalls =>
    exact h.of_kept rfl rfl rfl rfl (Pool.drainedJobs_replace hcalls rfl rfl) rfl
  | shutdownNowReturned c₁ c₂ report hcalls =>
    exact h.of_kept rfl rfl rfl rfl (Pool.drainedJobs_replace hcalls rfl rfl) rfl
  | parkCaller =>
    exact h.of_kept rfl rfl rfl rfl (Pool.drainedJobs_append rfl rfl) rfl
  | reparkCaller c₁ c₂ hcalls =>
    exact h.of_kept rfl rfl rfl rfl (Pool.drainedJobs_replace hcalls rfl rfl) rfl
  | callerReturns c₁ c₂ hcalls =>
    exact h.of_kept rfl rfl rfl rfl (Pool.drainedJobs_replace hcalls rfl rfl) rfl
  | unwind l₁ l₂ w hw j hp hm =>
    refine h.of_eq rfl rfl fun i => ?_
    simp only [Pool.drainedJobs, Pool.queuedJobs, Pool.heldJobs, Pool.finishedJobs, hw, hp,
      WorkerPhase.held, List.flatMap_append, List.flatMap_cons, List.count_append, List.count_nil]
    omega
  | finishPanics l₁ l₂ w hw j hp hzero =>
    refine h.of_eq rfl rfl fun i => ?_
    simp only [Pool.drainedJobs, Pool.queuedJobs, Pool.heldJobs, Pool.finishedJobs, hw, hp,
      WorkerPhase.held, List.flatMap_append, List.flatMap_cons, List.count_append, List.count_nil]
    omega
  | skipIndex => exact ⟨h.nodup, h.accepted, h.places⟩
  | moveCursor => exact ⟨h.nodup, h.accepted, h.places⟩
  | dropRunning => exact ⟨h.nodup, h.accepted, h.places⟩

/-- Nothing was handed over to a pool that was just built. -/
theorem of_build {b : ThreadPoolBuilder} (hb : build b = .ok s) : Placed s := by
  obtain ⟨-, rfl | rfl⟩ := build_eq_ok hb
  · exact ⟨List.nodup_nil, List.Sublist.refl _, fun _ => rfl⟩
  · exact ⟨List.nodup_nil, List.Sublist.refl _, fun _ => rfl⟩

/-- An accepted job was accepted once. -/
theorem count_accepted (h : Placed s) {j : Job} (hj : j ∈ s.ledger.accepted) :
    s.ledger.accepted.count j = 1 :=
  List.count_eq_one_of_mem (h.nodup.sublist h.accepted) hj

/-- No job was accepted more than once. -/
theorem count_accepted_le (h : Placed s) (j : Job) : s.ledger.accepted.count j ≤ 1 :=
  List.nodup_iff_count_le_one.mp (h.nodup.sublist h.accepted) j

end Placed

/-! ### Every run callback that was invoked is accounted for -/

/-- **What became of the run callbacks.** -/
structure RunsCounted (s : Pool Job) : Prop where
  /-- A run callback that was invoked is in progress or over. -/
  invoked : ∀ j, s.ledger.runInvoked.count j = s.startedJobs.count j +
    s.ledger.completed.count j + s.ledger.runUnwound.count j + s.ledger.abandoned.count j
  /-- A run callback that returned leads to `finish_running_job`. -/
  returned : ∀ j, s.ledger.runReturned.count j = s.backJobs.count j +
    s.ledger.completed.count j + s.ledger.abandoned.count j
  /-- A job that was not finished properly has killed its worker. -/
  dead : s.ledger.runUnwound.length + s.ledger.abandoned.length =
    s.countWorkers WorkerPhase.isUnwound

namespace RunsCounted

/-- A worker moves on without touching a callback. -/
theorem of_move (h : RunsCounted s) {t : Pool Job} {l₁ l₂ : List (Worker Job)} {w : Worker Job}
    {p : WorkerPhase Job} (hw : s.workers = l₁ ++ w :: l₂)
    (ht : t.workers = l₁ ++ { w with phase := p } :: l₂)
    (hinvoked : t.ledger.runInvoked = s.ledger.runInvoked)
    (hreturned : t.ledger.runReturned = s.ledger.runReturned)
    (hcompleted : t.ledger.completed = s.ledger.completed)
    (hunwound : t.ledger.runUnwound = s.ledger.runUnwound)
    (habandoned : t.ledger.abandoned = s.ledger.abandoned)
    (hstarted : p.started = w.phase.started) (hback : p.back = w.phase.back)
    (hdead : p.isUnwound = w.phase.isUnwound) : RunsCounted t where
  invoked := by
    intro j
    rw [hinvoked, hcompleted, hunwound, habandoned, h.invoked]
    simp [Pool.startedJobs, hw, ht, hstarted]
  returned := by
    intro j
    rw [hreturned, hcompleted, habandoned, h.returned]
    simp [Pool.backJobs, hw, ht, hback]
  dead := by
    rw [hunwound, habandoned, h.dead]
    simp [Pool.countWorkers, hw, ht, List.countP_cons, hdead]

/-- Waking everybody up touches no callback. -/
theorem wakeAll (h : RunsCounted s) : RunsCounted s.wakeAll where
  invoked := by simpa using h.invoked
  returned := by simpa using h.returned
  dead := by simpa [Pool.countWorkers, Function.comp_def] using h.dead

/-- A worker thread was created. -/
theorem spawned (h : RunsCounted s) (firstTask : Option Job) :
    RunsCounted (s.spawned firstTask) where
  invoked := by
    cases firstTask <;>
      simpa [Pool.spawned, Pool.startedJobs, WorkerPhase.started] using h.invoked
  returned := by
    cases firstTask <;>
      simpa [Pool.spawned, Pool.backJobs, WorkerPhase.back] using h.returned
  dead := by
    cases firstTask <;>
      simpa [Pool.spawned, Pool.countWorkers, WorkerPhase.isUnwound] using h.dead

/-- A worker was registered, and its thread never created. -/
theorem stillborn (h : RunsCounted s) (firstTask : Option Job) :
    RunsCounted (s.stillborn firstTask) where
  invoked := by
    simpa [Pool.stillborn, Pool.spawned, Pool.startedJobs, WorkerPhase.started] using h.invoked
  returned := by
    simpa [Pool.stillborn, Pool.spawned, Pool.backJobs, WorkerPhase.back] using h.returned
  dead := by
    simpa [Pool.stillborn, Pool.spawned, Pool.countWorkers, WorkerPhase.isUnwound] using h.dead

/-- **Effects account for the run callbacks they invoke.** -/
theorem effect (h : RunsCounted s) (he : Effect m s s') : RunsCounted s' := by
  have hinvoked := h.invoked
  have hreturned := h.returned
  have hdead := h.dead
  cases he with
  | spawnIdle => exact h.spawned none
  | spawnFor job =>
    obtain ⟨h₁, h₂, h₃⟩ := h.spawned (some job)
    exact ⟨h₁, h₂, h₃⟩
  | spawnPanics firstTask => exact h.stillborn firstTask
  | wakeAll => exact h.wakeAll
  | wakeWorker l₁ l₂ w hw timeout status hp =>
    exact h.of_move hw rfl rfl rfl rfl rfl rfl (by rw [hp]; rfl) (by rw [hp]; rfl) (by rw [hp]; rfl)
  | claimGlobal l₁ l₂ w hw hp =>
    exact h.of_move hw rfl rfl rfl rfl rfl rfl (by rw [hp]; rfl) (by rw [hp]; rfl) (by rw [hp]; rfl)
  | claimLocal l₁ l₂ w hw hp =>
    exact h.of_move hw rfl rfl rfl rfl rfl rfl (by rw [hp]; rfl) (by rw [hp]; rfl) (by rw [hp]; rfl)
  | park l₁ l₂ w hw hp =>
    exact h.of_move hw rfl rfl rfl rfl rfl rfl (by rw [hp]; rfl) (by rw [hp]; rfl) (by rw [hp]; rfl)
  | unpark l₁ l₂ w hw timeout status hp =>
    exact h.of_move hw rfl rfl rfl rfl rfl rfl (by rw [hp]; rfl) (by rw [hp]; rfl) (by rw [hp]; rfl)
  | exit _ l₁ l₂ w hw hp =>
    refine Pool.notifyTerminated_of (I := RunsCounted) (fun _ => wakeAll) ?_
    exact h.of_move hw rfl rfl rfl rfl rfl rfl (by rw [hp]; rfl) (by rw [hp]; rfl) (by rw [hp]; rfl)
  | invokeRun l₁ l₂ w hw j hp =>
    refine ⟨fun i => ?_, fun i => ?_, ?_⟩
    · have hi := hinvoked i
      simp only [Pool.startedJobs, hw, hp, WorkerPhase.started, List.flatMap_append,
        List.flatMap_cons, List.count_append, List.count_nil] at hi ⊢
      omega
    · simpa [Pool.backJobs, hw, hp, WorkerPhase.back] using hreturned i
    · simpa [Pool.countWorkers, hw, hp, WorkerPhase.isUnwound] using hdead
  | runReturns l₁ l₂ w hw j hp =>
    refine ⟨fun i => ?_, fun i => ?_, ?_⟩
    · simpa [Pool.startedJobs, hw, hp, WorkerPhase.started] using hinvoked i
    · have hi := hreturned i
      simp only [Pool.backJobs, hw, hp, WorkerPhase.back, List.flatMap_append, List.flatMap_cons,
        List.count_append, List.count_nil] at hi ⊢
      omega
    · simpa [Pool.countWorkers, hw, hp, WorkerPhase.isUnwound] using hdead
  | finish l₁ l₂ w hw j hp hpos =>
    refine Pool.notifyTerminated_of (I := RunsCounted) (fun _ => wakeAll) ?_
    refine ⟨fun i => ?_, fun i => ?_, ?_⟩
    · have hi := hinvoked i
      simp only [Pool.startedJobs, hw, hp, WorkerPhase.started, List.flatMap_append,
        List.flatMap_cons, List.count_append, List.count_nil] at hi ⊢
      omega
    · have hi := hreturned i
      simp only [Pool.backJobs, hw, hp, WorkerPhase.back, List.flatMap_append, List.flatMap_cons,
        List.count_append, List.count_nil] at hi ⊢
      omega
    · simpa [Pool.countWorkers, hw, hp, WorkerPhase.isUnwound] using hdead
  | unwind l₁ l₂ w hw j hp hm =>
    refine ⟨fun i => ?_, fun i => ?_, ?_⟩
    · have hi := hinvoked i
      simp only [Pool.startedJobs, hw, hp, WorkerPhase.started, List.flatMap_append,
        List.flatMap_cons, List.count_append, List.count_nil] at hi ⊢
      omega
    · simpa [Pool.backJobs, hw, hp, WorkerPhase.back] using hreturned i
    · simp only [Pool.countWorkers, hw, hp, WorkerPhase.isUnwound, List.countP_append,
        List.countP_cons, List.length_append, List.length_singleton, if_true, Bool.false_eq_true,
        if_false] at hdead ⊢
      omega
  | finishPanics l₁ l₂ w hw j hp hzero =>
    refine ⟨fun i => ?_, fun i => ?_, ?_⟩
    · have hi := hinvoked i
      simp only [Pool.startedJobs, hw, hp, WorkerPhase.started, List.flatMap_append,
        List.flatMap_cons, List.count_append, List.count_nil] at hi ⊢
      omega
    · have hi := hreturned i
      simp only [Pool.backJobs, hw, hp, WorkerPhase.back, List.flatMap_append, List.flatMap_cons,
        List.count_append, List.count_nil] at hi ⊢
      omega
    · simp only [Pool.countWorkers, hw, hp, WorkerPhase.isUnwound, List.countP_append,
        List.countP_cons, List.length_append, List.length_singleton, if_true, Bool.false_eq_true,
        if_false] at hdead ⊢
      omega
  | _ =>
    -- the rest moves no worker
    exact ⟨hinvoked, hreturned, hdead⟩

/-- No run callback was invoked in a pool that was just built. -/
theorem of_build {b : ThreadPoolBuilder} (hb : build b = .ok s) : RunsCounted s := by
  obtain ⟨-, rfl | rfl⟩ := build_eq_ok hb
  · exact ⟨fun _ => rfl, fun _ => rfl, rfl⟩
  · exact ⟨fun _ => rfl, fun _ => rfl, rfl⟩

/-- Without a dead worker, every job that is over was finished properly. -/
theorem nothing_lost (h : RunsCounted s) (halive : s.countWorkers WorkerPhase.isUnwound = 0) :
    s.ledger.runUnwound = [] ∧ s.ledger.abandoned = [] := by
  have hdead := h.dead
  rw [halive, Nat.add_eq_zero_iff, List.length_eq_zero_iff, List.length_eq_zero_iff] at hdead
  exact hdead

end RunsCounted

/-! ### Every cancel callback that was invoked is accounted for -/

/-- **What became of the cancel callbacks** of drained jobs. -/
structure CancelsCounted (s : Pool Job) : Prop where
  /-- A cancel callback that was invoked is in progress or over. -/
  invoked : ∀ j, s.ledger.cancelInvoked.count j =
    s.cancellingJobs.count j + s.ledger.cancelReturned.count j
  /-- Only a call of `shutdown_now` invokes one. -/
  shutdowns : s.ledger.cancelInvoked ≠ [] → s.calls.any Call.isShutdownNow = true

namespace CancelsCounted

/-- The calls in progress change, none of them one of `shutdown_now`. -/
theorem of_calls (h : CancelsCounted s) {t : Pool Job}
    (hinvoked : t.ledger.cancelInvoked = s.ledger.cancelInvoked)
    (hreturned : t.ledger.cancelReturned = s.ledger.cancelReturned)
    (hcancelling : t.cancellingJobs = s.cancellingJobs)
    (hshutdowns : s.calls.any Call.isShutdownNow = true → t.calls.any Call.isShutdownNow = true) :
    CancelsCounted t where
  invoked := by
    rw [hinvoked, hreturned, hcancelling]
    exact h.invoked
  shutdowns := by
    rw [hinvoked]
    exact fun hne => hshutdowns (h.shutdowns hne)

/-- A call is made that cancels nothing. -/
theorem of_append (h : CancelsCounted s) {t : Pool Job} {c : Call Job}
    (ht : t.calls = s.calls ++ [c]) (hc : c.cancelling = [])
    (hinvoked : t.ledger.cancelInvoked = s.ledger.cancelInvoked)
    (hreturned : t.ledger.cancelReturned = s.ledger.cancelReturned) : CancelsCounted t := by
  refine h.of_calls hinvoked hreturned (by simp [Pool.cancellingJobs, ht, hc]) fun hany => ?_
  rw [ht, List.any_append, hany, Bool.true_or]

/-- A call moves on that cancels nothing and was not one of `shutdown_now`. -/
theorem of_replace (h : CancelsCounted s) {t : Pool Job} {c₁ c₂ : List (Call Job)} {c c' : Call Job}
    (hs : s.calls = c₁ ++ c :: c₂) (ht : t.calls = c₁ ++ c' :: c₂)
    (hc : c'.cancelling = c.cancelling)
    (hshutdown : c.isShutdownNow = true → c'.isShutdownNow = true)
    (hinvoked : t.ledger.cancelInvoked = s.ledger.cancelInvoked)
    (hreturned : t.ledger.cancelReturned = s.ledger.cancelReturned) : CancelsCounted t := by
  refine h.of_calls hinvoked hreturned (by simp [Pool.cancellingJobs, hs, ht, hc]) fun hany => ?_
  rw [hs, List.any_append, List.any_cons, Bool.or_eq_true, Bool.or_eq_true] at hany
  rw [ht, List.any_append, List.any_cons, Bool.or_eq_true, Bool.or_eq_true]
  exact hany.imp_right (Or.imp_left hshutdown)

/-- Waking everybody up cancels nothing. -/
theorem wakeAll (h : CancelsCounted s) : CancelsCounted s.wakeAll :=
  h.of_calls rfl rfl (by simp) (by simp)

/-- **Effects account for the cancel callbacks they invoke.** -/
theorem effect (h : CancelsCounted s) (he : Effect m s s') : CancelsCounted s' := by
  cases he with
  | call c hc => exact h.of_append rfl (Call.cancelling_of_isQuiet hc) rfl rfl
  | callMoves c₁ c₂ c c' hcalls hc hc' =>
    refine h.of_replace hcalls rfl ?_ ?_ rfl rfl
    · rw [Call.cancelling_of_isQuiet hc, Call.cancelling_of_isQuiet hc']
    · intro hshutdown
      exact absurd hc (by rw [Call.isQuiet_of_isShutdownNow hshutdown]; simp)
  | configure => exact h.of_append rfl rfl rfl rfl
  | setterDone c₁ c₂ hcalls =>
    exact h.of_replace hcalls rfl rfl (by simp [Call.isShutdownNow]) rfl rfl
  | reject job c hc => exact h.of_append rfl (Call.cancelling_of_isQuiet hc) rfl rfl
  | rollback => exact h.of_append rfl rfl rfl rfl
  | rollbackInvoked c₁ c₂ job error hcalls =>
    exact h.of_replace hcalls rfl rfl (by simp [Call.isShutdownNow]) rfl rfl
  | rollbackReturned c₁ c₂ job error hcalls =>
    exact h.of_replace hcalls rfl rfl (by simp [Call.isShutdownNow]) rfl rfl
  | rollbackUnwound c₁ c₂ job error message hcalls =>
    exact h.of_replace hcalls rfl rfl (by simp [Call.isShutdownNow]) rfl rfl
  | spawnFor => exact h.of_append rfl rfl rfl rfl
  | enqueueGlobal job c hc => exact h.of_append rfl (Call.cancelling_of_enqueued hc) rfl rfl
  | enqueueLocal => exact h.of_append rfl (Call.cancelling_enqueueCall _) rfl rfl
  | notifyDone c₁ c₂ hcalls =>
    exact h.of_replace hcalls rfl rfl (by simp [Call.isShutdownNow]) rfl rfl
  | wakeCaller c₁ c₂ hcalls =>
    exact h.of_replace hcalls rfl rfl (by simp [Call.isShutdownNow]) rfl rfl
  | wakeAll => exact h.wakeAll
  | exit =>
    refine Pool.notifyTerminated_of (I := CancelsCounted) (fun _ => wakeAll) ?_
    exact ⟨h.invoked, h.shutdowns⟩
  | finish =>
    refine Pool.notifyTerminated_of (I := CancelsCounted) (fun _ => wakeAll) ?_
    exact ⟨h.invoked, h.shutdowns⟩
  | shutdown => exact h.of_append rfl rfl rfl rfl
  | drain => exact h.of_append rfl rfl rfl rfl
  | cancelInvoked c₁ c₂ job jobs report hcalls =>
    refine ⟨fun j => ?_, fun _ => by simp [Call.isShutdownNow]⟩
    have hj := h.invoked j
    simp only [Pool.cancellingJobs, hcalls, Call.cancelling, List.flatMap_append,
      List.flatMap_cons, List.count_append, Option.toList_none, Option.toList_some,
      List.count_nil] at hj ⊢
    omega
  | cancelReturned c₁ c₂ job jobs report hcalls =>
    refine ⟨fun j => ?_, fun _ => by simp [Call.isShutdownNow]⟩
    have hj := h.invoked j
    simp only [Pool.cancellingJobs, hcalls, Call.cancelling, List.flatMap_append,
      List.flatMap_cons, List.count_append, Option.toList_none, Option.toList_some,
      List.count_nil] at hj ⊢
    omega
  | cancelUnwound c₁ c₂ job jobs report message hcalls =>
    exact h.of_replace hcalls rfl rfl (fun _ => rfl) rfl rfl
  | shutdownNowReturned c₁ c₂ report hcalls =>
    exact h.of_replace hcalls rfl rfl (fun _ => rfl) rfl rfl
  | parkCaller => exact h.of_append rfl rfl rfl rfl
  | reparkCaller c₁ c₂ hcalls =>
    exact h.of_replace hcalls rfl rfl (by simp [Call.isShutdownNow]) rfl rfl
  | callerReturns c₁ c₂ hcalls =>
    exact h.of_replace hcalls rfl rfl (by simp [Call.isShutdownNow]) rfl rfl
  | _ =>
    -- the rest makes no call and moves none
    exact ⟨h.invoked, h.shutdowns⟩

/-- No cancel callback was invoked in a pool that was just built. -/
theorem of_build {b : ThreadPoolBuilder} (hb : build b = .ok s) : CancelsCounted s := by
  obtain ⟨-, rfl | rfl⟩ := build_eq_ok hb
  · exact ⟨fun _ => rfl, fun hne => absurd rfl hne⟩
  · exact ⟨fun _ => rfl, fun hne => absurd rfl hne⟩

end CancelsCounted

/-! ### Exactly once -/

section ExactlyOnce

variable {ok : Pool Job → Action Job → Prop}

/-- Every run keeps track of where jobs are. -/
theorem placed_of_reach (hs : (machine Job).ReachVia ok s) : Placed s :=
  reach_invariant (fun _ _ _ _ => Permitted.any) (fun _ _ => Placed.of_build)
    (fun _ _ _ h he => h.effect he) hs

/-- Every run accounts for the run callbacks. -/
theorem runsCounted_of_reach (hs : (machine Job).ReachVia ok s) : RunsCounted s :=
  reach_invariant (fun _ _ _ _ => Permitted.any) (fun _ _ => RunsCounted.of_build)
    (fun _ _ _ h he => h.effect he) hs

/-- Every run accounts for the cancel callbacks. -/
theorem cancelsCounted_of_reach (hs : (machine Job).ReachVia ok s) : CancelsCounted s :=
  reach_invariant (fun _ _ _ _ => Permitted.any) (fun _ _ => CancelsCounted.of_build)
    (fun _ _ _ h he => h.effect he) hs

/-- A job that is started is held. -/
theorem Pool.count_startedJobs_le (s : Pool Job) (j : Job) :
    s.startedJobs.count j ≤ s.heldJobs.count j := by
  refine count_flatMap_le fun w _ => ?_
  cases w.phase <;> simp [WorkerPhase.started, WorkerPhase.held]

/-- A call that cancels a job has drained it. -/
theorem Call.count_cancelling_le (c : Call Job) (j : Job) :
    c.cancelling.count j ≤ c.drained.count j := by
  cases c with
  | shutdownNowUnwound jobs message => exact (List.take_sublist 1 jobs).count_le j
  | _ => simp [cancelling, drained]

/-- A job that is being cancelled is drained. -/
theorem Pool.count_cancellingJobs_le (s : Pool Job) (j : Job) :
    s.cancellingJobs.count j ≤ s.drainedJobs.count j :=
  count_flatMap_le fun c _ => c.count_cancelling_le j

/-- A job is invoked at most as often as it was accepted, whether to run or to be
cancelled. -/
theorem count_invoked_le (hs : (machine Job).ReachVia ok s) (j : Job) :
    s.ledger.runInvoked.count j + s.ledger.cancelInvoked.count j ≤ s.ledger.accepted.count j := by
  have hplaces := (placed_of_reach hs).places j
  have hruns := (runsCounted_of_reach hs).invoked j
  have hcancels := (cancelsCounted_of_reach hs).invoked j
  have hstarted := s.count_startedJobs_le j
  have hcancelling := s.count_cancellingJobs_le j
  simp only [Pool.finishedJobs, List.count_append] at hplaces
  omega

omit [DecidableEq Job] in
/-- No worker holds a job in a terminated pool, and none has died. -/
theorem heldJobs_of_isTerminated (hwf : Wf s) (hterm : s.state.isTerminated = true) :
    s.heldJobs = [] ∧ s.countWorkers WorkerPhase.isUnwound = 0 := by
  obtain ⟨-, -, -, hlive⟩ := ThreadPoolState.isTerminated_iff.mp hterm
  rw [hwf.live, Pool.countWorkers, List.countP_eq_zero] at hlive
  have hexited : ∀ w ∈ s.workers, w.phase = .exited := by
    intro w hw
    have hnot := hlive w hw
    revert hnot
    cases w.phase <;> simp [WorkerPhase.isLive]
  constructor
  · refine List.flatMap_eq_nil_iff.mpr fun w hw => ?_
    rw [hexited w hw]
    rfl
  · rw [Pool.countWorkers, List.countP_eq_zero]
    intro w hw
    rw [hexited w hw]
    simp [WorkerPhase.isUnwound]

/-- **In a terminated pool every accepted job is over**, but for those a
`shutdown_now` still has to cancel. -/
theorem count_of_isTerminated (hs : (machine Job).ReachVia ok s)
    (hterm : s.state.isTerminated = true) (j : Job) :
    s.drainedJobs.count j + s.ledger.completed.count j + s.ledger.cancelReturned.count j =
        s.ledger.accepted.count j ∧
      s.ledger.runInvoked.count j = s.ledger.completed.count j ∧
      s.ledger.runReturned.count j = s.ledger.completed.count j := by
  have hwf := wf_of_reach hs
  obtain ⟨hheld, halive⟩ := heldJobs_of_isTerminated hwf hterm
  have hruns := runsCounted_of_reach hs
  obtain ⟨hunwound, habandoned⟩ := hruns.nothing_lost halive
  have hqueued : s.queuedJobs = [] := by
    rw [← List.length_eq_zero_iff, ← hwf.queued]
    exact (ThreadPoolState.isTerminated_iff.mp hterm).2.1
  have hplaces := (placed_of_reach hs).places j
  have hstarted := s.count_startedJobs_le j
  have hback : s.backJobs.count j ≤ s.startedJobs.count j := by
    refine count_flatMap_le fun w _ => ?_
    cases w.phase <;> simp [WorkerPhase.started, WorkerPhase.back]
  have hinvoked := hruns.invoked j
  have hreturned := hruns.returned j
  simp only [hqueued, hheld, Pool.finishedJobs, hunwound, habandoned, List.count_append,
    List.count_nil, List.append_nil] at hplaces hstarted hinvoked hreturned
  refine ⟨by omega, by omega, by omega⟩

/-- **Exactly once.** In every run whose run callbacks return, in which no thread
creation panics and whose prestarted threads are created, an accepted job is in
exactly one place – the global queue, one local queue, the hands of one worker, the
drained list of one `shutdown_now`, or finished. Its run callback is invoked at most
once, its cancel callback at most once, and never both. Once the pool is terminated
and all calls of `shutdown_now` have returned, exactly one of the two was invoked,
and that is the run callback if `shutdown_now` was never called. -/
theorem exactly_once (hs : (machine Job).ReachVia (fun _ a => a.calm = true) s) {j : Job}
    (hj : j ∈ s.ledger.accepted) :
    (s.state.queue.count j + (s.workerQueues.map fun q => q.jobs.count j).sum +
        (s.workers.map fun w => w.phase.held.count j).sum +
        (s.calls.map fun c => c.drained.count j).sum + s.finishedJobs.count j = 1) ∧
      s.ledger.runInvoked.count j ≤ 1 ∧ s.ledger.cancelInvoked.count j ≤ 1 ∧
      ¬(j ∈ s.ledger.runInvoked ∧ j ∈ s.ledger.cancelInvoked) ∧
      (s.state.isTerminated = true →
        (∀ c ∈ s.calls, c.isShutdownNow = true → ∃ report, c = .returned (.shutdownNow report)) →
        s.ledger.runInvoked.count j + s.ledger.cancelInvoked.count j = 1 ∧
          ((∀ c ∈ s.calls, c.isShutdownNow = false) → s.ledger.runInvoked.count j = 1)) := by
  have hplaced := placed_of_reach hs
  have hone := hplaced.count_accepted hj
  have hle := count_invoked_le hs j
  refine ⟨?_, by omega, by omega, ?_, ?_⟩
  · have hplaces := hplaced.places j
    rw [Pool.queuedJobs, Pool.heldJobs, Pool.drainedJobs, List.count_append, List.count_flatMap,
      List.count_flatMap, List.count_flatMap, hone] at hplaces
    exact hplaces
  · rintro ⟨hrun, hcancel⟩
    have hrun' := List.count_pos_iff.mpr hrun
    have hcancel' := List.count_pos_iff.mpr hcancel
    omega
  · intro hterm hreturned
    obtain ⟨hover, hruns, -⟩ := count_of_isTerminated hs hterm j
    have hcancels := (cancelsCounted_of_reach hs).invoked j
    -- no call has jobs left to cancel
    have hdrained : s.drainedJobs = [] := by
      refine List.flatMap_eq_nil_iff.mpr fun c hc => ?_
      cases c with
      | shutdownNow jobs current report => exact absurd (hreturned _ hc rfl) (by simp)
      | shutdownNowUnwound jobs message => exact absurd (hreturned _ hc rfl) (by simp)
      | _ => rfl
    have hcancelling := s.count_cancellingJobs_le j
    rw [hdrained, List.count_nil] at hover hcancelling
    refine ⟨by omega, fun hnever => ?_⟩
    have hnone : s.ledger.cancelInvoked = [] := by
      by_contra hne
      have hany := (cancelsCounted_of_reach hs).shutdowns hne
      obtain ⟨c, hc, hshutdown⟩ := List.any_eq_true.mp hany
      rw [hnever c hc] at hshutdown
      exact absurd hshutdown (by simp)
    rw [hnone, List.count_nil] at hcancels
    omega

end ExactlyOnce

end Jobs

/-- Whether the call has returned. -/
def Call.hasReturned : Call Job → Bool
  | returned _ => true
  | _ => false

/-- What a call of `shutdown_now` that has returned has returned. -/
theorem Call.exists_report {c : Call Job} (hreturned : c.hasReturned = true)
    (hshutdown : c.isShutdownNow = true) : ∃ report, c = .returned (.shutdownNow report) := by
  cases c with
  | returned reply =>
    cases reply with
    | shutdownNow report => exact ⟨report, rfl⟩
    | _ => exact absurd hshutdown (by simp [isShutdownNow])
  | _ => exact absurd hreturned (by simp [hasReturned])

/-- One job has run and one was cancelled, in a pool that has terminated. -/
theorem exactly_once_terminated :
    ∃ s : Pool ℕ, s.state.isTerminated = true ∧
      s.ledger.runInvoked.count 0 + s.ledger.cancelInvoked.count 0 = 1 ∧
      s.ledger.runInvoked.count 1 + s.ledger.cancelInvoked.count 1 = 1 := by
  obtain ⟨s, hs, hp⟩ := Machine.exists_reachVia_of_exec (fun _ a => a.calm = true)
    (fun _ a => a.calm) (fun _ _ h => h) (machine_init_ofSize ℕ 0)
    [.submit 0 .ok, .submit 1 .ok, .shutdownNow, .invokeRun 0, .runReturns 0,
      .finishRunningJob 0, .waitForJob 0, .invokeCancel 2, .cancelReturns 2, .shutdownNowReturns 2]
    (fun s => s.state.isTerminated && s.ledger.accepted == [0, 1] &&
      s.calls.all Call.hasReturned)
    (by decide)
  simp only [Bool.and_eq_true, beq_iff_eq, List.all_eq_true] at hp
  obtain ⟨⟨hterm, haccepted⟩, hcalls⟩ := hp
  have hreturned : ∀ c ∈ s.calls, c.isShutdownNow = true →
      ∃ report, c = .returned (.shutdownNow report) :=
    fun c hc => Call.exists_report (hcalls c hc)
  have h0 := exactly_once hs (j := 0) (by simp [haccepted])
  have h1 := exactly_once hs (j := 1) (by simp [haccepted])
  exact ⟨s, hterm, (h0.2.2.2.2 hterm hreturned).1, (h1.2.2.2.2 hterm hreturned).1⟩

end ThreadPool

end QubitConcurrent
