import QubitConcurrent.ThreadPool.Moves

/-!
# Every step is a chain of effects

The specifications of the critical sections
(`QubitConcurrent.ThreadPool.Sections`) say what state each of them ends in; here
that state is reached by effects. The result is
`QubitConcurrent.ThreadPool.step_effects`, and the rule every later invariant is
proved by is `QubitConcurrent.ThreadPool.reach_invariant`.
-/

namespace QubitConcurrent

namespace ThreadPool

open Relation (ReflTransGen)

variable {Job : Type} {m : Mode} {s s' : Pool Job}

/-! ### Moving threads, seen as replacements -/

/-- A worker moves on, written as a replacement. -/
theorem Pool.setPhase_split {l₁ l₂ : List (Worker Job)} {w : Worker Job}
    (hw : s.workers = l₁ ++ w :: l₂) (p : WorkerPhase Job) :
    s.setPhase l₁.length p = { s with workers := l₁ ++ { w with phase := p } :: l₂ } := by
  rw [setPhase, hw, modify_split]

/-- A call moves on, written as a replacement. -/
theorem Pool.setCall_split {c₁ c₂ : List (Call Job)} {c : Call Job}
    (hc : s.calls = c₁ ++ c :: c₂) (c' : Call Job) :
    s.setCall c₁.length c' = { s with calls := c₁ ++ c' :: c₂ } := by
  rw [setCall, hc]
  simp

/-- The same, in a pool of which only the calls are known. -/
theorem Pool.setCall_of_calls {calls c₁ c₂ : List (Call Job)} {c : Call Job}
    (hc : calls = c₁ ++ c :: c₂) (c' : Call Job) (st : ThreadPoolState Job)
    (qs : List (WorkerQueue Job)) (i : ℕ) (name : String) (stack : Option ℕ)
    (ws : List (Worker Job)) (l : Ledger Job) :
    Pool.setCall c₁.length c' ⟨st, qs, i, name, stack, ws, calls, l⟩ =
      ⟨st, qs, i, name, stack, ws, c₁ ++ c' :: c₂, l⟩ :=
  Pool.setCall_split (s := ⟨st, qs, i, name, stack, ws, calls, l⟩) hc c'

/-- A notification of termination does not reach a worker that no longer waits. -/
theorem Pool.setPhase_notifyTerminated (k : ℕ) {p : WorkerPhase Job} (hp : p.wake = p) :
    s.notifyTerminated.setPhase k p = (s.setPhase k p).notifyTerminated := by
  have hmap : (s.workers.map Worker.wake).modify k (fun w => { w with phase := p }) =
      (s.workers.modify k fun w => { w with phase := p }).map Worker.wake := by
    refine List.ext_getElem? fun n => ?_
    simp only [List.getElem?_map, List.getElem?_modify]
    split_ifs with hn
    · cases s.workers[n]? <;> simp [Worker.wake, hp]
    · simp
  by_cases hterm : s.state.isTerminated = true
  · rw [notifyTerminated, if_pos hterm, notifyTerminated, if_pos (by exact hterm)]
    simp only [setPhase, wakeAll, hmap]
  · rw [notifyTerminated, if_neg hterm, notifyTerminated, if_neg (by exact hterm)]

/-- The ledger does not take part in a notification of termination. -/
theorem Pool.record_notifyTerminated (f : Ledger Job → Ledger Job) :
    s.notifyTerminated.record f = (s.record f).notifyTerminated := by
  by_cases hterm : s.state.isTerminated = true
  · rw [notifyTerminated, if_pos hterm, notifyTerminated, if_pos (by exact hterm)]
    rfl
  · rw [notifyTerminated, if_neg hterm, notifyTerminated, if_neg (by exact hterm)]

/-! ### What a step needs permission for -/

/-- The steps with a defect of the pool's accounting in them: a run callback unwinds,
creating a thread panics, or fails without a first task while some job is counted as
running. -/
def Action.isFaulty (s : Pool Job) : Action Job → Prop
  | .runUnwinds _ => True
  | .submit _ (.panicked _) | .prestartCoreThread (.panicked _)
  | .prestartAllNext _ (.panicked _) => True
  | .prestartCoreThread (.error _) | .prestartAllNext _ (.error _) => 0 < s.state.runningTasks
  | _ => False

/-- The notifications that go to a `wait_for_termination` of a running pool. -/
def Action.isStray (s : Pool Job) : Action Job → Prop
  | .notifyOne _ (some (.caller k)) =>
    s.state.lifecycle = .running ∧ s.isParked (.caller k) = true
  | _ => False

/-- The calls of `wait_for_termination` on a running pool. -/
def Action.isEarly (s : Pool Job) : Action Job → Prop
  | .waitForTermination => s.state.lifecycle = .running
  | _ => False

/-- The steps in which a worker may leave. -/
def Action.mayLeave : Action Job → Prop
  | .waitForJob _ | .resumeWorker _ => True
  | _ => False

/-- A step has the permissions it needs. -/
structure Permitted (m : Mode) (s : Pool Job) (a : Action Job) : Prop where
  /-- Defects of the accounting. -/
  faulty : a.isFaulty s → m.faulty
  /-- Notifications to somebody else. -/
  stray : a.isStray s → m.stray
  /-- Waiting for the termination of a running pool. -/
  early : a.isEarly s → m.early
  /-- Leaving. -/
  leaves : a.mayLeave → m.leaves

/-- Where everything is permitted, every step is. -/
theorem Permitted.any {a : Action Job} : Permitted Mode.any s a :=
  ⟨fun _ => trivial, fun _ => trivial, fun _ => trivial, fun _ => trivial⟩

/-! ### Steps of users -/

/-- A job that ends up in a queue is accepted. -/
@[simp] theorem Ledger.recordSubmit_enqueueCall (job : Job) (counted : Bool)
    (st : ThreadPoolState Job) (l : Ledger Job) :
    Ledger.recordSubmit job counted st.enqueueCall l = l.accept job := by
  rw [ThreadPoolState.enqueueCall]
  split_ifs <;> rfl

/-- A submission is a chain of effects. -/
theorem submit_effects (hwf : Wf s) {job : Job} (hnew : job ∉ s.ledger.presented) {c : Call Job}
    (hm : ∀ message, c = .returned (.panicked message) → m.faulty) (h : Submitted s job c s') :
    ReflTransGen (Effect m) s (s.recordSubmit job c s') := by
  cases h with
  | refused error => exact .single (.reject job _ rfl hnew)
  | notSpawned source => exact .tail (.single .skipIndex) (.reject job _ rfl hnew)
  | takenBack source => exact .tail (.single .skipIndex) (.rollback job _ hnew)
  | lost message hrun hroom =>
    have hgone : s.recordSubmit job (.returned (.panicked message)) (s.stillborn (some job)) =
        { s.stillborn (some job) with
          calls := s.calls ++ [.returned (.panicked message)]
          ledger := s.ledger.present job } := by
      simp [Pool.recordSubmit, Ledger.recordSubmit, Call.accepts, Pool.stillborn, Pool.spawned,
        Pool.addCall, Pool.record, Ledger.present]
    rw [hgone]
    refine .tail (.single (.spawnPanics (some job) (hm message rfl) hrun (hroom.imp_right Or.inr)))
      ?_
    exact .reject (s := s.stillborn (some job)) job (.returned (.panicked message)) rfl hnew
  | leftBehind message hrun hsat hlive =>
    have hkept : s.recordSubmit job (.returned (.panicked message))
        { s.stillborn none with
          state := { (s.stillborn none).state.enqueue with queue := s.state.queue ++ [job] } } =
        { s.stillborn none with
          state := { (s.stillborn none).state.enqueue with queue := s.state.queue ++ [job] }
          calls := s.calls ++ [.returned (.panicked message)]
          ledger := s.ledger.accept job } := by
      simp [Pool.recordSubmit, Ledger.recordSubmit, Call.accepts, Pool.stillborn, Pool.spawned,
        Pool.addCall, Pool.record, Ledger.accept, ThreadPoolState.enqueue]
    rw [hkept]
    -- without a worker nobody is idle
    have hidle : s.state.idleWorkers = 0 := hwf.idle_of_live hlive
    refine .tail (.single (.spawnPanics none (hm message rfl) hrun (Or.inr (Or.inl hlive)))) ?_
    exact .enqueueGlobal (s := s.stillborn none) job _ (Or.inr ⟨rfl, hidle⟩) hnew hrun
      (Nat.succ_pos _)
  | handed hrun hroom => exact .single (.spawnFor job hnew hrun hroom)
  | queuedFirst hrun hsat hlive =>
    -- the order of the two inside the critical section does not show
    refine .tail (.single (.spawnIdle hrun (Or.inr hlive))) ?_
    rw [Pool.recordSubmit, Pool.record, Ledger.recordSubmit_enqueueCall]
    exact .enqueueGlobal (s := s.spawned none) job _ (Or.inl rfl) hnew hrun (Nat.succ_pos _)
  | queuedGlobal hrun hsat hlive hglobal =>
    rw [Pool.recordSubmit, Pool.record, Ledger.recordSubmit_enqueueCall]
    exact .single (.enqueueGlobal job _ (Or.inl rfl) hnew hrun hlive)
  | queuedLocal hrun hcore hsat hlive hcap hidle q₁ q₂ q hqs =>
    refine .tail (.single (.moveCursor ((s.nextEnqueueWorker + 1) % usizeModulus))) ?_
    rw [Pool.recordSubmit, Pool.record, Ledger.recordSubmit_enqueueCall]
    exact .enqueueLocal
      (s := { s with nextEnqueueWorker := (s.nextEnqueueWorker + 1) % usizeModulus })
      job hnew hrun hlive hcap hidle q₁ q₂ q hqs

/-- The one critical section of a prestart is a chain of effects. -/
theorem prestarted_effects {spawned : SpawnOutcome}
    (hm : 0 < s.state.runningTasks → ∀ source, spawned = .error source → m.faulty)
    (hpanics : ∀ message, spawned = .panicked message → m.faulty)
    (h : Prestarted s spawned s') : ReflTransGen (Effect m) s s' := by
  cases h with
  | refused => exact .refl
  | started hrun hcore => exact .single (.spawnIdle hrun (Or.inl hcore))
  | notStarted source hrun =>
    rcases Nat.eq_zero_or_pos s.state.runningTasks with hzero | hpos
    · have hskip : s.state.spawnFailed none =
          { s.state with nextWorkerIndex := s.state.nextWorkerIndex + 1 } := by
        simp [ThreadPoolState.spawnFailed, hzero]
      rw [hskip]
      exact .single .skipIndex
    · exact .tail (.single .skipIndex) (.dropRunning (hm hpos source rfl) hpos)
  | panicked message hrun hcore =>
    exact .single (.spawnPanics none (hpanics message rfl) hrun (Or.inl hcore))

/-- A setter is one effect. -/
theorem configured_effects {c : Call Job} (h : Configured s c s') :
    ReflTransGen (Effect m) s (s'.addCall c) := by
  cases h with
  | refused error => exact .single (.call _ rfl)
  | written core maximum keepAlive allow hsizes =>
    exact .single (.configure core maximum keepAlive allow hsizes)

/-- A `notify_one` is a chain of effects. -/
theorem notifyOne_effects {c₁ c₂ : List (Call Job)} (hcalls : s.calls = c₁ ++ .submitNotify :: c₂)
    {t : Sleeper} (ht : s.isParked t = true)
    (hm : ∀ k, t = .caller k → s.state.lifecycle = .running → m.stray) :
    ReflTransGen (Effect m) s
      ((s.wakeOne t).setCall c₁.length (.returned (.submit (.ok ())))) := by
  cases t with
  | worker k =>
    obtain ⟨w, hk, hp⟩ : ∃ w, s.workers[k]? = some w ∧ w.phase.isParked = true := by
      simpa [Pool.isParked, Option.any_eq_true] using ht
    obtain ⟨l₁, l₂, hw, rfl⟩ := exists_split_of_getElem? hk
    obtain ⟨timeout, hphase⟩ : ∃ timeout, w.phase = .waiting timeout none := by
      revert hp
      cases w.phase with
      | waiting timeout wake => cases wake <;> simp [WorkerPhase.isParked]
      | _ => simp [WorkerPhase.isParked]
    have hwake : s.wakeOne (.worker l₁.length) =
        { s with workers := l₁ ++ { w with phase := .waiting timeout (some .woken) } :: l₂ } := by
      simp [Pool.wakeOne, hw, Worker.wake, hphase, WorkerPhase.wake]
    rw [hwake, Pool.setCall_of_calls hcalls]
    refine .tail (.single (.wakeWorker l₁ l₂ w hw timeout .woken hphase)) ?_
    refine .notifyDone _ _ hcalls (Or.inr (Or.inr (Or.inr ?_)))
    exact ⟨{ w with phase := .waiting timeout (some .woken) }, by simp, rfl, rfl⟩
  | caller k =>
    obtain ⟨c, hk, hp⟩ : ∃ c, s.calls[k]? = some c ∧ c.isParked = true := by
      simpa [Pool.isParked, Option.any_eq_true] using ht
    obtain rfl := Call.eq_of_isParked hp
    obtain ⟨d₁, d₂, hd, rfl⟩ := exists_split_of_getElem? hk
    have hwake : s.wakeOne (.caller d₁.length) =
        { s with calls := d₁ ++ .waitForTermination true :: d₂ } := by
      simp [Pool.wakeOne, hd, Call.wake]
    -- waking the caller leaves the notifying call where it was
    obtain ⟨e₁, e₂, he, hlen⟩ : ∃ e₁ e₂, d₁ ++ Call.waitForTermination true :: d₂ =
        e₁ ++ .submitNotify :: e₂ ∧ e₁.length = c₁.length := by
      have hget : (d₁ ++ Call.waitForTermination true :: d₂)[c₁.length]? = some .submitNotify := by
        have hold : (d₁ ++ Call.waitForTermination false :: d₂)[c₁.length]? =
            some (Call.submitNotify : Call Job) := by
          rw [← hd, hcalls]
          simp
        rcases Nat.lt_trichotomy c₁.length d₁.length with hlt | heq | hgt
        · rwa [List.getElem?_append_left hlt] at hold ⊢
        · rw [heq] at hold
          simp at hold
        · obtain ⟨n, hn⟩ := Nat.exists_eq_add_of_lt hgt
          rw [hn, Nat.add_assoc, List.getElem?_append_right (Nat.le_add_right _ _)] at hold ⊢
          simpa using hold
      obtain ⟨e₁, e₂, he, hlen⟩ := exists_split_of_getElem? hget
      exact ⟨e₁, e₂, he, hlen⟩
    rw [hwake, ← hlen, Pool.setCall_of_calls he]
    refine .tail (.single (.wakeCaller d₁ d₂ hd)) ?_
    refine .notifyDone _ _ he ?_
    by_cases hrun : s.state.lifecycle = .running
    · exact Or.inl (hm _ rfl hrun)
    · exact Or.inr (Or.inl hrun)

/-! ### Steps of workers -/

/-- A round of `wait_for_job` is a chain of effects, from the moment its worker is
ready for it. -/
theorem waited_effects (hm : m.leaves) {l₁ l₂ : List (Worker Job)} {w : Worker Job}
    (hw : s.workers = l₁ ++ w :: l₂) {o : WaitOutcome Job} (hwait : Waited s w.index o s') :
    ReflTransGen (Effect m) { s with workers := l₁ ++ { w with phase := .ready } :: l₂ }
      (s'.settleWait l₁.length o) := by
  cases hwait with
  | takeGlobal c j js hlife hq =>
    simp only [Pool.settleWait, Pool.setPhase, hw, modify_split]
    refine .tail (.single (.moveCursor c)) ?_
    exact .claimGlobal
      (s := { s with workers := l₁ ++ { w with phase := .ready } :: l₂, nextEnqueueWorker := c })
      l₁ l₂ { w with phase := .ready } rfl rfl j js hlife hq
  | takeLocal c v j js q₁ q₂ hlife hqs =>
    simp only [Pool.settleWait, Pool.setPhase, hw, modify_split]
    refine .tail (.single (.moveCursor c)) ?_
    exact .claimLocal
      (s := { s with workers := l₁ ++ { w with phase := .ready } :: l₂, nextEnqueueWorker := c })
      l₁ l₂ { w with phase := .ready } rfl rfl q₁ q₂ v j js hlife hqs
  | park c hrun hnil hmax =>
    simp only [Pool.settleWait, Pool.setPhase, hw, modify_split]
    refine .tail (.single (.moveCursor c)) ?_
    exact .park
      (s := { s with workers := l₁ ++ { w with phase := .ready } :: l₂, nextEnqueueWorker := c })
      l₁ l₂ { w with phase := .ready } rfl rfl hrun hnil hmax
  | exit c q₁ q₂ hnil hwhy hqs =>
    rw [Pool.settleWait, Pool.setPhase_notifyTerminated (p := .exited) _ rfl]
    simp only [Pool.setPhase, Pool.unregistered, hw, modify_split]
    refine .tail (.single (.moveCursor c)) ?_
    exact .exit
      (s := { s with workers := l₁ ++ { w with phase := .ready } :: l₂, nextEnqueueWorker := c })
      hm l₁ l₂ { w with phase := .ready } rfl rfl hnil hwhy q₁ q₂ hqs

/-- What a worker does is a chain of effects. -/
theorem Worked.effects {l₁ l₂ : List (Worker Job)} {w : Worker Job}
    (hw : s.workers = l₁ ++ w :: l₂) {a : Action Job} (hm : Permitted m s a)
    (hgoes : Worked s l₁.length w a s') : ReflTransGen (Effect m) s s' := by
  cases hgoes with
  | runInvoked n j hp =>
    rw [Pool.setPhase_split hw]
    exact .single (.invokeRun l₁ l₂ w hw j hp)
  | runReturned n j hp =>
    rw [Pool.setPhase_split hw]
    exact .single (.runReturns l₁ l₂ w hw j hp)
  | runUnwound n j hp =>
    rw [Pool.setPhase_split hw]
    exact .single (.unwind l₁ l₂ w hw j hp (hm.faulty trivial))
  | finishPanicked n j hp hzero =>
    rw [Pool.setPhase_split hw]
    exact .single (.finishPanics l₁ l₂ w hw j hp hzero)
  | finished n j hp hpos =>
    rw [Pool.setPhase_notifyTerminated (p := .ready) _ rfl, Pool.record_notifyTerminated]
    simp only [Pool.setPhase, Pool.record, hw, modify_split]
    exact .single (.finish l₁ l₂ w hw j hp hpos)
  | waited n hp o t hrun hwait =>
    have hready :
        ({ s with workers := l₁ ++ { w with phase := .ready } :: l₂ } : Pool Job) = s := by
      rw [← hp, ← hw]
    have hchain := waited_effects (m := m) (hm.leaves trivial) hw hwait
    rwa [hready] at hchain
  | woken n status timeout hp hcond =>
    rw [Pool.setPhase_split hw]
    exact .single (.wakeWorker l₁ l₂ w hw timeout status hp)
  | resumed n timeout status hp o t hrun hwait =>
    exact .head (.unpark l₁ l₂ w hw timeout status hp)
      (waited_effects (s := s.unparked) (hm.leaves trivial) hw hwait)

/-! ### All steps -/

/-- A call that goes on is an effect, where it is one of a call that stands where this one does. -/
theorem setCall_effects {k : ℕ} {c c' : Call Job} {f : Ledger Job → Ledger Job}
    (hk : s.calls[k]? = some c)
    (he : ∀ c₁ c₂, s.calls = c₁ ++ c :: c₂ →
      Effect m s { s with calls := c₁ ++ c' :: c₂, ledger := f s.ledger }) :
    ReflTransGen (Effect m) s ((s.setCall k c').record f) := by
  obtain ⟨c₁, c₂, hcalls, rfl⟩ := exists_split_of_getElem? hk
  rw [Pool.setCall_split hcalls]
  exact .single (he c₁ c₂ hcalls)

/-- A round of `prestart_all_core_threads`. -/
theorem prestartAllNext_effects (h : Wf s) {k started : ℕ} {spawned : SpawnOutcome}
    (hm : Permitted m s (.prestartAllNext k spawned))
    (hk : s.calls[k]? = some (.prestartAll started)) :
    ReflTransGen (Effect m) s ((critical (prestartAllNext started spawned) s).2.setCall k
      (critical (prestartAllNext started spawned) s).1) := by
  obtain ⟨c₁, c₂, hcalls, rfl⟩ := exists_split_of_getElem? hk
  obtain ⟨c, t, hcrit, hquiet, -, hprestarted⟩ := prestartAllNext_cases h started spawned
  have hsame := hprestarted.calls_eq
  rw [hcrit, Pool.setCall_split (hsame.trans hcalls)]
  refine (prestarted_effects (fun hpos source hsource => hm.faulty ?_)
    (fun message hmessage => hm.faulty ?_) hprestarted).tail
      (.callMoves c₁ c₂ _ c (hsame.trans hcalls) rfl hquiet)
  · subst hsource
    exact hpos
  · subst hmessage
    trivial

/-- The `notify_all` of a setter. -/
theorem notifySetter_effects {k : ℕ} (hk : s.calls[k]? = some .setterNotify) :
    ReflTransGen (Effect m) s (s.wakeAll.setCall k (.returned (.setter (.ok ())))) := by
  obtain ⟨c₁, c₂, hcalls, rfl⟩ := exists_split_of_getElem? hk
  -- everybody is woken up first, and then nobody is left to be notified
  have hwoken : s.wakeAll.calls = c₁.map Call.wake ++ .setterNotify :: c₂.map Call.wake := by
    simp [hcalls, Call.wake]
  have hset := Pool.setCall_split hwoken (.returned (.setter (.ok ())))
  rw [List.length_map] at hset
  rw [hset]
  exact .tail (.single .wakeAll) (.setterDone _ _ hwoken s.noneParked_wakeAll)

/-- A call that goes on is a chain of effects. -/
theorem Continued.effects (h : Wf s) {a : Action Job} (hm : Permitted m s a)
    (hgoes : Continued s a s') : ReflTransGen (Effect m) s s' := by
  cases hgoes with
  | notified k t hk ht =>
    obtain ⟨c₁, c₂, hcalls, rfl⟩ := exists_split_of_getElem? hk
    refine notifyOne_effects hcalls ht fun j hj hrun => hm.stray ?_
    subst hj
    exact ⟨hrun, ht⟩
  | notifiedNobody k hk hnone =>
    refine setCall_effects (f := id) hk fun c₁ c₂ hcalls =>
      .notifyDone c₁ c₂ hcalls (Or.inr (Or.inr (Or.inl ?_)))
    simp only [Pool.noneParked, Bool.and_eq_true, List.all_eq_true, Bool.not_eq_true'] at hnone
    exact hnone.1
  | prestarted k started spawned hk => exact prestartAllNext_effects h hm hk
  | setterNotified k hk => exact notifySetter_effects hk
  | cancelInvoked k job jobs report hk =>
    exact setCall_effects hk fun c₁ c₂ hcalls => .cancelInvoked c₁ c₂ job jobs report hcalls
  | rollbackInvoked k job error hk =>
    exact setCall_effects hk fun c₁ c₂ hcalls => .rollbackInvoked c₁ c₂ job error hcalls
  | cancelReturned k job jobs report hk =>
    exact setCall_effects hk fun c₁ c₂ hcalls => .cancelReturned c₁ c₂ job jobs report hcalls
  | rollbackReturned k job error hk =>
    exact setCall_effects hk fun c₁ c₂ hcalls => .rollbackReturned c₁ c₂ job error hcalls
  | cancelUnwound k job jobs report message hk =>
    exact setCall_effects (f := id) hk fun c₁ c₂ hcalls =>
      .cancelUnwound c₁ c₂ job jobs report message hcalls
  | rollbackUnwound k job error message hk =>
    exact setCall_effects (f := id) hk fun c₁ c₂ hcalls =>
      .rollbackUnwound c₁ c₂ job error message hcalls
  | shutdownNowReturned k report hk =>
    exact setCall_effects (f := id) hk fun c₁ c₂ hcalls =>
      .shutdownNowReturned c₁ c₂ report hcalls
  | callerWoken k hk =>
    exact setCall_effects (f := id) hk fun c₁ c₂ hcalls => .wakeCaller c₁ c₂ hcalls
  | callerReturns k hk hterm =>
    exact setCall_effects (f := id) hk fun c₁ c₂ hcalls => .callerReturns c₁ c₂ hcalls hterm
  | callerParks k hk hterm =>
    exact setCall_effects (f := id) hk fun c₁ c₂ hcalls => .reparkCaller c₁ c₂ hcalls hterm

section Step

variable [DecidableEq Job]

/-- A call of `prestart_core_thread`. -/
theorem callerStep_prestartCoreThread_effects (h : Wf s) {spawned : SpawnOutcome}
    (hm : Permitted m s (.prestartCoreThread spawned))
    (hstep : callerStep s (.prestartCoreThread spawned) = some s') :
    ReflTransGen (Effect m) s s' := by
  obtain ⟨c, t, hcrit, hquiet, -, hprestarted⟩ := critical_prestartCoreThread h spawned
  rw [callerStep, hcrit] at hstep
  obtain rfl := Option.some.inj hstep
  refine (prestarted_effects (fun hpos source hsource => hm.faulty ?_)
    (fun message hmessage => hm.faulty ?_) hprestarted).tail (.call _ hquiet)
  · subst hsource
    exact hpos
  · subst hmessage
    trivial

/-- A call of `wait_for_termination`. -/
theorem callerStep_waitForTermination_effects (hm : Permitted m s .waitForTermination)
    (hstep : callerStep s .waitForTermination = some s') : ReflTransGen (Effect m) s s' := by
  rw [callerStep, critical, waitForTermination_run] at hstep
  obtain rfl := Option.some.inj hstep
  by_cases hterm : s.state.isTerminated = true
  · rw [if_pos hterm]
    exact .single (.call _ rfl)
  · rw [if_neg hterm]
    -- whoever parks while the pool still runs is early
    refine .single (.parkCaller (by simpa using hterm) ?_)
    by_cases hrun : s.state.lifecycle = .running
    · exact Or.inl (hm.early hrun)
    · exact Or.inr hrun

/-- A step of a user is a chain of effects. -/
theorem callerStep_effects (h : Wf s) {a : Action Job} (hm : Permitted m s a)
    (hstep : callerStep s a = some s') : ReflTransGen (Effect m) s s' := by
  cases a with
  | submit job spawned =>
    rw [callerStep] at hstep
    split_ifs at hstep with hnew
    obtain ⟨c, t, hcrit, hsubmitted, hpanics⟩ := submit_cases h job spawned
    rw [hcrit] at hstep
    obtain rfl := Option.some.inj hstep
    refine submit_effects h hnew (fun message hmessage => hm.faulty ?_) hsubmitted
    rw [hpanics message hmessage]
    trivial
  | prestartCoreThread spawned => exact callerStep_prestartCoreThread_effects h hm hstep
  | prestartAllCoreThreads =>
    obtain rfl := Option.some.inj hstep
    exact .single (.call _ rfl)
  | setCorePoolSize | setMaximumPoolSize | setKeepAlive | allowCoreThreadTimeout =>
    obtain ⟨c, t, hconf, rfl⟩ := callerStep_setter (by rfl) hstep
    exact configured_effects hconf
  | shutdown =>
    rw [callerStep, critical, shutdown_run] at hstep
    obtain rfl := Option.some.inj hstep
    exact .tail (.single .wakeAll) (.shutdown s.noneParked_wakeAll)
  | shutdownNow =>
    rw [callerStep, critical, shutdownNow_run] at hstep
    obtain rfl := Option.some.inj hstep
    exact .tail (.single .wakeAll) (.drain s.noneParked_wakeAll)
  | isTerminated =>
    rw [callerStep, critical, isTerminated_run] at hstep
    obtain rfl := Option.some.inj hstep
    exact .single (.call _ rfl)
  | waitForTermination => exact callerStep_waitForTermination_effects hm hstep
  | notifyOne | prestartAllNext | notifySetter | invokeCancel | cancelReturns | cancelUnwinds
  | shutdownNowReturns | wakeCaller | resumeCaller =>
    exact (callerStep_goesOn (by rfl) hstep).effects h hm
  | _ => exact absurd hstep (by simp [callerStep])

/-- **Every step is a chain of effects**, of those it has permission for. -/
theorem step_effects (h : Wf s) {a : Action Job} (hm : Permitted m s a)
    (hstep : step s a = some s') : ReflTransGen (Effect m) s s' := by
  rw [step] at hstep
  cases ha : a.worker? with
  | none =>
    rw [ha] at hstep
    exact callerStep_effects h hm hstep
  | some k =>
    rw [ha] at hstep
    cases hk : s.workers[k]? with
    | none => simp [hk] at hstep
    | some w =>
      obtain ⟨l₁, l₂, hw, rfl⟩ := exists_split_of_getElem? hk
      simp only [hk] at hstep
      exact (workerStep_worked h hk hstep).effects hw hm

/-- Every reachable pool is well formed. -/
theorem wf_of_reach {ok : Pool Job → Action Job → Prop} (hs : (machine Job).ReachVia ok s) :
    Wf s := by
  refine hs.reach.invariant_of_effects (E := Effect Mode.any) ?_ ?_ ?_
  · rintro s ⟨b, hb⟩
    exact Wf.of_build hb
  · intro s a s' _ hwf _ hstep
    exact step_effects hwf Permitted.any hstep
  · exact fun s s' hwf heff => hwf.effect heff

/-- **The rule for invariants of the pool**: what holds of a pool that was just
built and is kept by the effects the steps of a run have permission for holds in
every state the run reaches. -/
theorem reach_invariant {ok : Pool Job → Action Job → Prop} {I : Pool Job → Prop}
    (hm : ∀ s a, (machine Job).ReachVia ok s → ok s a → Permitted m s a)
    (hinit : ∀ b s, build b = .ok s → I s)
    (heff : ∀ s s', Wf s → I s → Effect m s s' → I s')
    (hs : (machine Job).ReachVia ok s) : I s := by
  have hboth : Wf s ∧ I s := by
    refine hs.invariant_of_effects (E := Effect m) (I := fun s => Wf s ∧ I s) ?_ ?_ ?_
    · rintro s ⟨b, hb⟩
      exact ⟨Wf.of_build hb, hinit b s hb⟩
    · intro s a s' hreach hwf hok hstep
      exact step_effects hwf.1 (hm s a hreach hok) hstep
    · exact fun s s' hwf he => ⟨hwf.1.effect he, heff s s' hwf.1 hwf.2 he⟩
  exact hboth.2

end Step

end ThreadPool

end QubitConcurrent
