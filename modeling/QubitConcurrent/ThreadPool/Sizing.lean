import QubitConcurrent.ThreadPool.Ending

/-!
# The size of a pool

How many workers a pool has is bounded from above by its maximum and, as long as core
workers do not time out, from below by its core – while both may be changed at any time, and
while workers are asleep in a wait whose kind was chosen under other values.

The first half is about the number of live workers, move by move: it grows by one and stays
within the maximum, or it does not grow (`QubitConcurrent.ThreadPool.Move.liveWorkers`). It
can exceed the maximum only because the maximum was lowered, and comes down from there.

The second half is about sleep. A worker that parks without a timeout is one that may stay
for good, and how many may is a question of the values at the time it is asked – so it has an
answer only where no setter is between its write and its notification
(`QubitConcurrent.ThreadPool.Rested`).
-/

namespace QubitConcurrent

namespace ThreadPool

variable {Job : Type} {m : Mode} {s s' : Pool Job}

/-! ### The number of workers -/

/-- The number of threads does not change when they are notified. -/
@[simp] theorem Pool.length_workers_notifyTerminated (s : Pool Job) :
    s.notifyTerminated.workers.length = s.workers.length := by
  rw [notifyTerminated]
  split_ifs
  · simp
  · rfl

/-- The end of a round of `wait_for_job` creates no thread. -/
theorem Pool.length_workers_settleWait (k : ℕ) (o : WaitOutcome Job) (s : Pool Job) :
    (s.settleWait k o).workers.length = s.workers.length := by
  cases o <;> simp [settleWait, setPhase, record]

/-- What a move does to the number of workers. -/
inductive Staffing (s s' : Pool Job) : Prop
  /-- No worker is created, and none more is live. -/
  | kept (hworkers : s'.workers.length = s.workers.length)
      (hlive : s'.state.liveWorkers ≤ s.state.liveWorkers)
  /-- A worker is created within the maximum. -/
  | grown (hlive : s'.state.liveWorkers = s.state.liveWorkers + 1)
      (hmax : s'.state.liveWorkers ≤ s.state.maximumPoolSize)
      (hsame : s'.state.maximumPoolSize = s.state.maximumPoolSize)

/-- A step that would put more workers than the maximum into the pool lowers the maximum. -/
theorem Staffing.maximum_lt (h : Staffing s s')
    (hle : s.state.liveWorkers ≤ s.state.maximumPoolSize)
    (hexceeds : s'.state.maximumPoolSize < s'.state.liveWorkers) :
    s'.state.maximumPoolSize < s.state.maximumPoolSize := by
  cases h with
  | kept hworkers hlive => omega
  | grown hlive hmax hsame => omega

/-- From above the maximum the number of workers does not grow. -/
theorem Staffing.liveWorkers_le (h : Staffing s s')
    (hexceeds : s.state.maximumPoolSize < s.state.liveWorkers) :
    s'.state.liveWorkers ≤ s.state.liveWorkers := by
  cases h with
  | kept hworkers hlive => exact hlive
  | grown hlive hmax hsame => omega

/-- **What a move does to the number of workers.** -/
theorem Move.staffing (hwf : Wf s) {a : Action Job} (h : Move s a s') : Staffing s s' := by
  have hcore := hwf.sizes.core_le
  have hpos := hwf.sizes.maximum_pos
  cases h with
  | submit job spawned hnew c t h =>
    cases h with
    | refused | notSpawned | takenBack | queuedGlobal | queuedLocal => exact .kept rfl le_rfl
    | handed hrun hroom =>
      have hroom' : s.state.liveWorkers < s.state.maximumPoolSize := by omega
      exact .grown rfl hroom' rfl
    | queuedFirst hrun hsat hlive =>
      have hroom' : s.state.liveWorkers < s.state.maximumPoolSize := by omega
      exact .grown rfl hroom' rfl
    | lost message hrun hroom =>
      have hroom' : s.state.liveWorkers < s.state.maximumPoolSize := by omega
      exact .grown rfl hroom' rfl
    | leftBehind message hrun hsat hlive =>
      have hroom' : s.state.liveWorkers < s.state.maximumPoolSize := by omega
      exact .grown rfl hroom' rfl
  | prestart a ha spawned t h calls =>
    cases h with
    | refused | notStarted => exact .kept rfl le_rfl
    | started hrun hroom =>
      have hroom' : s.state.liveWorkers < s.state.maximumPoolSize := by omega
      exact .grown rfl hroom' rfl
    | panicked message hrun hroom =>
      have hroom' : s.state.liveWorkers < s.state.maximumPoolSize := by omega
      exact .grown rfl hroom' rfl
  | configure a ha c t h =>
    cases h with
    | refused | written => exact .kept rfl le_rfl
  | shutdown | shutdownNow => exact .kept (List.length_map _) le_rfl
  | wait a k w hk hlive u hu o t h =>
    have hworkers : u.workers = s.workers := by rcases hu with rfl | rfl <;> rfl
    have hsame : u.state.liveWorkers = s.state.liveWorkers := by rcases hu with rfl | rfl <;> rfl
    refine .kept ?_ ?_
    · rw [Pool.length_workers_settleWait, ← hworkers]
      cases h with
      | takeGlobal | takeLocal | park => rfl
      | exit => exact Pool.length_workers_notifyTerminated _
    · rw [Pool.settleWait_state, ← hsame]
      cases h with
      | takeGlobal | takeLocal | park => exact le_rfl
      | exit =>
        rw [Pool.notifyTerminated_state]
        exact Nat.sub_le _ _
  | finish a k j hrunning =>
    refine .kept ?_ ?_
    · simp [Pool.record, Pool.setPhase]
    · simp [Pool.record, Pool.setPhase]
  | beside a s' hstate hqueues hworkers => exact .kept hworkers (by rw [hstate])

/-- **No worker leaves a running pool whose core it belongs to.** -/
theorem Move.core_le (hwf : Wf s) {a : Action Job} (h : Move s a s')
    (hrun : s.state.lifecycle = .running) (hallow : s.state.allowCoreThreadTimeout = false)
    (hleaves : s'.state.liveWorkers < s.state.liveWorkers) :
    s.state.corePoolSize ≤ s'.state.liveWorkers := by
  have hcore := hwf.sizes.core_le
  cases h with
  | submit job spawned hnew c t h =>
    have hle : s.state.liveWorkers ≤ t.state.liveWorkers := by
      cases h with
      | refused | notSpawned | takenBack | queuedGlobal | queuedLocal => exact le_rfl
      | handed | queuedFirst | lost | leftBehind => exact Nat.le_succ _
    exact absurd hleaves (Nat.not_lt.mpr hle)
  | prestart a ha spawned t h calls =>
    have hle : s.state.liveWorkers ≤ t.state.liveWorkers := by
      cases h with
      | refused | notStarted => exact le_rfl
      | started | panicked => exact Nat.le_succ _
    exact absurd hleaves (Nat.not_lt.mpr hle)
  | configure a ha c t h =>
    cases h with
    | refused | written => exact absurd hleaves (Nat.lt_irrefl _)
  | shutdown | shutdownNow => exact absurd hleaves (Nat.lt_irrefl _)
  | wait a k w hk hlive u hu o t h =>
    have hlive' : u.state.liveWorkers = s.state.liveWorkers := by rcases hu with rfl | rfl <;> rfl
    rw [Pool.settleWait_state] at hleaves ⊢
    cases h with
    | takeGlobal | takeLocal | park =>
      exact absurd hleaves (by simp [ThreadPoolState.claim, hlive'])
    | exit c q₁ q₂ hnil hwhy hqs =>
      have hwhy' : s.state.lifecycle ≠ .running ∨ s.state.idleWorkerCanRetire = true := by
        rcases hu with rfl | rfl
        · exact hwhy
        · exact hwhy
      -- a worker retires from above the maximum or from above the core
      have hretire := hwhy'.resolve_left (by simp [hrun])
      simp only [ThreadPoolState.idleWorkerCanRetire, ThreadPoolState.workerWaitIsTimed, hallow,
        Bool.false_or, Bool.or_false, Bool.and_self, Bool.or_eq_true, decide_eq_true_eq]
        at hretire
      rw [Pool.notifyTerminated_state]
      simp only [Pool.unregistered, hlive']
      omega
  | finish a k j hrunning =>
    exact absurd hleaves (by simp [Pool.record, Pool.setPhase])
  | beside a s' hstate => exact absurd hleaves (by simp [hstate])

section Envelope

variable [DecidableEq Job]

/-- Whether a step leaves the maximum where it is, or raises it. -/
def Action.keepsMaximum (s : Pool Job) (a : Action Job) : Bool :=
  (step s a).all fun s' => decide (s.state.maximumPoolSize ≤ s'.state.maximumPoolSize)

/-- **The envelope of the size of a pool.** In every state a run reaches: the maximum is
positive and the core fits into it; a setter that is refused changes nothing; a step that
creates a worker ends within the maximum; a step that ends above it although it started within
it has lowered it; from above the maximum the number of workers does not grow, over any number
of steps that start above it; and while the pool runs and core workers do not time out, no
step takes the number of workers below the core. In a run that never lowers the maximum the
number of workers never exceeds it. -/
theorem sizing_envelope (hs : (machine Job).Reach s) :
    (1 ≤ s.state.maximumPoolSize ∧ s.state.corePoolSize ≤ s.state.maximumPoolSize) ∧
    (∀ a s' error, a.isSetter = true → step s a = some s' →
      s'.calls = s.calls ++ [.returned (.setter (.error error))] →
      s' = s.addCall (.returned (.setter (.error error)))) ∧
    (∀ a s', step s a = some s' →
      (s.workers.length < s'.workers.length →
        s'.state.liveWorkers ≤ s'.state.maximumPoolSize) ∧
      (s.state.liveWorkers ≤ s.state.maximumPoolSize →
        s'.state.maximumPoolSize < s'.state.liveWorkers →
        s'.state.maximumPoolSize < s.state.maximumPoolSize) ∧
      (s.state.lifecycle = .running → s.state.allowCoreThreadTimeout = false →
        s'.state.liveWorkers < s.state.liveWorkers →
        s.state.corePoolSize ≤ s'.state.liveWorkers)) ∧
    (∀ t, Relation.ReflTransGen (fun t t' => t.state.maximumPoolSize < t.state.liveWorkers ∧
        ∃ a, step t a = some t') s t → t.state.liveWorkers ≤ s.state.liveWorkers) ∧
    ((machine Job).ReachVia (fun s a => a.keepsMaximum s = true) s →
      s.state.liveWorkers ≤ s.state.maximumPoolSize) := by
  have hwf := wf_of_reach hs
  refine ⟨⟨hwf.sizes.maximum_pos, hwf.sizes.core_le⟩, ?_, ?_, ?_, ?_⟩
  · -- a setter that fails has checked before it writes
    intro a s' error ha hstep hcalls
    rw [step, Action.worker?_of_isSetter ha] at hstep
    obtain ⟨c, t, hconf, rfl⟩ := callerStep_setter ha hstep
    cases hconf with
    | refused error' =>
      obtain ⟨-, hlast⟩ := List.append_inj' hcalls rfl
      rw [(List.cons.inj hlast).1]
    | written =>
      obtain ⟨-, hlast⟩ := List.append_inj' hcalls rfl
      exact absurd (List.cons.inj hlast).1 (by simp)
  · intro a s' hstep
    have hmove := step_move hwf hstep
    refine ⟨fun hcreated => ?_, (hmove.staffing hwf).maximum_lt, hmove.core_le hwf⟩
    cases hmove.staffing hwf with
    | kept hworkers hlive => omega
    | grown hlive hmax hsame => exact hsame ▸ hmax
  · -- where there are too many workers, no step makes one more
    intro t hpath
    have hboth : (machine Job).Reach t ∧ t.state.liveWorkers ≤ s.state.liveWorkers := by
      induction hpath with
      | refl => exact ⟨hs, le_rfl⟩
      | tail _ hlast ih =>
        obtain ⟨hexceeds, a, hstep⟩ := hlast
        have hstaffing := (step_move (wf_of_reach ih.1) hstep).staffing (wf_of_reach ih.1)
        exact ⟨.next ih.1 trivial hstep, (hstaffing.liveWorkers_le hexceeds).trans ih.2⟩
    exact hboth.2
  · -- only where the maximum is lowered are there suddenly too many
    intro hkeeps
    refine hkeeps.invariant (I := fun s => s.state.liveWorkers ≤ s.state.maximumPoolSize) ?_ ?_
    · rintro s ⟨b, hb⟩
      obtain ⟨-, rfl | rfl⟩ := build_eq_ok hb
      · exact Nat.zero_le _
      · exact Nat.zero_le _
    · intro s a s' hr hle hok hstep
      by_contra hexceeds
      have hlowered := ((step_move (wf_of_reach hr) hstep).staffing (wf_of_reach hr)).maximum_lt
        hle (Nat.not_le.mp hexceeds)
      rw [Action.keepsMaximum, show step s a = some s' from hstep, Option.all_some,
        decide_eq_true_eq] at hok
      omega

end Envelope

/-- The maximum of a pool of two was lowered to one: there are more workers than that, and the
one that has finished its job leaves, but not below the core. -/
theorem sizing_envelope_lowered :
    ∃ s s' : Pool ℕ, s.state.maximumPoolSize < s.state.liveWorkers ∧
      step s (.waitForJob 0) = some s' ∧ s'.state.liveWorkers < s.state.liveWorkers ∧
      s.state.corePoolSize = 1 ∧ s.state.corePoolSize ≤ s'.state.liveWorkers := by
  obtain ⟨s, hs, hp⟩ := Machine.exists_reachVia_of_exec (fun _ _ => True) (fun _ _ => true)
    (fun _ _ _ => trivial) (machine_init_ofSize ℕ 1)
    [.submit 0 .ok, .submit 1 .ok, .setCorePoolSize 1, .setMaximumPoolSize 1,
      .invokeRun 0, .runReturns 0, .finishRunningJob 0]
    (fun s => s.state.lifecycle.isRunning && !s.state.allowCoreThreadTimeout &&
      decide (s.state.maximumPoolSize < s.state.liveWorkers) && s.state.corePoolSize == 1 &&
      (step s (.waitForJob 0)).any fun s' => decide (s'.state.liveWorkers < s.state.liveWorkers))
    (by decide)
  simp only [Bool.and_eq_true, Bool.not_eq_true', ThreadPoolLifecycle.isRunning_eq_true,
    decide_eq_true_eq, beq_iff_eq, Option.any_eq_true] at hp
  obtain ⟨⟨⟨⟨hrun, hallow⟩, hexceeds⟩, hcore⟩, s', hstep, hleaves⟩ := hp
  exact ⟨s, s', hexceeds, hstep, hleaves, hcore,
    ((sizing_envelope hs).2.2.1 _ s' hstep).2.2 hrun hallow hleaves⟩

/-! ### Who may sleep -/

/-- Whether the worker is in the wait set without a timeout. -/
def WorkerPhase.sleepsUntimed : WorkerPhase Job → Bool
  | waiting none none => true
  | _ => false

/-- Whether the call is a setter that has written its value and not notified yet. -/
def Call.isSetterNotify : Call Job → Bool
  | setterNotify => true
  | _ => false

@[simp] theorem WorkerPhase.sleepsUntimed_wake (p : WorkerPhase Job) :
    p.wake.sleepsUntimed = false := by
  cases p with
  | waiting timeout wake => cases wake <;> cases timeout <;> rfl
  | _ => rfl

@[simp] theorem Call.isSetterNotify_wake (c : Call Job) :
    c.wake.isSetterNotify = c.isSetterNotify := by
  cases c <;> rfl

/-- Who sleeps without a timeout sleeps. -/
theorem WorkerPhase.isParked_of_sleepsUntimed {p : WorkerPhase Job}
    (h : p.sleepsUntimed = true) : p.isParked = true := by
  cases p with
  | waiting timeout wake => cases wake <;> cases timeout <;> simp [sleepsUntimed, isParked] at h ⊢
  | _ => exact absurd h (by simp [sleepsUntimed])

/-- Whether no setter is between its write and its notification. -/
def Pool.settersDone (s : Pool Job) : Bool := s.calls.all fun c => !c.isSetterNotify

/-- **Who may sleep**, as far as the current limits go. -/
structure Rested (s : Pool Job) : Prop where
  /-- No more workers sleep without a timeout than belong to the core. -/
  untimed : s.countWorkers WorkerPhase.sleepsUntimed ≤ s.state.corePoolSize
  /-- None does where core workers may retire too. -/
  allowed : s.state.allowCoreThreadTimeout = true →
    s.countWorkers WorkerPhase.sleepsUntimed = 0
  /-- Nobody sleeps at all while there are more workers than the maximum. -/
  excess : s.state.maximumPoolSize < s.state.liveWorkers → s.countWorkers WorkerPhase.isParked = 0

/-- A running pool with no setter under way is rested. -/
def Settled (s : Pool Job) : Prop :=
  s.state.lifecycle = .running → s.settersDone = true → Rested s

namespace Settled

/-- A new call leaves the setters under way where they are. -/
theorem settersDone_of_append {t : Pool Job} {c : Call Job} (ht : t.calls = s.calls ++ [c])
    (h : t.settersDone = true) : s.settersDone = true := by
  rw [Pool.settersDone, ht, List.all_append, Bool.and_eq_true] at h
  exact h.1

/-- A call that is no setter moves on. -/
theorem settersDone_of_replace {t : Pool Job} {c₁ c₂ : List (Call Job)} {c c' : Call Job}
    (hs : s.calls = c₁ ++ c :: c₂) (ht : t.calls = c₁ ++ c' :: c₂)
    (hc : c.isSetterNotify = false) (h : t.settersDone = true) : s.settersDone = true := by
  simp only [Pool.settersDone, ht, List.all_append, List.all_cons, Bool.and_eq_true] at h
  simp [Pool.settersDone, hs, h.1, h.2.2, hc]

/-- **The limits do not get tighter, and nobody goes to sleep.** -/
theorem of_looser (h : Settled s) {t : Pool Job}
    (hlife : t.state.lifecycle = .running → s.state.lifecycle = .running)
    (hcalls : t.settersDone = true → s.settersDone = true)
    (huntimed : t.countWorkers WorkerPhase.sleepsUntimed ≤
      s.countWorkers WorkerPhase.sleepsUntimed)
    (hparked : t.countWorkers WorkerPhase.isParked ≤ s.countWorkers WorkerPhase.isParked)
    (hcore : t.state.corePoolSize = s.state.corePoolSize)
    (hallow : t.state.allowCoreThreadTimeout = s.state.allowCoreThreadTimeout)
    (hexcess : t.state.maximumPoolSize < t.state.liveWorkers →
      s.state.maximumPoolSize < s.state.liveWorkers) : Settled t := by
  intro hrun hdone
  obtain ⟨h₁, h₂, h₃⟩ := h (hlife hrun) (hcalls hdone)
  refine ⟨by omega, fun hallowed => ?_, fun hmore => ?_⟩
  · have := h₂ (hallow ▸ hallowed)
    omega
  · have := h₃ (hexcess hmore)
    omega

/-- Only calls and the ledger, or what no limit depends on, have changed. -/
theorem of_calls (h : Settled s) {t : Pool Job} (hworkers : t.workers = s.workers)
    (hlife : t.state.lifecycle = .running → s.state.lifecycle = .running)
    (hcore : t.state.corePoolSize = s.state.corePoolSize)
    (hallow : t.state.allowCoreThreadTimeout = s.state.allowCoreThreadTimeout)
    (hmax : t.state.maximumPoolSize = s.state.maximumPoolSize)
    (hlive : t.state.liveWorkers = s.state.liveWorkers)
    (hcalls : t.settersDone = true → s.settersDone = true) : Settled t := by
  refine h.of_looser hlife hcalls ?_ ?_ hcore hallow (by omega)
  · rw [Pool.countWorkers, Pool.countWorkers, hworkers]
  · rw [Pool.countWorkers, Pool.countWorkers, hworkers]

/-- A worker moves on and does not sleep. -/
theorem of_move (h : Settled s) {t : Pool Job} {l₁ l₂ : List (Worker Job)} {w : Worker Job}
    {p : WorkerPhase Job} (hw : s.workers = l₁ ++ w :: l₂)
    (ht : t.workers = l₁ ++ { w with phase := p } :: l₂) (hp : p.isParked = false)
    (hlife : t.state.lifecycle = s.state.lifecycle) (hcalls : t.calls = s.calls)
    (hcore : t.state.corePoolSize = s.state.corePoolSize)
    (hallow : t.state.allowCoreThreadTimeout = s.state.allowCoreThreadTimeout)
    (hmax : t.state.maximumPoolSize = s.state.maximumPoolSize)
    (hlive : t.state.liveWorkers ≤ s.state.liveWorkers) : Settled t := by
  have huntimed : p.sleepsUntimed = false := by
    cases hu : p.sleepsUntimed with
    | false => rfl
    | true => exact absurd (WorkerPhase.isParked_of_sleepsUntimed hu) (by simp [hp])
  refine h.of_looser (by rw [hlife]; exact id) ?_ ?_ ?_ hcore hallow (by omega)
  · rw [Pool.settersDone, hcalls]
    exact id
  · have hcount := Pool.countWorkers_move WorkerPhase.sleepsUntimed hw ht
    rw [huntimed, Bool.toNat_false] at hcount
    omega
  · have hcount := Pool.countWorkers_move WorkerPhase.isParked hw ht
    rw [hp, Bool.toNat_false] at hcount
    omega

/-- A worker thread was created within the maximum. -/
theorem spawned (h : Settled s) (firstTask : Option Job)
    (hroom : s.state.liveWorkers < s.state.maximumPoolSize) : Settled (s.spawned firstTask) := by
  refine h.of_looser id id ?_ ?_ rfl rfl ?_
  · cases firstTask <;> simp [Pool.spawned, Pool.countWorkers, WorkerPhase.sleepsUntimed]
  · cases firstTask <;> simp [Pool.spawned, Pool.countWorkers, WorkerPhase.isParked]
  · simp only [Pool.spawned]
    omega

/-- Creating a worker thread has panicked within the maximum. -/
theorem stillborn (h : Settled s) (firstTask : Option Job)
    (hroom : s.state.liveWorkers < s.state.maximumPoolSize) : Settled (s.stillborn firstTask) := by
  refine h.of_looser id id ?_ ?_ rfl rfl ?_
  · simp [Pool.stillborn, Pool.countWorkers, WorkerPhase.sleepsUntimed]
  · simp [Pool.stillborn, Pool.countWorkers, WorkerPhase.isParked]
  · simp only [Pool.stillborn, Pool.spawned]
    omega

/-- Waking everybody up leaves nobody asleep. -/
theorem wakeAll (h : Settled s) : Settled s.wakeAll := by
  refine h.of_looser id ?_ ?_ ?_ rfl rfl id
  · simp [Pool.settersDone]
  · simp [Pool.countWorkers, Function.comp_def]
  · simp [Pool.countWorkers, Function.comp_def]

/-- Whoever sleeps without a timeout is live. -/
theorem untimed_le_live (s : Pool Job) :
    s.countWorkers WorkerPhase.sleepsUntimed ≤ s.countWorkers WorkerPhase.isLive := by
  refine List.countP_mono_left fun w _ hw => ?_
  have hparked := WorkerPhase.isParked_of_sleepsUntimed hw
  revert hparked
  cases w.phase <;> simp [WorkerPhase.isParked, WorkerPhase.isLive]

/-- **A worker parks with a timeout, or there is room for it in the core.** -/
theorem park (hwf : Wf s) (h : Settled s) {t : Pool Job} {l₁ l₂ : List (Worker Job)}
    {w : Worker Job} (hw : s.workers = l₁ ++ w :: l₂) (hp : w.phase = .ready)
    (hmax : s.state.liveWorkers ≤ s.state.maximumPoolSize)
    (ht : t.workers = l₁ ++ { w with phase := .waiting s.state.waitTimeout none } :: l₂)
    (hstate : t.state = { s.state with idleWorkers := s.state.idleWorkers + 1 })
    (hcalls : t.calls = s.calls) : Settled t := by
  intro hrun hdone
  rw [hstate] at hrun
  rw [Pool.settersDone, hcalls] at hdone
  obtain ⟨h₁, h₂, -⟩ := h hrun hdone
  have hcount := Pool.countWorkers_move WorkerPhase.sleepsUntimed hw ht
  -- a timed wait adds nobody to those who sleep without a timeout
  have htimed : s.state.workerWaitIsTimed = true → t.countWorkers WorkerPhase.sleepsUntimed =
      s.countWorkers WorkerPhase.sleepsUntimed := by
    intro htimed
    simpa [hp, ThreadPoolState.waitTimeout, htimed, WorkerPhase.sleepsUntimed] using hcount
  refine ⟨?_, fun hallowed => ?_, fun hmore => ?_⟩
  · rw [hstate]
    by_cases hkind : s.state.workerWaitIsTimed = true
    · rw [htimed hkind]
      exact h₁
    · -- whoever sleeps is live, and the live workers fit into the core
      have hcore : s.state.liveWorkers ≤ s.state.corePoolSize := by
        simp only [ThreadPoolState.workerWaitIsTimed, Bool.or_eq_true, decide_eq_true_eq,
          not_or] at hkind
        omega
      have hlive := Pool.countWorkers_move WorkerPhase.isLive hw ht
      rw [hp] at hlive
      calc t.countWorkers WorkerPhase.sleepsUntimed
          ≤ t.countWorkers WorkerPhase.isLive := untimed_le_live t
        _ = s.countWorkers WorkerPhase.isLive := Nat.add_right_cancel hlive
        _ = s.state.liveWorkers := hwf.live.symm
        _ ≤ s.state.corePoolSize := hcore
  · rw [hstate] at hallowed
    rw [htimed (by simp [ThreadPoolState.workerWaitIsTimed, show
      s.state.allowCoreThreadTimeout = true from hallowed])]
    exact h₂ hallowed
  · rw [hstate] at hmore
    exact absurd hmore (Nat.not_lt.mpr hmax)

/-- **Effects keep a pool settled.** -/
theorem effect (hwf : Wf s) (h : Settled s) (he : Effect m s s') : Settled s' := by
  have hcore := hwf.sizes.core_le
  have hpos := hwf.sizes.maximum_pos
  -- a call that is no setter under way
  have hquiet : ∀ {c : Call Job}, c.isQuiet = true → c.isSetterNotify = false := by
    intro c hc
    cases c with
    | setterNotify => exact absurd hc (by simp [Call.isQuiet])
    | _ => rfl
  cases he with
  | call => exact h.of_calls rfl id rfl rfl rfl rfl (settersDone_of_append rfl)
  | callMoves c₁ c₂ c c' hcalls hc =>
    exact h.of_calls rfl id rfl rfl rfl rfl (settersDone_of_replace hcalls rfl (hquiet hc))
  | configure =>
    -- the setter has not notified yet
    intro _ hdone
    exact absurd hdone (by simp [Pool.settersDone, Call.isSetterNotify])
  | setterDone c₁ c₂ hcalls hparked =>
    have hnobody : s.countWorkers WorkerPhase.isParked = 0 := by
      simp only [Pool.noneParked, Bool.and_eq_true, List.all_eq_true, Bool.not_eq_true']
        at hparked
      exact List.countP_eq_zero.mpr fun w hw => by simp [hparked.1 w hw]
    have hnone : s.countWorkers WorkerPhase.sleepsUntimed = 0 := by
      refine Nat.eq_zero_of_le_zero (le_trans ?_ hnobody.le)
      exact List.countP_mono_left fun w _ hw => WorkerPhase.isParked_of_sleepsUntimed hw
    intro _ _
    exact ⟨le_trans hnone.le (Nat.zero_le _), fun _ => hnone, fun _ => hnobody⟩
  | reject => exact h.of_calls rfl id rfl rfl rfl rfl (settersDone_of_append rfl)
  | rollback => exact h.of_calls rfl id rfl rfl rfl rfl (settersDone_of_append rfl)
  | rollbackInvoked c₁ c₂ job error hcalls =>
    exact h.of_calls rfl id rfl rfl rfl rfl (settersDone_of_replace hcalls rfl rfl)
  | rollbackReturned c₁ c₂ job error hcalls =>
    exact h.of_calls rfl id rfl rfl rfl rfl (settersDone_of_replace hcalls rfl rfl)
  | rollbackUnwound c₁ c₂ job error message hcalls =>
    exact h.of_calls rfl id rfl rfl rfl rfl (settersDone_of_replace hcalls rfl rfl)
  | spawnIdle hrun hroom => exact h.spawned none (by omega)
  | spawnFor job hnew hrun hroom =>
    exact (h.spawned (some job) (by omega)).of_calls rfl id rfl rfl rfl rfl
      (settersDone_of_append rfl)
  | spawnPanics firstTask _ _ hroom => exact h.stillborn firstTask (by omega)
  | enqueueGlobal => exact h.of_calls rfl id rfl rfl rfl rfl (settersDone_of_append rfl)
  | enqueueLocal => exact h.of_calls rfl id rfl rfl rfl rfl (settersDone_of_append rfl)
  | notifyDone c₁ c₂ hcalls =>
    exact h.of_calls rfl id rfl rfl rfl rfl (settersDone_of_replace hcalls rfl rfl)
  | wakeWorker l₁ l₂ w hw => exact h.of_move hw rfl rfl rfl rfl rfl rfl rfl le_rfl
  | wakeCaller c₁ c₂ hcalls =>
    exact h.of_calls rfl id rfl rfl rfl rfl (settersDone_of_replace hcalls rfl rfl)
  | wakeAll => exact h.wakeAll
  | claimGlobal l₁ l₂ w hw => exact h.of_move hw rfl rfl rfl rfl rfl rfl rfl le_rfl
  | claimLocal l₁ l₂ w hw => exact h.of_move hw rfl rfl rfl rfl rfl rfl rfl le_rfl
  | park l₁ l₂ w hw hp hrun hnil hmax => exact h.park hwf hw hp hmax rfl rfl rfl
  | unpark l₁ l₂ w hw => exact h.of_move hw rfl rfl rfl rfl rfl rfl rfl le_rfl
  | exit hm l₁ l₂ w hw =>
    refine Pool.notifyTerminated_of (I := Settled) (fun _ => wakeAll) ?_
    exact h.of_move hw rfl rfl rfl rfl rfl rfl rfl (Nat.sub_le _ _)
  | invokeRun l₁ l₂ w hw => exact h.of_move hw rfl rfl rfl rfl rfl rfl rfl le_rfl
  | runReturns l₁ l₂ w hw => exact h.of_move hw rfl rfl rfl rfl rfl rfl rfl le_rfl
  | finish l₁ l₂ w hw =>
    refine Pool.notifyTerminated_of (I := Settled) (fun _ => wakeAll) ?_
    exact h.of_move hw rfl rfl rfl rfl rfl rfl rfl le_rfl
  | shutdown =>
    refine h.of_calls rfl (fun hrun => ?_) rfl rfl rfl rfl (settersDone_of_append rfl)
    by_contra hstopped
    simp [hstopped] at hrun
  | drain =>
    exact h.of_calls rfl (fun hrun => absurd hrun (by simp [Pool.drain])) rfl rfl rfl rfl
      (settersDone_of_append rfl)
  | cancelInvoked c₁ c₂ job jobs report hcalls =>
    exact h.of_calls rfl id rfl rfl rfl rfl (settersDone_of_replace hcalls rfl rfl)
  | cancelReturned c₁ c₂ job jobs report hcalls =>
    exact h.of_calls rfl id rfl rfl rfl rfl (settersDone_of_replace hcalls rfl rfl)
  | cancelUnwound c₁ c₂ job jobs report message hcalls =>
    exact h.of_calls rfl id rfl rfl rfl rfl (settersDone_of_replace hcalls rfl rfl)
  | shutdownNowReturned c₁ c₂ report hcalls =>
    exact h.of_calls rfl id rfl rfl rfl rfl (settersDone_of_replace hcalls rfl rfl)
  | parkCaller => exact h.of_calls rfl id rfl rfl rfl rfl (settersDone_of_append rfl)
  | reparkCaller c₁ c₂ hcalls =>
    exact h.of_calls rfl id rfl rfl rfl rfl (settersDone_of_replace hcalls rfl rfl)
  | callerReturns c₁ c₂ hcalls =>
    exact h.of_calls rfl id rfl rfl rfl rfl (settersDone_of_replace hcalls rfl rfl)
  | unwind l₁ l₂ w hw => exact h.of_move hw rfl rfl rfl rfl rfl rfl rfl le_rfl
  | finishPanics l₁ l₂ w hw => exact h.of_move hw rfl rfl rfl rfl rfl rfl rfl le_rfl
  | skipIndex | moveCursor | dropRunning => exact h.of_calls rfl id rfl rfl rfl rfl id

/-- Nobody sleeps in a pool that was just built. -/
theorem of_build {b : ThreadPoolBuilder} (hb : build b = .ok s) : Settled s := by
  obtain ⟨-, rfl | rfl⟩ := build_eq_ok hb
  · exact fun _ _ => ⟨Nat.zero_le _, fun _ => rfl, fun _ => rfl⟩
  · exact fun _ _ => ⟨Nat.zero_le _, fun _ => rfl, fun _ => rfl⟩

end Settled

/-! ### Who may leave -/

/-- A worker that comes to `wait_for_job` with nothing to do, while there are more workers than
the maximum, leaves. -/
theorem Waited.leaves {i : ℕ} {o : WaitOutcome Job} (h : Waited s i o s') (hnil : s.queuedJobs = [])
    (hexceeds : s.state.maximumPoolSize < s.state.liveWorkers) :
    s'.state.liveWorkers + 1 = s.state.liveWorkers := by
  cases h with
  | takeGlobal c j js hlife hq =>
    rw [Pool.queuedJobs, hq] at hnil
    exact absurd hnil (by simp)
  | takeLocal c v j js l₁ l₂ hlife hqs =>
    rw [Pool.queuedJobs, hqs] at hnil
    exact absurd hnil (by simp)
  | park c hrun hnil hmax => exact absurd hexceeds (Nat.not_lt.mpr hmax)
  | exit =>
    rw [Pool.notifyTerminated_state]
    simp only [Pool.unregistered]
    omega

section Leaving

variable [DecidableEq Job]

/-- A worker that is about to look for a job finds none, and that there are more workers than
the maximum: it leaves. -/
theorem step_waitForJob_leaves (hwf : Wf s) {k : ℕ} {w : Worker Job} (hk : s.workers[k]? = some w)
    (hp : w.phase = .ready) (hqueued : s.state.queuedTasks = 0)
    (hexceeds : s.state.maximumPoolSize < s.state.liveWorkers) :
    ∃ s', step s (.waitForJob k) = some s' ∧
      s'.state.liveWorkers + 1 = s.state.liveWorkers := by
  have hmem : w ∈ s.workers := List.mem_of_getElem? hk
  have hlive : w.phase.isLive = true := by rw [hp]; rfl
  have hnil : s.queuedJobs = [] := List.eq_nil_of_length_eq_zero (hwf.queued ▸ hqueued)
  obtain ⟨o, t, hrun, hwait⟩ :=
    waitForJob_run (hwf.queuesOk hmem hlive) (hwf.live_pos hmem hlive) hwf.stopped
  refine ⟨t.settleWait k o, ?_, ?_⟩
  · simp [step, Action.worker?, hk, hp, workerStep, workerCritical, hrun]
  · rw [Pool.settleWait_state]
    exact hwait.leaves hnil hexceeds

/-- A worker whose timed wait has run out finds no job, and that it is not needed: it
leaves. -/
theorem step_resumeWorker_leaves (hwf : Wf s) {k : ℕ} {w : Worker Job}
    (hk : s.workers[k]? = some w) {d : Duration}
    (hp : w.phase = .waiting (some d) (some .timedOut)) (hqueued : s.state.queuedTasks = 0)
    (hretire : s.state.idleWorkerCanRetire = true) :
    ∃ s', step s (.resumeWorker k) = some s' ∧
      s'.state.liveWorkers + 1 = s.state.liveWorkers := by
  have hmem : w ∈ s.workers := List.mem_of_getElem? hk
  have hlive : w.phase.isLive = true := by rw [hp]; rfl
  have hidle : w.phase.isWaiting = true := by rw [hp]; rfl
  have hpos := hwf.live_pos hmem hlive
  have hretires : s.state.Retires (some d) .timedOut := ⟨rfl, rfl, hqueued, hretire⟩
  obtain ⟨l₁, l₂, -, -, hrun⟩ := resumeFromWait_run_retire (hwf.queuesOk hmem hlive) hpos
    (hwf.idle_pos hmem hidle) hretires
  refine ⟨_, by simp [step, Action.worker?, hk, hp, workerStep, workerCritical, hrun]; rfl, ?_⟩
  rw [Pool.settleWait_state, Pool.notifyTerminated_state]
  simp only [Pool.unregistered, Pool.unparked]
  omega

/-- **Workers above the limits do not sleep for good.** In every state a run reaches in which
the pool runs and no setter is between its write and its notification: no more workers are
parked without a timeout than belong to the core, and none is where core workers may retire;
and nobody is parked at all while there are more workers than the maximum. A worker above the
limits who finds nothing to do leaves: at its next look for a job if there are more than the
maximum, and at the end of its timed wait if there are more than the core. -/
theorem excess_workers_do_not_sleep (hs : (machine Job).Reach s)
    (hrun : s.state.lifecycle = .running) (hsetters : ∀ c ∈ s.calls, c ≠ .setterNotify) :
    (s.countWorkers WorkerPhase.sleepsUntimed ≤ s.state.corePoolSize ∧
      (s.state.allowCoreThreadTimeout = true →
        s.countWorkers WorkerPhase.sleepsUntimed = 0)) ∧
    (s.state.maximumPoolSize < s.state.liveWorkers →
      ∀ w ∈ s.workers, w.phase.isParked = false) ∧
    ∀ (k : ℕ) w, s.workers[k]? = some w → s.state.queuedTasks = 0 →
      (w.phase = .ready → s.state.maximumPoolSize < s.state.liveWorkers →
        ∃ s', step s (.waitForJob k) = some s' ∧
          s'.state.liveWorkers + 1 = s.state.liveWorkers) ∧
      ∀ d, w.phase = .waiting (some d) (some .timedOut) →
        s.state.corePoolSize < s.state.liveWorkers ∨ s.state.allowCoreThreadTimeout = true →
        ∃ s', step s (.resumeWorker k) = some s' ∧
          s'.state.liveWorkers + 1 = s.state.liveWorkers := by
  have hwf := wf_of_reach hs
  have hsettled : Settled s := reach_invariant (m := Mode.any) (fun _ _ _ _ => Permitted.any)
    (fun _ _ => Settled.of_build) (fun _ _ hwf h he => h.effect hwf he) hs
  have hdone : s.settersDone = true := by
    refine List.all_eq_true.mpr fun c hc => ?_
    have hne := hsetters c hc
    cases c with
    | setterNotify => exact absurd rfl hne
    | _ => rfl
  have hrested := hsettled hrun hdone
  refine ⟨⟨hrested.untimed, hrested.allowed⟩, fun hexceeds w hw => ?_,
    fun k w hk hqueued => ⟨fun hp hexceeds => ?_, fun d hp hlimit => ?_⟩⟩
  · exact Bool.eq_false_iff.mpr (List.countP_eq_zero.mp (hrested.excess hexceeds) w hw)
  · exact step_waitForJob_leaves hwf hk hp hqueued hexceeds
  · refine step_resumeWorker_leaves hwf hk hp hqueued ?_
    rcases hlimit with hcore | hallow
    · simp [ThreadPoolState.idleWorkerCanRetire, ThreadPoolState.workerWaitIsTimed, hcore]
    · simp [ThreadPoolState.idleWorkerCanRetire, ThreadPoolState.workerWaitIsTimed, hallow]

end Leaving

/-- Two workers of a core of two are asleep without a timeout. The maximum and the core are
lowered to one, everybody is told, and nobody is asleep any more. -/
theorem excess_workers_do_not_sleep_lowered :
    ∃ s : Pool ℕ, s.state.maximumPoolSize < s.state.liveWorkers ∧ s.state.liveWorkers = 2 ∧
      ∀ w ∈ s.workers, w.phase.isParked = false := by
  obtain ⟨s, hs, hp⟩ := Machine.exists_reachVia_of_exec (fun _ _ => True) (fun _ _ => true)
    (fun _ _ _ => trivial) (machine_init_ofSize ℕ 1)
    [.prestartCoreThread .ok, .prestartCoreThread .ok, .waitForJob 0, .waitForJob 1,
      .setCorePoolSize 1, .setMaximumPoolSize 1, .notifySetter 2, .notifySetter 3]
    (fun s => s.state.lifecycle.isRunning && s.settersDone && s.state.liveWorkers == 2 &&
      decide (s.state.maximumPoolSize < s.state.liveWorkers)) (by decide)
  simp only [Bool.and_eq_true, ThreadPoolLifecycle.isRunning_eq_true, beq_iff_eq,
    decide_eq_true_eq] at hp
  obtain ⟨⟨⟨hrun, hdone⟩, hlive⟩, hexceeds⟩ := hp
  refine ⟨s, hexceeds, hlive, (excess_workers_do_not_sleep hs hrun ?_).2.1 hexceeds⟩
  rintro c hc rfl
  exact absurd (List.all_eq_true.mp hdone _ hc) (by simp [Call.isSetterNotify])

end ThreadPool

end QubitConcurrent
