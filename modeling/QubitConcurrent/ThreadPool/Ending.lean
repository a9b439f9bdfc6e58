import QubitConcurrent.Lib.History
import QubitConcurrent.ThreadPool.Wakeups

/-!
# How a pool ends

A pool is terminated when four things hold at once: it does not run any more, nothing is
queued, nothing is running and no worker is live. Different critical sections bring about
each of them, and any of the four may come last.

Two things are shown of that moment. **Nothing undoes it**: whatever is submitted,
prestarted, resized or woken up afterwards, the pool stays terminated
(`QubitConcurrent.ThreadPool.Effect.isTerminated`). And **it is noticed**: the critical
section that completes the conjunction is one that notifies everybody before it releases the
monitor, so nobody is parked in `wait_for_termination` on a terminated pool
(`QubitConcurrent.ThreadPool.termination_wakes_waiters`).
-/

namespace QubitConcurrent

namespace ThreadPool

variable {Job : Type} {m : Mode} {s s' : Pool Job}

/-! ### Nothing undoes termination -/

/-- Termination depends on the lifecycle and on three counters. -/
theorem ThreadPoolState.isTerminated_congr {st st' : ThreadPoolState Job}
    (hlife : st'.lifecycle = st.lifecycle) (hqueued : st'.queuedTasks = st.queuedTasks)
    (hrunning : st'.runningTasks = st.runningTasks) (hlive : st'.liveWorkers = st.liveWorkers) :
    st'.isTerminated = st.isTerminated := by
  rw [isTerminated, isTerminated, hlife, hqueued, hrunning, hlive]

/-- Nothing waits in a terminated pool. -/
theorem Wf.queuedJobs_of_isTerminated (h : Wf s) (hterm : s.state.isTerminated = true) :
    s.queuedJobs = [] := by
  obtain ⟨-, hqueued, -, -⟩ := ThreadPoolState.isTerminated_iff.mp hterm
  rw [h.queued] at hqueued
  exact List.eq_nil_of_length_eq_zero hqueued

/-- **Nothing that happens to a terminated pool undoes its termination.** -/
theorem Effect.isTerminated (hwf : Wf s) (hterm : s.state.isTerminated = true)
    (he : Effect m s s') : s'.state.isTerminated = true := by
  obtain ⟨hlife, hqueued, hrunning, hlive⟩ := ThreadPoolState.isTerminated_iff.mp hterm
  have hnil := hwf.queuedJobs_of_isTerminated hterm
  cases he with
  | spawnIdle hrun => exact absurd hrun hlife
  | spawnFor job hnew hrun => exact absurd hrun hlife
  | spawnPanics firstTask hm hrun => exact absurd hrun hlife
  | enqueueGlobal job c hc hnew hrun => exact absurd hrun hlife
  | enqueueLocal job hnew hrun => exact absurd hrun hlife
  | claimGlobal l₁ l₂ w hw hp j js hstop hq =>
    rw [Pool.queuedJobs, hq] at hnil
    exact absurd hnil (by simp)
  | claimLocal l₁ l₂ w hw hp q₁ q₂ v j js hstop hqs =>
    rw [Pool.queuedJobs, hqs] at hnil
    exact absurd hnil (by simp)
  | park l₁ l₂ w hw hp hrun => exact absurd hrun hlife
  | exit hm l₁ l₂ w hw hp =>
    -- a worker that leaves was live
    have hpos := hwf.live_pos (w := w) (by rw [hw]; simp) (by rw [hp]; rfl)
    omega
  | finish l₁ l₂ w hw j hp hpos => omega
  | shutdown =>
    simp only [if_neg hlife]
    exact hterm
  | drain =>
    refine ThreadPoolState.isTerminated_iff.mpr ⟨?_, rfl, hrunning, hlive⟩
    simp [Pool.drain]
  | dropRunning hm hpos => omega
  | _ => exact hterm

/-- What is not running does not accept anything, and never runs again. -/
theorem Effect.accepted_of_not_running (hlife : s.state.lifecycle ≠ .running)
    (he : Effect m s s') :
    s'.state.lifecycle ≠ .running ∧ s'.ledger.accepted = s.ledger.accepted := by
  cases he with
  | spawnIdle hrun => exact absurd hrun hlife
  | spawnFor job hnew hrun => exact absurd hrun hlife
  | spawnPanics firstTask hm hrun => exact absurd hrun hlife
  | enqueueGlobal job c hc hnew hrun => exact absurd hrun hlife
  | enqueueLocal job hnew hrun => exact absurd hrun hlife
  | exit => exact Pool.notifyTerminated_of (I := fun t => t.state.lifecycle ≠ .running ∧
      t.ledger.accepted = s.ledger.accepted) (fun _ h => h) ⟨hlife, rfl⟩
  | finish => exact Pool.notifyTerminated_of (I := fun t => t.state.lifecycle ≠ .running ∧
      t.ledger.accepted = s.ledger.accepted) (fun _ h => h) ⟨hlife, rfl⟩
  | shutdown =>
    refine ⟨?_, rfl⟩
    simp only [if_neg hlife]
    exact hlife
  | drain => exact ⟨by simp [Pool.drain], rfl⟩
  | _ => exact ⟨hlife, rfl⟩

section Step

variable [DecidableEq Job]

/-- A step keeps a pool terminated. -/
theorem isTerminated_step (hwf : Wf s) (hterm : s.state.isTerminated = true) {a : Action Job}
    (hstep : step s a = some s') : s'.state.isTerminated = true := by
  have hboth : Wf s' ∧ s'.state.isTerminated = true :=
    Machine.invariant_of_chain (I := fun t => Wf t ∧ t.state.isTerminated = true)
      (fun _ _ h he => ⟨h.1.effect he, he.isTerminated h.1 h.2⟩)
      (step_effects hwf Permitted.any hstep) ⟨hwf, hterm⟩
  exact hboth.2

/-- Once a pool has stopped running it never accepts anything again. -/
theorem accepted_step_of_not_running (hwf : Wf s) (hlife : s.state.lifecycle ≠ .running)
    {a : Action Job} (hstep : step s a = some s') :
    s'.state.lifecycle ≠ .running ∧ s'.ledger.accepted = s.ledger.accepted := by
  refine Machine.invariant_of_chain (I := fun t => t.state.lifecycle ≠ .running ∧
    t.ledger.accepted = s.ledger.accepted) (fun _ _ h he => ?_)
    (step_effects (m := Mode.any) hwf Permitted.any hstep) ⟨hlife, rfl⟩
  obtain ⟨hlife', hsame⟩ := he.accepted_of_not_running h.1
  exact ⟨hlife', hsame.trans h.2⟩

end Step

/-! ### Nobody is left parked -/

/-- A quiet call is not parked. -/
theorem Call.isParked_of_isQuiet {c : Call Job} (h : c.isQuiet = true) : c.isParked = false := by
  cases c with
  | waitForTermination woken => exact absurd h (by simp [isQuiet])
  | _ => rfl

/-- What `submit` leaves behind is not parked. -/
@[simp] theorem Call.isParked_enqueueCall (st : ThreadPoolState Job) :
    (st.enqueueCall).isParked = false := by
  rw [ThreadPoolState.enqueueCall]
  split_ifs <;> rfl

/-- No user is in the wait set. -/
def Pool.NoCallerParked (s : Pool Job) : Prop := ∀ c ∈ s.calls, c.isParked = false

namespace Pool.NoCallerParked

/-- A call that is not parked is made. -/
theorem of_append (h : s.NoCallerParked) {t : Pool Job} {c : Call Job}
    (ht : t.calls = s.calls ++ [c]) (hc : c.isParked = false) : t.NoCallerParked := by
  intro d hd
  rw [ht, List.mem_append, List.mem_singleton] at hd
  rcases hd with hd | rfl
  · exact h d hd
  · exact hc

/-- A call moves on without parking. -/
theorem of_replace (h : s.NoCallerParked) {t : Pool Job} {c₁ c₂ : List (Call Job)}
    {c c' : Call Job} (hs : s.calls = c₁ ++ c :: c₂) (ht : t.calls = c₁ ++ c' :: c₂)
    (hc : c'.isParked = false) : t.NoCallerParked := by
  intro d hd
  rw [ht] at hd
  rcases List.mem_append.mp hd with hd | hd
  · exact h d (by rw [hs]; exact List.mem_append_left _ hd)
  · rcases List.mem_cons.mp hd with rfl | hd
    · exact hc
    · exact h d (by rw [hs]; exact List.mem_append_right _ (List.mem_cons_of_mem _ hd))

/-- After waking everybody up, no user is parked. -/
theorem wakeAll (s : Pool Job) : s.wakeAll.NoCallerParked := by
  intro c hc
  obtain ⟨d, -, rfl⟩ := List.mem_map.mp hc
  exact Call.isParked_wake d

/-- **Nobody parks on a terminated pool.** -/
theorem effect (h : s.NoCallerParked) (hterm : s.state.isTerminated = true)
    (he : Effect m s s') : s'.NoCallerParked := by
  cases he with
  | call c hc => exact h.of_append rfl (Call.isParked_of_isQuiet hc)
  | callMoves c₁ c₂ c c' hcalls hc hc' =>
    exact h.of_replace hcalls rfl (Call.isParked_of_isQuiet hc')
  | configure => exact h.of_append rfl rfl
  | setterDone c₁ c₂ hcalls => exact h.of_replace hcalls rfl rfl
  | reject job c hc => exact h.of_append rfl (Call.isParked_of_isQuiet hc)
  | rollback => exact h.of_append rfl rfl
  | rollbackInvoked c₁ c₂ job error hcalls => exact h.of_replace hcalls rfl rfl
  | rollbackReturned c₁ c₂ job error hcalls => exact h.of_replace hcalls rfl rfl
  | rollbackUnwound c₁ c₂ job error message hcalls => exact h.of_replace hcalls rfl rfl
  | spawnFor => exact h.of_append rfl rfl
  | enqueueGlobal job c hc =>
    exact h.of_append rfl (hc.elim (fun heq => heq ▸ Call.isParked_enqueueCall _)
      fun h => Call.isParked_of_isQuiet h.1)
  | enqueueLocal => exact h.of_append rfl (Call.isParked_enqueueCall _)
  | notifyDone c₁ c₂ hcalls => exact h.of_replace hcalls rfl rfl
  | wakeCaller c₁ c₂ hcalls => exact h.of_replace hcalls rfl rfl
  | wakeAll => exact wakeAll s
  | exit => exact Pool.notifyTerminated_of (I := Pool.NoCallerParked) (fun t _ => wakeAll t) h
  | finish => exact Pool.notifyTerminated_of (I := Pool.NoCallerParked) (fun t _ => wakeAll t) h
  | shutdown => exact h.of_append rfl rfl
  | drain => exact h.of_append rfl rfl
  | cancelInvoked c₁ c₂ job jobs report hcalls => exact h.of_replace hcalls rfl rfl
  | cancelReturned c₁ c₂ job jobs report hcalls => exact h.of_replace hcalls rfl rfl
  | cancelUnwound c₁ c₂ job jobs report message hcalls => exact h.of_replace hcalls rfl rfl
  | shutdownNowReturned c₁ c₂ report hcalls => exact h.of_replace hcalls rfl rfl
  | parkCaller hup => exact absurd hterm (by simp [hup])
  | reparkCaller c₁ c₂ hcalls hup => exact absurd hterm (by simp [hup])
  | callerReturns c₁ c₂ hcalls => exact h.of_replace hcalls rfl rfl
  | _ => exact h

end Pool.NoCallerParked

/-- A pool that has become terminated notifies everybody. -/
theorem Pool.notifyTerminated_of_isTerminated (h : s.state.isTerminated = true) :
    s.notifyTerminated = s.wakeAll := by
  rw [notifyTerminated, if_pos h]

/-- The state behind the monitor does not change when threads are notified. -/
@[simp] theorem Pool.notifyTerminated_state (s : Pool Job) :
    s.notifyTerminated.state = s.state := by
  rw [notifyTerminated]
  split_ifs <;> rfl

/-- What somebody who has broadcast leaves behind: nobody in the wait set, and everybody who
was there before woken up. -/
structure Broadcast (s s' : Pool Job) : Prop where
  /-- Nobody is in the wait set. -/
  noneParked : s'.noneParked = true
  /-- The calls made before were reached. -/
  calls : s.calls.map Call.wake <+: s'.calls

/-- Notifying everybody and then making a call that is not parked is a broadcast. -/
theorem Broadcast.addCall {t : Pool Job} (hcalls : t.calls = s.calls) {c : Call Job}
    (hc : c.isParked = false) : Broadcast s (t.wakeAll.addCall c) where
  noneParked := by simp [Pool.addCall, Pool.noneParked, hc]
  calls := by
    rw [Pool.addCall, Pool.wakeAll_calls, hcalls]
    exact List.prefix_append _ _

/-- Notifying everybody is a broadcast. -/
theorem Broadcast.wakeAll {t : Pool Job} (hcalls : t.calls = s.calls) :
    Broadcast s t.wakeAll where
  noneParked := t.noneParked_wakeAll
  calls := by
    have heq : t.wakeAll.calls = s.calls.map Call.wake := by rw [Pool.wakeAll_calls, hcalls]
    exact heq ▸ List.prefix_rfl

/-- **The move that terminates a pool broadcasts.** -/
theorem Move.broadcast {a : Action Job} (h : Move s a s') (hup : s.state.isTerminated = false)
    (hterm : s'.state.isTerminated = true) : Broadcast s s' := by
  obtain ⟨hlife, hqueued, hrunning, hlive⟩ := ThreadPoolState.isTerminated_iff.mp hterm
  -- what leaves the four alone does not terminate the pool
  have hsame : s'.state.lifecycle = s.state.lifecycle →
      s'.state.queuedTasks = s.state.queuedTasks → s'.state.runningTasks = s.state.runningTasks →
      s'.state.liveWorkers = s.state.liveWorkers → Broadcast s s' := by
    intro h₁ h₂ h₃ h₄
    rw [ThreadPoolState.isTerminated_congr h₁ h₂ h₃ h₄, hup] at hterm
    exact absurd hterm (by simp)
  cases h with
  | submit job spawned hnew c t h =>
    cases h with
    | refused | notSpawned | takenBack => exact hsame rfl rfl rfl rfl
    | handed hrun | queuedFirst hrun | queuedGlobal hrun | queuedLocal hrun =>
      exact absurd hrun hlife
    | lost message hrun | leftBehind message hrun => exact absurd hrun hlife
  | prestart a ha spawned t h calls =>
    cases h with
    | refused => exact hsame rfl rfl rfl rfl
    | started hrun | notStarted source hrun | panicked message hrun => exact absurd hrun hlife
  | configure a ha c t h =>
    cases h with
    | refused | written => exact hsame rfl rfl rfl rfl
  | shutdown | shutdownNow =>
    refine .addCall ?_ ?_
    · rfl
    · rfl
  | wait a k w hk hlive u hu o t h =>
    have hcalls : u.calls = s.calls := by rcases hu with rfl | rfl <;> rfl
    rw [Pool.settleWait_state] at hterm hlife hrunning
    cases h with
    | takeGlobal | takeLocal =>
      -- the job in the worker's hands is counted
      exact absurd hrunning (Nat.succ_ne_zero _)
    | park c hrun => exact absurd hrun hlife
    | exit c q₁ q₂ hnil hwhy hqs =>
      rw [Pool.notifyTerminated_state] at hterm
      rw [Pool.settleWait, Pool.setPhase_notifyTerminated (p := .exited) _ rfl,
        Pool.notifyTerminated_of_isTerminated (by exact hterm)]
      exact .wakeAll hcalls
  | finish a k j hpos =>
    rw [Pool.setPhase_notifyTerminated (p := .ready) _ rfl, Pool.record_notifyTerminated] at hterm ⊢
    rw [Pool.notifyTerminated_state] at hterm
    rw [Pool.notifyTerminated_of_isTerminated hterm]
    exact .wakeAll rfl
  | beside a s' hstate =>
    exact hsame (by rw [hstate]) (by rw [hstate]) (by rw [hstate]) (by rw [hstate])

section Waiters

variable [DecidableEq Job]

/-- Whoever was told that the pool is terminated was told the truth. -/
theorem isTerminated_of_reported {ok : Pool Job → Action Job → Prop}
    (hs : (machine Job).ReachVia ok s) (hreported : s.reported = true) :
    s.state.isTerminated = true := by
  revert hreported
  refine hs.invariant (I := fun s => s.reported = true → s.state.isTerminated = true) ?_ ?_
  · rintro s ⟨b, hb⟩ hreported
    obtain ⟨-, rfl | rfl⟩ := build_eq_ok hb
    · exact absurd hreported (by simp [Pool.reported, Pool.new])
    · exact absurd hreported (by simp [Pool.reported, Pool.new, Pool.addCall, Call.reportsEnd])
  · intro s a s' hr htrue _ hstep hreported
    have hwf := wf_of_reach hr
    refine isTerminated_step hwf ?_ hstep
    exact ((step_move hwf hstep).reported_of hreported).elim htrue id

/-- On a terminated pool no user is parked. -/
theorem noCallerParked_of_reach {ok : Pool Job → Action Job → Prop}
    (hs : (machine Job).ReachVia ok s) (hterm : s.state.isTerminated = true) :
    s.NoCallerParked := by
  revert hterm
  refine hs.invariant (I := fun s => s.state.isTerminated = true → s.NoCallerParked) ?_ ?_
  · rintro s ⟨b, hb⟩ -
    obtain ⟨-, rfl | rfl⟩ := build_eq_ok hb
    · simp [Pool.NoCallerParked, Pool.new]
    · simp [Pool.NoCallerParked, Pool.new, Pool.addCall, Call.isParked]
  · intro s a s' hr hparked _ hstep hterm
    have hwf := wf_of_reach hr
    by_cases hbefore : s.state.isTerminated = true
    · -- whoever comes to a terminated pool does not park
      have hall : Wf s' ∧ s'.state.isTerminated = true ∧ s'.NoCallerParked :=
        Machine.invariant_of_chain
          (I := fun t => Wf t ∧ t.state.isTerminated = true ∧ t.NoCallerParked)
          (fun _ _ h he => ⟨h.1.effect he, he.isTerminated h.1 h.2.1, h.2.2.effect h.2.1 he⟩)
          (step_effects (m := Mode.any) hwf Permitted.any hstep) ⟨hwf, hbefore, hparked hbefore⟩
      exact hall.2.2
    · have hnone := ((step_move hwf hstep).broadcast (by simpa using hbefore) hterm).noneParked
      simp only [Pool.noneParked, Bool.and_eq_true, List.all_eq_true, Bool.not_eq_true'] at hnone
      exact hnone.2

/-- **What a pool says once it has ended.** Where somebody was told that a pool is terminated –
`is_terminated` has answered `true`, or a `wait_for_termination` has returned – the pool is
terminated in every later state, and every later `is_terminated` answers `true`. Where the
pool has stopped running it accepts nothing from then on: a later `submit` is refused. -/
theorem ended_for_good (hs : (machine Job).Reach s) {t : Pool Job}
    (hlater : (machine Job).Later s t) :
    (s.reported = true → t.state.isTerminated = true ∧
      ∀ t', step t .isTerminated = some t' → t' = t.addCall (.returned (.isTerminated true))) ∧
    (s.state.lifecycle ≠ .running → t.ledger.accepted = s.ledger.accepted ∧
      ∀ job spawned t', step t (.submit job spawned) = some t' →
        t'.calls = t.calls ++ [.returned (.submit (.error .shutdown))]) := by
  refine ⟨fun hreported => ?_, fun hlife => ?_⟩
  · have hterm : t.state.isTerminated = true :=
      hlater.invariant (I := fun t => t.state.isTerminated = true) hs
        (fun _ _ _ hr h hstep => isTerminated_step (wf_of_reach hr) h hstep)
        (isTerminated_of_reported hs hreported)
    refine ⟨hterm, fun t' hstep => ?_⟩
    simp only [step, Action.worker?, callerStep, critical, isTerminated_run, hterm] at hstep
    exact (Option.some.inj hstep).symm
  · have hstopped : t.state.lifecycle ≠ .running ∧ t.ledger.accepted = s.ledger.accepted :=
      hlater.invariant (I := fun t => t.state.lifecycle ≠ .running ∧
        t.ledger.accepted = s.ledger.accepted) hs
        (fun _ _ _ hr h hstep =>
          (accepted_step_of_not_running (wf_of_reach hr) h.1 hstep).imp_right (·.trans h.2))
        ⟨hlife, rfl⟩
    refine ⟨hstopped.2, fun job spawned t' hstep => ?_⟩
    simp only [step, Action.worker?, callerStep] at hstep
    split_ifs at hstep
    rw [critical, submit_run_of_not_running job hstopped.1] at hstep
    obtain rfl := Option.some.inj hstep
    rfl

/-- **Whoever waits for the termination of a pool is woken up.** In every run of a pool, the
step that terminates it wakes everybody up before it releases the monitor: after it nobody is
in the wait set, and every `wait_for_termination` that was parked has been notified. So in no
state that is reached the pool is terminated and a `wait_for_termination` is parked. -/
theorem termination_wakes_waiters (hs : (machine Job).Reach s) :
    (∀ a s', step s a = some s' → s.state.isTerminated = false → s'.state.isTerminated = true →
      s'.noneParked = true ∧
        ∀ k : ℕ, s.calls[k]? = some (.waitForTermination false) →
          s'.calls[k]? = some (.waitForTermination true)) ∧
      (s.state.isTerminated = true → ∀ k : ℕ, s.calls[k]? ≠ some (.waitForTermination false)) := by
  refine ⟨fun a s' hstep hup hterm => ?_, fun hterm k hk => ?_⟩
  · have hbroadcast := (step_move (wf_of_reach hs) hstep).broadcast hup hterm
    refine ⟨hbroadcast.noneParked, fun k hk => ?_⟩
    have hlt : k < (s.calls.map Call.wake).length := by
      rw [List.length_map]
      exact (List.getElem?_eq_some_iff.mp hk).1
    obtain ⟨rest, hrest⟩ := hbroadcast.calls
    rw [← hrest, List.getElem?_append_left hlt]
    simp [hk, Call.wake]
  · exact absurd (noCallerParked_of_reach hs hterm _ (List.mem_of_getElem? hk)) (by
      simp [Call.isParked])

end Waiters

/-- The only worker of a pool that was shut down leaves, and the user who waits for the end of
the pool is notified. -/
theorem termination_wakes_waiters_last_exit :
    ∃ s s' : Pool ℕ, step s (.waitForJob 0) = some s' ∧ s'.state.isTerminated = true ∧
      s.calls[1]? = some (.waitForTermination false) ∧
      s'.calls[1]? = some (.waitForTermination true) := by
  obtain ⟨s, hs, hp⟩ := Machine.exists_reachVia_of_exec (fun _ _ => True) (fun _ _ => true)
    (fun _ _ _ => trivial) (machine_init_ofSize ℕ 0)
    [.submit 0 .ok, .invokeRun 0, .waitForTermination, .shutdown, .resumeCaller 1,
      .runReturns 0, .finishRunningJob 0]
    (fun s => !s.state.isTerminated && (s.calls[1]?).any Call.isParked &&
      (step s (.waitForJob 0)).any fun s' => s'.state.isTerminated) (by decide)
  simp only [Bool.and_eq_true, Bool.not_eq_true', Option.any_eq_true] at hp
  obtain ⟨⟨hup, c, hc, hparked⟩, s', hstep, hterm⟩ := hp
  rw [Call.eq_of_isParked hparked] at hc
  exact ⟨s, s', hstep, hterm, hc,
    ((termination_wakes_waiters hs).1 _ s' hstep hup hterm).2 1 hc⟩

end ThreadPool

end QubitConcurrent
