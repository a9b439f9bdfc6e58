import QubitConcurrent.FixedPool.Accounting
import QubitConcurrent.FixedPool.Waiters

/-!
# Waiting for the last submission

A `shutdown_now` waits until no submission is in flight. It looks at `inflight_submissions`
with the monitor, and waits if it finds one; the last submission lowers the counter and calls
`notify_all`, without taking the monitor. If it does so after the look and before the wait,
nobody is there to be notified, and the `shutdown_now` waits for something that has happened.

In a run in which this does not happen, some submission is in flight, or is about to notify,
as long as a `shutdown_now` waits (`QubitConcurrent.FixedPool.awaited_of_reach`).
-/

namespace QubitConcurrent

namespace FixedPool

/-! ### Who waits, and who is to notify -/

/-- Whether a submission is between its decrement and its `notify_all`. -/
def SubmitPhase.isAnnouncing : SubmitPhase → Bool
  | retreatAnnouncing | droppingLast _ | droppingAnnounce _ => true
  | _ => false

/-- Whether a submission is about to call `notify_all`. -/
def SubmitPhase.notifiesAll : SubmitPhase → Bool
  | retreatAnnouncing | droppingAnnounce _ => true
  | _ => false

/-- Whether a `shutdown_now` waits, or is about to. -/
def ShutdownNowPhase.isSleepy : ShutdownNowPhase → Bool
  | parking _ | parked _ => true
  | _ => false

namespace Thread

/-- Whether a thread is a submission between its decrement and its `notify_all`. -/
def isAnnouncing : Thread → Bool
  | submit _ q => q.isAnnouncing
  | _ => false

/-- Whether a thread is a submission about to call `notify_all`. -/
def notifiesAll : Thread → Bool
  | submit _ q => q.notifiesAll
  | _ => false

/-- Whether a thread is a `shutdown_now` between its look at `inflight_submissions` and its
wait. -/
def fallsAsleep : Thread → Bool
  | shutdownNow (.parking _) => true
  | _ => false

end Thread

namespace Pool

variable (p : Pool)

/-- A `shutdown_now` waits and was not notified, or is about to wait. -/
def Sleeps (k : ℕ) : Prop :=
  ∃ running, p.threads[k]? = some (Thread.shutdownNow (.parking running)) ∨
    (p.threads[k]? = some (Thread.shutdownNow (.parked running)) ∧ k ∈ p.inner.waiters)

/-- A `shutdown_now` waits for submissions in flight and was not notified, though none is in
flight, and none is about to notify. -/
def Overslept : Prop :=
  (∃ k running, p.threads[k]? = some (Thread.shutdownNow (.parked running)) ∧
    k ∈ p.inner.waiters) ∧
  p.inner.inflightSubmissions = 0 ∧ ∀ t ∈ p.threads, t.isAnnouncing = false

/-- While a `shutdown_now` waits, the gate is closed, and some submission is in flight or about
to notify. -/
def Awaited : Prop :=
  (∃ k, p.Sleeps k) → p.inner.accepting = false ∧
    (0 < p.inner.inflightSubmissions ∨ ∃ t ∈ p.threads, t.isAnnouncing = true)

end Pool

/-- No submission calls `notify_all` while a `shutdown_now` is about to wait. -/
def Action.Timely (p : Pool) : Action → Prop
  | .go k _ => (p.threads[k]?).any Thread.notifiesAll = true →
    ∀ t ∈ p.threads, t.fallsAsleep = false
  | _ => True

instance (p : Pool) : (a : Action) → Decidable (a.Timely p)
  | .go _ _ => inferInstanceAs (Decidable (_ → _))
  | .call _ | .wakeUp _ => .isTrue trivial

/-! ### One step -/

variable {p p' : Pool} {s s' : Inner} {k : ℕ} {c : Choice}

/-- After `drain_visible_queued_jobs` has found a queue empty it does not wait. -/
theorem ShutdownNowPhase.isSleepy_drainNext (running : ℕ) (jobs : List Job) (previous : ℕ)
    (place : Option Place) : (drainNext running jobs previous place).isSleepy = false := by
  cases place with
  | some place => rfl
  | none =>
    unfold drainNext
    split_ifs
    · cases jobs <;> rfl
    · rfl

/-- A `shutdown_now` is about to wait when it has found a submission in flight. -/
theorem ShutdownNowPhase.Turn.sleepy_cases {q q' : ShutdownNowPhase} (h : Turn s s' k q q') :
    q'.isSleepy = false ∨
      (∃ running, q = testing running ∧ q' = parking running ∧ 0 < s.inflightSubmissions) ∨
      ∃ running, q = parking running ∧ q' = parked running := by
  cases h with
  | wait running hinflight hs => exact Or.inr (Or.inl ⟨running, rfl, rfl, hinflight⟩)
  | park running hs => exact Or.inr (Or.inr ⟨running, rfl, rfl⟩)
  | drain _ _ _ _ hs =>
    rcases Inner.claim_cases hs with ⟨-, -, rfl⟩ | ⟨job, rest, -, -, rfl⟩
    · exact Or.inl (isSleepy_drainNext ..)
    · exact Or.inl rfl
  | _ => exact Or.inl rfl

/-- Whoever looks for a queue is in flight. -/
theorem SubmitPhase.isAnnouncing_of_isRouting {q : SubmitPhase} (h : q.isRouting = true) :
    q.isAnnouncing = false := by
  cases q with
  | counting | probing | probingActive | pushing => rfl
  | _ => cases h

/-- At the closed gate a submission leaves the counter above zero, or is about to notify, or
notifies; or it changes nothing about it. -/
theorem SubmitPhase.Turn.announcing_cases {q q' : SubmitPhase} {job : Job}
    (h : Turn s s' job c q q') (hclosed : s.accepting = false) :
    q'.isAnnouncing = true ∨ 0 < s'.inflightSubmissions ∨
      (q.notifiesAll = true ∧ s'.waiters = []) ∨
      (q.isAnnouncing = false ∧ s'.inflightSubmissions = s.inflightSubmissions) := by
  cases h with
  | enter hs =>
    subst hs
    exact Or.inr (Or.inl (Nat.succ_pos _))
  | retreatLast | dropLast | dropClosed => exact Or.inl rfl
  | retreat hne hs | drop _ hne hs =>
    subst hs
    rcases Nat.eq_zero_or_pos s.inflightSubmissions with hzero | hpos
    · exact Or.inr (Or.inr (Or.inr ⟨rfl, by simp [hzero]⟩))
    · exact Or.inr (Or.inl (by simp only; omega))
  | dropOpen _ hopen => exact absurd (hclosed.symm.trans hopen) Bool.false_ne_true
  | announce hs | dropAnnounce _ hs =>
    subst hs
    exact Or.inr (Or.inr (Or.inl ⟨rfl, rfl⟩))
  | route hq _ _ _ hs =>
    subst hs
    exact Or.inr (Or.inr (Or.inr ⟨isAnnouncing_of_isRouting hq, rfl⟩))
  | push place hs => exact Or.inr (Or.inr (Or.inr ⟨rfl, (Same.push hs).inflight⟩))
  | notify hs => exact Or.inr (Or.inr (Or.inr ⟨rfl, (Same.notifyOne hs).inflight⟩))
  | _ =>
    subst_vars
    exact Or.inr (Or.inr (Or.inr ⟨rfl, rfl⟩))

/-- At the closed gate: for any thread. -/
theorem Thread.announcing_cases {t t' : Thread} (h : t.advance s k c = some (s', t'))
    (hclosed : s.accepting = false) :
    t'.isAnnouncing = true ∨ 0 < s'.inflightSubmissions ∨
      (t.notifiesAll = true ∧ s'.waiters = []) ∨
      (t.isAnnouncing = false ∧ s'.inflightSubmissions = s.inflightSubmissions) := by
  cases Thread.goes h with
  | worker hq => exact Or.inr (Or.inr (Or.inr ⟨rfl, (WorkerPhase.same hq).inflight⟩))
  | submit hq => exact hq.announcing_cases hclosed
  | shutdown hq => exact Or.inr (Or.inr (Or.inr ⟨rfl, (ShutdownPhase.gate hq).1⟩))
  | shutdownNow hq => exact Or.inr (Or.inr (Or.inr ⟨rfl, hq.gate.1⟩))
  | termination hq => exact Or.inr (Or.inr (Or.inr ⟨rfl, (TerminationPhase.same hq).inflight⟩))

/-! ### Somebody is to notify -/

/-- A `shutdown_now` that waits after the step of another thread has waited before. -/
theorem Pool.Sleeps.of_go {t t' : Thread} {j : ℕ} (hadvance : t.advance p.inner k c = some (s', t'))
    (hne : k ≠ j) (h : Pool.Sleeps ⟨s', p.threads.set k t'⟩ j) : p.Sleeps j := by
  obtain ⟨running, h⟩ := h
  rw [List.getElem?_set_ne hne] at h
  refine ⟨running, h.imp id fun ⟨hparked, hwaits⟩ => ⟨hparked, ?_⟩⟩
  cases Thread.parking hadvance with
  | free _ hs => exact hs.subset hwaits
  | parks _ _ hs =>
    subst hs
    rcases List.mem_append.mp hwaits with hwaits | hwaits
    · exact hwaits
    · exact absurd (List.mem_singleton.mp hwaits).symm hne

/-- What is awaited when a thread moves is still to come. -/
theorem Pool.awaits_go {t t' : Thread} (hk : p.threads[k]? = some t)
    (hadvance : t.advance p.inner k c = some (s', t')) (hclosed : p.inner.accepting = false)
    (hawaited : 0 < p.inner.inflightSubmissions ∨ ∃ u ∈ p.threads, u.isAnnouncing = true)
    (hnot : t.notifiesAll = true → s'.waiters ≠ []) :
    0 < s'.inflightSubmissions ∨ ∃ u ∈ p.threads.set k t', u.isAnnouncing = true := by
  rcases Thread.announcing_cases hadvance hclosed with hnew | hpos | ⟨hnotifies, hnobody⟩ |
    ⟨hold, hsame⟩
  · exact Or.inr ⟨t', List.mem_of_getElem? (getElem?_set_of_some hk t'), hnew⟩
  · exact Or.inl hpos
  · exact absurd hnobody (hnot hnotifies)
  · refine hawaited.imp (fun hpos => hsame ▸ hpos) (exists_mem_set hk fun hannouncing => ?_)
    exact absurd (hold.symm.trans hannouncing) Bool.false_ne_true

/-- A step of a thread at the right time. -/
theorem Pool.Awaited.go {t t' : Thread} (h : p.Awaited) (hsound : p.Sound)
    (hk : p.threads[k]? = some t) (hadvance : t.advance p.inner k c = some (s', t'))
    (htimely : t.notifiesAll = true → ∀ u ∈ p.threads, u.fallsAsleep = false) :
    Pool.Awaited ⟨s', p.threads.set k t'⟩ := by
  rintro ⟨j, hj⟩
  obtain ⟨hlt, -⟩ := List.getElem?_eq_some_iff.mp hk
  rcases eq_or_ne k j with rfl | hne
  · -- the thread that moves is the one that waits
    obtain ⟨running, hself⟩ := hj
    rw [List.getElem?_set_self hlt] at hself
    obtain ⟨q', rfl, hsleepy⟩ : ∃ q', t' = .shutdownNow q' ∧ q'.isSleepy = true := by
      rcases hself with hself | ⟨hself, -⟩ <;> exact ⟨_, Option.some.inj hself, rfl⟩
    have hclosed' := Thread.closed hadvance
    have hawaits := Pool.awaits_go hk hadvance
    cases Thread.goes hadvance with
    | shutdownNow hq =>
      have hknown := hsound.known _ (List.mem_of_getElem? hk)
      rcases hq.sleepy_cases with hwake | ⟨n, rfl, -, hinflight⟩ | ⟨n, rfl, -⟩
      · exact absurd (hwake.symm.trans hsleepy) Bool.false_ne_true
      · exact ⟨hclosed' hknown, hawaits hknown (Or.inl hinflight) nofun⟩
      · obtain ⟨hclosed, hawaited⟩ := h ⟨k, n, Or.inl hk⟩
        exact ⟨hclosed' hclosed, hawaits hclosed hawaited nofun⟩
  · have hold := hj.of_go hadvance hne
    obtain ⟨hclosed, hawaited⟩ := h ⟨j, hold⟩
    refine ⟨Thread.closed hadvance hclosed, Pool.awaits_go hk hadvance hclosed hawaited ?_⟩
    -- whoever is notified does not wait any more, and nobody is about to wait
    intro hnotifies hnobody
    obtain ⟨running, hj⟩ := hj
    rw [List.getElem?_set_ne hne] at hj
    rcases hj with hparking | ⟨-, hwaits⟩
    · exact absurd (htimely hnotifies _ (List.mem_of_getElem? hparking)) Bool.noConfusion
    · rw [hnobody] at hwaits
      cases hwaits

/-- A step at the right time. -/
theorem Pool.Awaited.step {a : Action} (h : p.Awaited) (hsound : p.Sound) (htimely : a.Timely p)
    (hstep : step p a = some p') : p'.Awaited := by
  rcases step_cases hstep with ⟨call, rfl, rfl⟩ | ⟨k, c, t, s', t', rfl, hk, hadvance, rfl⟩ |
    ⟨k, rfl, -, rfl⟩
  · rintro ⟨j, running, hj⟩
    have hold : ∀ q : ShutdownNowPhase, q.isSleepy = true →
        (p.threads ++ [call.thread p.threads.length])[j]? = some (Thread.shutdownNow q) →
        p.threads[j]? = some (Thread.shutdownNow q) := by
      intro q hq hj
      rcases getElem?_concat_cases hj with hold | ⟨-, hnew⟩
      · exact hold
      · cases call <;> cases hnew
        cases hq
    obtain ⟨hclosed, hawaited⟩ := h ⟨j, running,
      hj.imp (hold _ rfl) fun ⟨hparked, hwaits⟩ => ⟨hold _ rfl hparked, hwaits⟩⟩
    refine ⟨hclosed, hawaited.imp id ?_⟩
    exact fun ⟨t, ht, hannouncing⟩ => ⟨t, List.mem_append_left _ ht, hannouncing⟩
  · refine h.go hsound hk hadvance fun hnotifies => htimely ?_
    rw [hk, Option.any_some]
    exact hnotifies
  · rintro ⟨j, running, hj⟩
    exact h ⟨j, running, hj.imp id fun ⟨hparked, hwaits⟩ =>
      ⟨hparked, List.mem_of_mem_erase hwaits⟩⟩

/-- **While a `shutdown_now` waits, some submission is in flight or about to notify.** -/
theorem awaited_of_reach (h : machine.ReachVia (fun p a => a.Timely p) p) : p.Awaited := by
  refine h.invariant ?_ fun p a p' hreach hawaited htimely hstep =>
    hawaited.step (sound_of_reach hreach) htimely hstep
  rintro _ ⟨poolSize, queueCapacity, -, -, rfl⟩ ⟨k, running, hk⟩
  rcases hk with hk | ⟨hk, -⟩ <;>
    exact Thread.noConfusion (List.mem_replicate.mp (List.mem_of_getElem? hk)).2

/-- **No `shutdown_now` oversleeps the last submission**, if none notifies while one is about to
wait. -/
theorem not_overslept_of_reach (h : machine.ReachVia (fun p a => a.Timely p) p) :
    ¬p.Overslept := by
  rintro ⟨⟨k, running, hk, hwaits⟩, hzero, hnobody⟩
  obtain ⟨-, hpos | ⟨t, ht, hannouncing⟩⟩ :=
    awaited_of_reach h ⟨k, running, Or.inr ⟨hk, hwaits⟩⟩
  · omega
  · exact absurd ((hnobody t ht).symm.trans hannouncing) Bool.false_ne_true

/-- The `shutdown_now` waits before the last submission notifies, and is reached. -/
theorem not_overslept_of_reach_notified : ∃ p : Pool,
    (Thread.shutdownNow (.parked 0) ∈ p.threads ∧ p.inner.inflightSubmissions = 0) ∧
      ¬p.Overslept := by
  obtain ⟨p, hp, hend⟩ := Machine.exists_reachVia_of_exec (M := machine) (fun p a => a.Timely p)
    (fun p a => decide (a.Timely p)) (fun _ _ => of_decide_eq_true)
    (s := ⟨.initial 1 none, List.replicate 1 (.worker .activating)⟩) ⟨1, none, none, rfl, rfl⟩
    (List.flatten [[.call .submit], steps 2 1, [.call .shutdownNow], steps 6 2, steps 3 1])
    (fun p => decide (Thread.shutdownNow (.parked 0) ∈ p.threads ∧
      p.inner.inflightSubmissions = 0)) (by decide +kernel)
  exact ⟨p, of_decide_eq_true hend, not_overslept_of_reach hp⟩

/-- **A `shutdown_now` oversleeps for good**: the pool is shut down and its worker has left, the
last submission is refused and notifies after the `shutdown_now` has counted it and before it
waits, and then nobody can go on. -/
theorem overslept_for_good :
    ∃ p, machine.Reach p ∧ p.Overslept ∧ ∀ k c, step p (.go k c) = none := by
  obtain ⟨p, hp, hend⟩ := Machine.exists_reachVia_of_exec (M := machine) (fun _ _ => True)
    (fun _ _ => true) (fun _ _ _ => trivial)
    (s := ⟨.initial 1 none, List.replicate 1 (.worker .activating)⟩) ⟨1, none, none, rfl, rfl⟩
    (List.flatten [[.call .submit, .go 1 {}, .call .shutdown], steps 3 2, steps 15 0,
      [.go 1 {}, .call .shutdownNow], steps 5 3, steps 3 1, steps 1 3])
    (fun p => decide (p.inner.inflightSubmissions = 0 ∧ p.inner.waiters = [3] ∧
      p.threads = [.worker .exited, .submit 1 (.returned (.error .shutdown)),
        .shutdown .returned, .shutdownNow (.parked 0)])) (by decide +kernel)
  obtain ⟨hzero, hwaiters, hthreads⟩ := of_decide_eq_true hend
  refine ⟨p, hp, ⟨⟨3, 0, ?_, ?_⟩, hzero, ?_⟩, fun k c => ?_⟩
  · rw [hthreads]
    rfl
  · rw [hwaiters]
    exact List.mem_singleton_self 3
  · rw [hthreads]
    decide
  · match k with
    | 0 | 1 | 2 =>
      rw [step, hthreads]
      rfl
    | 3 =>
      rw [step, hthreads]
      simp [Thread.advance, ShutdownNowPhase.advance, Inner.unpark, hwaiters]
    | k + 4 =>
      rw [step, hthreads]
      rfl

end FixedPool

end QubitConcurrent
