import QubitConcurrent.Services.RayonAccounting
import QubitConcurrent.Services.Stability

/-!
# How a Rayon service ends

A Rayon service is orderly: its count rises under the submission lock only, by a submission
that has loaded the flag unset, and the flag is set under that lock too. And the count is
right (`QubitConcurrent.Rayon.Accounts`). So whoever finds it zero behind a set flag knows of
every accepted task that it has left `active_tasks`, which it does after its result was
published, whether it ran or was cancelled.
-/

namespace QubitConcurrent

namespace Rayon

open Services

open Services.Core (Advance)

variable {R E W : Type} {s s' : Service R E W}

/-! ### A Rayon service is orderly -/

/-- What a step does that may end the service: it changes the common state as it may, and
admits nothing once the flag is set. -/
structure Ending (s s' : Service R E W) : Prop where
  /-- The common state changes as it may. -/
  advance : Advance s.toCore s'.toCore
  /-- Once the flag is set, no task gets a number. -/
  frozen : s.shutdown = true → s'.tasks.length = s.tasks.length

/-- A step that touches nothing but the common state. -/
theorem ending_core {c : Core Await} (h : Advance s.toCore c) :
    Ending s { s with toCore := c } :=
  ⟨h, fun _ => rfl⟩

/-- A step that leaves the common state alone, and gives out no number. -/
theorem ending_beside (hcore : s'.toCore = s.toCore) (hlength : s'.tasks.length = s.tasks.length) :
    Ending s s' :=
  ⟨hcore ▸ .refl _, fun _ => hlength⟩

/-- The closure of a task does nothing but what may end the service. -/
theorem ending_runNext {i : ℕ} (hstep : s.runNext i = some s') : Ending s s' := by
  cases runNext_move hstep with
  | skips | starts | unregisters | unqueues => exact ending_beside rfl (List.length_set ..)
  | leaves => exact ⟨.leave _, fun _ => List.length_set ..⟩
  | announces => exact ⟨.announce .., fun _ => List.length_set ..⟩

/-- A call that cancels does nothing but what may end the service. -/
theorem ending_cancelNext {c : Cancel} {r : Cancel × Service R E W}
    (hstep : s.cancelNext c = some r) : Ending s r.2 := by
  obtain ⟨i, phase⟩ := c
  rw [Service.cancelNext] at hstep
  cases phase with
  | publishing =>
    simp only at hstep
    split at hstep
    · obtain rfl := Option.some.inj hstep
      exact ending_beside rfl (List.length_set ..)
    · exact absurd hstep (by simp)
  | unregistering | unqueueing =>
    obtain rfl := Option.some.inj hstep
    exact ending_beside rfl rfl
  | leaving =>
    obtain rfl := Option.some.inj hstep
    exact ending_core (.leave _)
  | announcing a =>
    obtain rfl := Option.some.inj hstep
    exact ending_core (.announce ..)
  | returned answer => exact absurd hstep (by simp)

/-- A `shutdown_now` that has released the submission lock does nothing but what may end the
service. -/
theorem ending_sweepNext {k : ℕ} (hstep : s.sweepNext k = some s') : Ending s s' := by
  cases sweepNext_move hstep with
  | counts | picks | ends => exact ending_beside rfl rfl
  | cancels pending c report hk r hr =>
    exact ⟨(ending_cancelNext hr).advance, (ending_cancelNext hr).frozen⟩
  | announces => exact ⟨.announce .., fun _ => rfl⟩

/-- The holder of the submission lock does nothing but what may end the service: it gives out
a number, and raises the count, only where the flag is not set. -/
theorem ending_holderNext (hadmitting : s.Admitting) {h : Holder} {order : List ℕ}
    (hlock : s.submissionLock = some h) (hstep : s.holderNext order h = some s') :
    Ending s s' := by
  cases h with
  | submitChecking =>
    obtain rfl := Option.some.inj hstep
    split_ifs
    · exact ending_beside rfl rfl
    · exact ending_beside rfl rfl
  | submitNumbering =>
    obtain rfl := Option.some.inj hstep
    have hopen := hadmitting (Or.inl hlock)
    exact ⟨.refl _, fun hshutdown => absurd (hopen.symm.trans hshutdown) Bool.false_ne_true⟩
  | submitCounting i =>
    obtain rfl := Option.some.inj hstep
    exact ⟨.enter (hadmitting (Or.inr ⟨i, hlock⟩)), fun _ => rfl⟩
  | submitReleasing i =>
    obtain ⟨cell, -, rfl⟩ := holderNext_submitReleasing hstep
    exact ending_beside rfl (List.length_set ..)
  | shutdownStoring | shutdownNowStoring =>
    obtain rfl := Option.some.inj hstep
    exact ⟨.close _, fun _ => rfl⟩
  | shutdownAnnouncing a =>
    obtain rfl := holderNext_shutdownAnnouncing hstep
    exact ⟨.announce .., fun _ => rfl⟩
  | shutdownNowDraining queued running =>
    obtain ⟨-, rfl⟩ := holderNext_shutdownNowDraining hstep
    exact ending_beside rfl rfl
  | _ =>
    obtain rfl := Option.some.inj hstep
    exact ending_beside rfl rfl

/-- **Every step does nothing but what may end the service.** -/
theorem step_ending (hadmitting : s.Admitting) {a : Action R E} (hstep : s.step a = some s') :
    Ending s s' := by
  cases a with
  | submit | shutdown | shutdownNow =>
    simp only [Service.step, Service.acquire] at hstep
    split_ifs at hstep
    obtain rfl := Option.some.inj hstep
    exact ending_beside rfl rfl
  | holderNext order =>
    obtain ⟨h, hlock, hnext⟩ := Option.bind_eq_some_iff.mp hstep
    exact ending_holderNext hadmitting hlock hnext
  | spawn i =>
    simp only [Service.step, Service.spawn] at hstep
    split at hstep
    · obtain rfl := Option.some.inj hstep
      exact ending_beside rfl (List.length_set ..)
    · exact absurd hstep (by simp)
  | runNext i => exact ending_runNext hstep
  | callReturns i outcome =>
    simp only [Service.step, Service.callReturns] at hstep
    split at hstep
    · obtain rfl := Option.some.inj hstep
      exact ending_beside rfl (List.length_set ..)
    · exact absurd hstep (by simp)
  | cancel i =>
    simp only [Service.step, Service.cancel] at hstep
    split_ifs at hstep
    obtain rfl := Option.some.inj hstep
    exact ending_beside rfl rfl
  | handleNext k =>
    simp only [Service.step, Service.handleNext] at hstep
    split at hstep
    · obtain ⟨r, hr, rfl⟩ := Option.map_eq_some_iff.mp hstep
      exact ⟨(ending_cancelNext hr).advance, (ending_cancelNext hr).frozen⟩
    · exact absurd hstep (by simp)
  | sweepNext k => exact ending_sweepNext hstep
  | await | awaitNext k | awaitDrop k | isTerminated | queryNext k =>
    obtain ⟨c, hturn, rfl⟩ := step_turn rfl hstep
    exact ending_core (.turn hturn)

/-- Over every run, the threads can rely on each other. -/
theorem sound_of_reach (hs : (machine R E W).Reach s) : Sound s := by
  obtain ⟨log, hlog⟩ := Machine.exists_observe (fun s a _ => s.struck a) hs
  exact (audited_of_reach hlog).1

/-- **A Rayon service is orderly.** -/
theorem orderly (R E W : Type) :
    Orderly (machine R E W) (·.toCore) (·.tasks.length) (·.replies) where
  init s hinit := by
    rw [hinit]
    rfl
  advance _ _ _ hr hstep := (step_ending (admitting_of_reach hr) hstep).advance
  frozen _ _ _ hr hstep := (step_ending (admitting_of_reach hr) hstep).frozen
  accepted _ hr i hi := by
    obtain ⟨t, ht, -⟩ := (sound_of_reach hr).handles i hi
    exact (List.getElem?_eq_some_iff.mp ht).1

/-! ### Nothing is left of a service that has ended -/

/-- **Where the flag is set and the count is zero, every task has its result**, and none is
inside its callable. -/
theorem done_of_isTerminated (hs : (machine R E W).Reach s) (hterm : s.isTerminated = true) :
    ∀ t ∈ s.tasks, t.cell.done = true ∧ t.run ≠ .executing := by
  obtain ⟨hshutdown, hzero⟩ := Core.isTerminated_iff.mp hterm
  obtain ⟨log, hlog⟩ := Machine.exists_observe (fun s a _ => s.struck a) hs
  obtain ⟨hsound, hbalanced⟩ := audited_of_reach hlog
  -- nobody is between its number and the count
  have hcounted : s.counted = s.tasks.length := by
    rw [Service.counted]
    split
    · next i hlock =>
      have hopen := admitting_of_reach hs (Or.inr ⟨i, hlock⟩)
      exact absurd (hopen.symm.trans hshutdown) Bool.false_ne_true
    · rfl
  have hgone : ∀ i < s.tasks.length, i ∈ leftOf log := by
    rw [← hcounted]
    exact tally_eq_zero.mp (hbalanced.active.symm.trans hzero)
  intro t ht
  obtain ⟨i, hi⟩ := List.mem_iff_getElem?.mp ht
  obtain ⟨hlt, -⟩ := List.getElem?_eq_some_iff.mp hi
  have hnone : strikes s.tasks s.cancelCalls .active i = 0 :=
    (hbalanced.activeAt i).trans (if_neg fun hand => hand.2 (hgone i hlt))
  have htask : t.strikes .active = false := by
    rw [strikes, hi, Option.any_some] at hnone
    cases h : t.strikes .active with
    | false => rfl
    | true => simp [h] at hnone
  rw [Task.strikes, Bool.or_eq_false_iff] at htask
  obtain ⟨hopen, hrun⟩ := htask
  obtain ⟨hdone, hcell⟩ := hsound.agrees t ht
  have hcompleted : t.cell.completed = true := by
    by_contra hnot
    rw [Bool.not_eq_true] at hnot
    have hstarted : t.cell.started = true := by
      by_contra hnot'
      rw [Bool.not_eq_true] at hnot'
      exact absurd (Task.isOpen_iff.mpr ⟨hnot', hnot⟩) (by simp [hopen])
    generalize t.run = run at hrun hcell
    cases run <;> simp_all [RunPhase.strikes]
  refine ⟨hdone.trans hcompleted, fun hexecuting => ?_⟩
  rw [hexecuting] at hrun
  exact absurd hrun (by decide)

end Rayon

end QubitConcurrent
