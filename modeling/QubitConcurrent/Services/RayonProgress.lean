import QubitConcurrent.Services.RayonEnd
import QubitConcurrent.Services.ThreadPerTaskPanics

/-!
# A Rayon service works off what it was given

A task that is entered in the books of a Rayon service leaves them by the hands of three kinds of
threads: the closure in the pool, the calls of `RayonTaskHandle::cancel`, and the calls of
`shutdown_now`, each of which cancels whatever it has found in the map. None of them waits for
another, but for the submission lock, and none of them starts anything anew. So a number can be
given to every state (`QubitConcurrent.Rayon.Service.remaining`) that every step of theirs lowers,
and that only new calls raise. A task that is in the map is worth what it costs a `shutdown_now`
to cancel it; that it is found there by several of them, and that its closure and its handle are
at it as well, is paid for separately.

Where none of the threads can go on, nobody is inside any more, and the books are empty.
-/

namespace QubitConcurrent

namespace Rayon

open Services

open TaskHandle (TaskHandleInner Outcome runCallable)

open ThreadPerTask (announceRemaining)

variable {R E W : Type} {s s' : Service R E W} {i k : ℕ}

/-! ### What is left to do -/

/-- A step of `notify_if_terminated` leaves less to do. -/
theorem announceRemaining_announce {A : Type} [Waiter A] (c : Core A) (a : Announce) :
    (c.announce a).1.elim 0 announceRemaining < announceRemaining a := by
  cases a with
  | loadShutdown => cases h : c.shutdown <;> simp [Core.announce, announceRemaining, h]
  | loadActive => by_cases h : c.activeTasks = 0 <;> simp [Core.announce, announceRemaining, h]
  | notify => exact Nat.one_pos

/-- Who has left `active_tasks` has no more to do than to notify. -/
theorem announceRemaining_leave {A : Type} (c : Core A) :
    c.leave.1.elim 0 announceRemaining < 4 := by
  rw [Core.leave]
  split_ifs
  · exact Nat.lt_succ_self 3
  · exact Nat.zero_lt_succ 3

/-- How many steps the closure of a task has still to take, at most, its submission included. -/
def RunPhase.remaining : RunPhase → ℕ
  | submitting => 10
  | unspawned => 9
  | spawned => 8
  | unregistering => 7
  | unqueueing => 6
  | executing => 5
  | leaving => 4
  | announcing a => announceRemaining a
  | finished | skipped => 0

/-- How many steps a call has still to take, at most, that cancels a task. -/
def CancelPhase.remaining : CancelPhase → ℕ
  | publishing => 7
  | unregistering => 6
  | unqueueing => 5
  | leaving => 4
  | announcing a => announceRemaining a
  | returned _ => 0

/-- How many steps a `shutdown_now` has still to take, at most, that has released the submission
lock: nine for each task it is still to cancel. -/
def Sweep.remaining : Sweep → ℕ
  | cancelling pending current _ =>
    9 * pending.length + (current.elim 0 fun c => c.phase.remaining + 1) + 4
  | announcing a _ => announceRemaining a
  | returned _ => 0

/-- How many steps are still to be taken, at most, for the sake of the call that holds the
submission lock. -/
def Holder.remaining : Holder → ℕ
  | submitChecking => 25
  | submitNumbering => 24
  | submitCounting _ => 13
  | submitQueueing _ => 12
  | submitRegistering _ => 11
  | submitReleasing _ => 1
  | shutdownStoring => 4
  | shutdownAnnouncing a => announceRemaining a
  | shutdownNowStoring => 9
  | shutdownNowCounting => 8
  | shutdownNowReading _ => 7
  | shutdownNowDraining _ _ => 6
  | shutdownNowReleasing pending _ _ => 9 * pending.length + 5

/-- **How many steps are still to be taken, at most**, until nobody is inside. -/
def Service.remaining (s : Service R E W) : ℕ :=
  (s.tasks.map fun t => t.run.remaining).sum + (s.cancels.map fun c => c.phase.remaining).sum +
    (s.sweeps.map Sweep.remaining).sum + s.submissionLock.elim 0 Holder.remaining +
    9 * s.pendingTasks.length

/-- What is left to do in the pool is as much as the phase says. -/
theorem remaining_runAfter (r : Option Announce) :
    (Service.runAfter r).remaining = r.elim 0 announceRemaining := by
  cases r with
  | some a => rfl
  | none => rfl

/-- What is left to do of a cancellation is as much as the phase says. -/
theorem remaining_cancelAfter (r : Option Announce) :
    (Service.cancelAfter r).remaining = r.elim 0 announceRemaining := by
  cases r with
  | some a => rfl
  | none => rfl

/-- What is left to do of a `shutdown_now` is as much as the phase says. -/
theorem remaining_sweepAfter (report : ThreadPool.ShutdownReport) (r : Option Announce) :
    (Service.sweepAfter report r).remaining = r.elim 0 announceRemaining := by
  cases r with
  | some a => rfl
  | none => rfl

/-! ### Every step of a thread leaves less to do -/

namespace Service

/-- A task moves on, and leaves less to do. -/
theorem remaining_setTask {t t' : Task R E W} (hi : s.tasks[i]? = some t)
    (ht : t'.run.remaining < t.run.remaining) : (s.setTask i t').remaining < s.remaining := by
  obtain ⟨n, hbefore, hafter⟩ := sum_map_set (fun t => t.run.remaining) hi t'
  simp only [remaining, setTask]
  omega

/-- A task that is removed from the map leaves no more to do. -/
theorem remaining_unregister (s : Service R E W) (i : ℕ) :
    (s.unregister i).remaining ≤ s.remaining := by
  have hle : (s.pendingTasks.filter (· ≠ i)).length ≤ s.pendingTasks.length :=
    List.length_filter_le ..
  simp only [remaining, unregister]
  omega

/-- The closure of a task takes a step. -/
theorem remaining_runNext (hstep : s.runNext i = some s') : s'.remaining < s.remaining := by
  cases runNext_move hstep with
  | skips cell hi hcompleted => exact remaining_setTask hi (Nat.zero_lt_succ 7)
  | starts cell hi hcompleted => exact remaining_setTask hi (Nat.lt_succ_self 7)
  | unregisters cell hi =>
    have hless : ((s.unregister i).setTask i ⟨cell, .unqueueing⟩).remaining <
        (s.unregister i).remaining := remaining_setTask hi (Nat.lt_succ_self 6)
    exact hless.trans_le (remaining_unregister s i)
  | unqueues cell hi => exact remaining_setTask (s := s.unqueue) hi (Nat.lt_succ_self 5)
  | leaves cell hi =>
    refine remaining_setTask (s := { s with toCore := s.leave.2 }) hi ?_
    rw [remaining_runAfter]
    exact announceRemaining_leave s.toCore
  | announces cell a hi =>
    refine remaining_setTask (s := { s with toCore := (s.announce a).2 }) hi ?_
    rw [remaining_runAfter]
    exact announceRemaining_announce s.toCore a

/-- A call that cancels takes a step: it has less left to do, and the others have not more. -/
theorem remaining_cancelNext {c : Cancel} {r : Cancel × Service R E W}
    (hstep : s.cancelNext c = some r) :
    r.1.phase.remaining < c.phase.remaining ∧ r.2.remaining ≤ s.remaining ∧
      r.2.cancels = s.cancels ∧ r.2.sweeps = s.sweeps := by
  cases cancelNext_move hstep with
  | publishes i t hi hopen =>
    obtain ⟨n, hbefore, hafter⟩ := sum_map_set (fun t => t.run.remaining) hi
      { t with cell := t.cell.cancel.2 }
    refine ⟨Nat.lt_succ_self 6, ?_, rfl, rfl⟩
    dsimp only at hafter
    simp only [remaining, setTask]
    omega
  | loses i t hi hopen => exact ⟨Nat.zero_lt_succ 6, le_rfl, rfl, rfl⟩
  | unregisters i => exact ⟨Nat.lt_succ_self 5, remaining_unregister s i, rfl, rfl⟩
  | unqueues i => exact ⟨Nat.lt_succ_self 4, le_rfl, rfl, rfl⟩
  | leaves i =>
    refine ⟨?_, le_rfl, rfl, rfl⟩
    rw [remaining_cancelAfter]
    exact announceRemaining_leave s.toCore
  | announces i a =>
    refine ⟨?_, le_rfl, rfl, rfl⟩
    rw [remaining_cancelAfter]
    exact announceRemaining_announce s.toCore a

/-- A call of `RayonTaskHandle::cancel` takes a step. -/
theorem remaining_handleNext (hstep : s.handleNext k = some s') : s'.remaining < s.remaining := by
  rw [handleNext] at hstep
  split at hstep
  · next c hk =>
    obtain ⟨r, hr, rfl⟩ := Option.map_eq_some_iff.mp hstep
    obtain ⟨hless, hle, hcancels, -⟩ := remaining_cancelNext hr
    obtain ⟨n, hbefore, hafter⟩ :=
      sum_map_set (fun c => c.phase.remaining) (hcancels ▸ hk : r.2.cancels[k]? = some c) r.1
    simp only [remaining] at hle ⊢
    omega
  · cases hstep

/-- A `shutdown_now` moves on, and leaves less to do. -/
theorem remaining_setSweep {w w' : Sweep} (hk : s.sweeps[k]? = some w)
    (hw : w'.remaining < w.remaining) : (s.setSweep k w').remaining < s.remaining := by
  obtain ⟨n, hbefore, hafter⟩ := sum_map_set Sweep.remaining hk w'
  simp only [remaining, setSweep]
  omega

/-- A `shutdown_now` that has released the submission lock takes a step. -/
theorem remaining_sweepNext (hstep : s.sweepNext k = some s') : s'.remaining < s.remaining := by
  cases sweepNext_move hstep with
  | counts pending i answer report hk =>
    refine remaining_setSweep hk ?_
    simp [Sweep.remaining, CancelPhase.remaining]
  | cancels pending c report hk r hr =>
    obtain ⟨hless, hle, -, hsweeps⟩ := remaining_cancelNext hr
    refine (remaining_setSweep (hsweeps ▸ hk : r.2.sweeps[k]? = some _) ?_).trans_le hle
    simp only [Sweep.remaining, Option.elim_some]
    omega
  | picks i pending report hk =>
    refine remaining_setSweep hk ?_
    simp only [Sweep.remaining, CancelPhase.remaining, Option.elim_some, Option.elim_none,
      List.length_cons]
    omega
  | ends report hk => exact remaining_setSweep hk (Nat.lt_succ_self 3)
  | announces a report hk =>
    refine remaining_setSweep (s := { s with toCore := (s.announce a).2 }) hk ?_
    rw [remaining_sweepAfter]
    exact announceRemaining_announce s.toCore a

/-- The holder of the submission lock takes a step. -/
theorem remaining_holderNext {h : Holder} {order : List ℕ} (hlock : s.submissionLock = some h)
    (hstep : s.holderNext order h = some s') : s'.remaining < s.remaining := by
  cases h with
  | submitChecking =>
    obtain rfl := Option.some.inj hstep
    split_ifs
    · simp [remaining, release, hlock, Holder.remaining]
    · simp [remaining, hold, hlock, Holder.remaining]
  | submitNumbering =>
    obtain rfl := Option.some.inj hstep
    simp only [remaining, hold, hlock, Option.elim_some, Holder.remaining, List.map_append,
      List.sum_append, List.map_cons, List.map_nil, List.sum_cons, List.sum_nil,
      RunPhase.remaining]
    omega
  | submitRegistering i =>
    obtain rfl := Option.some.inj hstep
    simp only [remaining, hold, hlock, Option.elim_some, Holder.remaining, List.length_append,
      List.length_singleton]
    omega
  | submitReleasing i =>
    obtain ⟨cell, hi, rfl⟩ := holderNext_submitReleasing hstep
    have hless : (s.setTask i ⟨cell, .unspawned⟩).remaining < s.remaining :=
      remaining_setTask hi (Nat.lt_succ_self 9)
    refine lt_of_le_of_lt ?_ hless
    simp only [remaining, setTask, release, hlock, Option.elim_none, Option.elim_some]
    omega
  | shutdownAnnouncing a =>
    obtain rfl := holderNext_shutdownAnnouncing hstep
    have hless := announceRemaining_announce s.toCore a
    cases hnext : (s.announce a).1 with
    | some a' =>
      rw [hnext, Option.elim_some] at hless
      simp only [remaining, hlock, Option.elim_some, Option.map_some, Holder.remaining]
      omega
    | none =>
      rw [hnext, Option.elim_none] at hless
      simp only [remaining, hlock, Option.elim_some, Option.elim_none, Option.map_none,
        Holder.remaining]
      omega
  | shutdownNowDraining queued running =>
    obtain ⟨horder, rfl⟩ := holderNext_shutdownNowDraining hstep
    have hlength := horder.length_eq
    simp only [remaining, hold, hlock, Option.elim_some, Holder.remaining, List.length_nil]
    omega
  | shutdownNowReleasing pending queued running =>
    obtain rfl := Option.some.inj hstep
    simp only [remaining, release, hlock, Option.elim_some, Option.elim_none, Holder.remaining,
      List.map_append, List.sum_append, List.map_cons, List.map_nil, List.sum_cons, List.sum_nil,
      Sweep.remaining]
    omega
  | submitCounting i | submitQueueing i | shutdownStoring | shutdownNowStoring |
      shutdownNowCounting | shutdownNowReading queued =>
    obtain rfl := Option.some.inj hstep
    simp [remaining, hold, hlock, Holder.remaining, announceRemaining]

end Service

/-- A new call on the service, or on one of the handles. -/
def Action.calls : Action R E → Bool
  | .submit | .shutdown | .shutdownNow | .cancel _ => true
  | _ => false

/-- A step of a thread that is at work: a call, or the closure of a task. -/
def Action.works (a : Action R E) : Bool := !a.calls && !a.waits

/-- **Every step of a thread at work leaves less to do**, and who waits for termination, or asks
for it, leaves as much. -/
theorem remaining_step {a : Action R E} (ha : a.calls = false) (hstep : s.step a = some s') :
    s'.remaining + a.works.toNat ≤ s.remaining := by
  cases a with
  | submit | shutdown | shutdownNow | cancel i => cases ha
  | holderNext order =>
    obtain ⟨h, hlock, hnext⟩ := Option.bind_eq_some_iff.mp hstep
    exact Service.remaining_holderNext hlock hnext
  | spawn i =>
    simp only [Service.step, Service.spawn] at hstep
    split at hstep
    · next cell hi =>
      obtain rfl := Option.some.inj hstep
      exact Service.remaining_setTask hi (Nat.lt_succ_self 8)
    · cases hstep
  | runNext i => exact Service.remaining_runNext hstep
  | callReturns i outcome =>
    simp only [Service.step, Service.callReturns] at hstep
    split at hstep
    · next cell hi =>
      obtain rfl := Option.some.inj hstep
      exact Service.remaining_setTask hi (Nat.lt_succ_self 4)
    · cases hstep
  | handleNext k => exact Service.remaining_handleNext hstep
  | sweepNext k => exact Service.remaining_sweepNext hstep
  | await | awaitNext k | awaitDrop k | isTerminated | queryNext k =>
    obtain ⟨c, -, rfl⟩ := step_turn rfl hstep
    exact le_rfl

/-! ### Where nobody can go on -/

/-- A task whose submission has not released the lock is the one the holder of the lock
submits. -/
def Attended (s : Service R E W) : Prop :=
  ∀ i t, s.tasks[i]? = some t → t.run = .submitting → s.submissionLock.bind Holder.task = some i

namespace Attended

/-- A task moves on, not back into its submission. -/
theorem set (h : Attended s) {t t' : Task R E W} (hi : s.tasks[i]? = some t)
    (htasks : s'.tasks = s.tasks.set i t') (hlock : s'.submissionLock = s.submissionLock)
    (ht : t'.run = .submitting → t.run = .submitting) : Attended s' := by
  intro j u hj hrun
  rw [hlock]
  rcases getElem?_set_cases hi (htasks ▸ hj) with ⟨rfl, rfl⟩ | ⟨-, hold⟩
  · exact h j t hi (ht hrun)
  · exact h j u hold hrun

/-- The holder of the lock moves on, with the same task. -/
theorem move (h : Attended s) (htasks : s'.tasks = s.tasks)
    (hlock : s'.submissionLock.bind Holder.task = s.submissionLock.bind Holder.task) :
    Attended s' := by
  intro j u hj hrun
  rw [hlock]
  exact h j u (htasks ▸ hj) hrun

/-- A call that cancels does not submit. -/
theorem cancelNext (h : Attended s) {c : Cancel} {r : Cancel × Service R E W}
    (hstep : s.cancelNext c = some r) : Attended r.2 := by
  cases cancelNext_move hstep with
  | publishes i t hi hopen => exact h.set hi rfl rfl id
  | loses | unregisters | unqueues | leaves | announces => exact h

/-- The holder of the submission lock gives a task its number, and owns it until it releases the
lock. -/
theorem holderNext (h : Attended s) {holder : Holder} {order : List ℕ}
    (hlock : s.submissionLock = some holder) (hstep : s.holderNext order holder = some s') :
    Attended s' := by
  cases holder with
  | submitChecking =>
    obtain rfl := Option.some.inj hstep
    split_ifs
    · exact h.move rfl (by simp [Service.release, hlock, Holder.task])
    · exact h.move rfl (by simp [Service.hold, hlock, Holder.task])
  | submitNumbering =>
    obtain rfl := Option.some.inj hstep
    intro j u hj hrun
    rcases getElem?_concat_cases hj with hold | ⟨rfl, -⟩
    · have hnone := h j u hold hrun
      rw [hlock, Option.bind_some] at hnone
      cases hnone
    · rfl
  | submitReleasing i =>
    obtain ⟨cell, hi, rfl⟩ := holderNext_submitReleasing hstep
    intro j u hj hrun
    rcases getElem?_set_cases hi hj with ⟨rfl, rfl⟩ | ⟨hne, hold⟩
    · cases hrun
    · have hother := h j u hold hrun
      rw [hlock, Option.bind_some, Holder.task] at hother
      exact absurd (Option.some.inj hother) hne
  | shutdownAnnouncing a =>
    obtain rfl := holderNext_shutdownAnnouncing hstep
    refine h.move rfl ?_
    rw [hlock]
    cases (s.announce a).1 with
    | some a' => rfl
    | none => rfl
  | shutdownNowDraining queued running =>
    obtain ⟨-, rfl⟩ := holderNext_shutdownNowDraining hstep
    exact h.move rfl (by simp [Service.hold, hlock, Holder.task])
  | _ =>
    obtain rfl := Option.some.inj hstep
    exact h.move rfl (by simp [Service.hold, Service.release, hlock, Holder.task])

/-- **Every step keeps it.** -/
theorem step (h : Attended s) {a : Action R E} (hstep : s.step a = some s') : Attended s' := by
  cases a with
  | submit | shutdown | shutdownNow =>
    simp only [Service.step, Service.acquire] at hstep
    split_ifs at hstep with hfree
    obtain rfl := Option.some.inj hstep
    exact h.move rfl (by simp [Service.hold, hfree, Holder.task])
  | holderNext order =>
    obtain ⟨holder, hlock, hnext⟩ := Option.bind_eq_some_iff.mp hstep
    exact h.holderNext hlock hnext
  | spawn i =>
    simp only [Service.step, Service.spawn] at hstep
    split at hstep
    · next cell hi =>
      obtain rfl := Option.some.inj hstep
      exact h.set hi rfl rfl (by simp)
    · cases hstep
  | runNext i =>
    cases runNext_move hstep with
    | skips cell hi | starts cell hi | unregisters cell hi | unqueues cell hi =>
      exact h.set hi rfl rfl (by simp)
    | leaves cell hi =>
      refine h.set hi rfl rfl ?_
      cases s.leave.1 <;> simp [Service.runAfter]
    | announces cell a hi =>
      refine h.set hi rfl rfl ?_
      cases (s.announce a).1 <;> simp [Service.runAfter]
  | callReturns i outcome =>
    simp only [Service.step, Service.callReturns] at hstep
    split at hstep
    · next cell hi =>
      obtain rfl := Option.some.inj hstep
      exact h.set hi rfl rfl (by simp)
    · cases hstep
  | cancel i =>
    simp only [Service.step, Service.cancel] at hstep
    split_ifs at hstep
    obtain rfl := Option.some.inj hstep
    exact h
  | handleNext k =>
    simp only [Service.step, Service.handleNext] at hstep
    split at hstep
    · obtain ⟨r, hr, rfl⟩ := Option.map_eq_some_iff.mp hstep
      exact h.cancelNext hr
    · cases hstep
  | sweepNext k =>
    cases sweepNext_move hstep with
    | counts | picks | ends | announces => exact h
    | cancels pending c report hk r hr => exact h.cancelNext hr
  | await | awaitNext k | awaitDrop k | isTerminated | queryNext k =>
    obtain ⟨c, -, rfl⟩ := step_turn rfl hstep
    exact h

end Attended

/-- Over every run, a task that is being submitted is so by the holder of the lock. -/
theorem attended_of_reach (hs : (machine R E W).Reach s) : Attended s := by
  refine hs.invariant ?_ fun _ _ _ _ h _ hstep => h.step hstep
  rintro s rfl i t hi -
  cases hi

/-- No thread that is at work can take a step. -/
def Service.Still (s : Service R E W) : Prop :=
  ∀ a : Action R E, a.works = true → s.step a = none

/-- **A service at rest**: nothing is left of what it was given. -/
structure Service.Rested (s : Service R E W) : Prop where
  /-- Every task has its result, and its closure has run, or was let go because the task was
  cancelled. -/
  tasks : ∀ t ∈ s.tasks, t.cell.completed = true ∧ t.cell.done = true ∧
    (t.run = .finished ∧ t.cell.started = true ∨ t.run = .skipped ∧ t.cell.started = false)
  /-- Every call on a handle has returned, -/
  cancels : ∀ c ∈ s.cancels, ∃ answer, c.phase = .returned answer
  /-- and so has every `shutdown_now`. -/
  sweeps : ∀ w ∈ s.sweeps, ∃ report, w = .returned report
  /-- Nobody holds the submission lock. -/
  unlocked : s.submissionLock = none
  /-- The books are empty. -/
  books : s.activeTasks = 0 ∧ s.queuedTasks = 0 ∧ s.pendingTasks = []

namespace Service.Still

/-- The submission lock is free: whoever holds it can go on. -/
theorem unlocked (h : s.Still) (hsound : Sound s) : s.submissionLock = none := by
  cases hlock : s.submissionLock with
  | none => rfl
  | some holder =>
    exfalso
    have hnone : s.holderNext s.pendingTasks holder = none := by
      have hstep := h (.holderNext s.pendingTasks) rfl
      rwa [Service.step, hlock, Option.bind_some] at hstep
    cases holder with
    | submitReleasing i =>
      obtain ⟨-, cell, hi⟩ := hsound.submitted _ hlock i rfl
      rw [Service.holderNext, hi] at hnone
      cases hnone
    | shutdownAnnouncing a =>
      rw [Service.holderNext] at hnone
      split at hnone <;> cases hnone
    | shutdownNowDraining queued running =>
      rw [Service.holderNext, if_pos (List.Perm.refl _)] at hnone
      cases hnone
    | _ => cases hnone

/-- Every closure has returned. -/
theorem run (h : s.Still) (hattended : Attended s) (hlock : s.submissionLock = none)
    {t : Task R E W} (hi : s.tasks[i]? = some t) : t.run = .finished ∨ t.run = .skipped := by
  have hspawn : s.spawn i = none := h (.spawn i) rfl
  have hrun : s.runNext i = none := h (.runNext i) rfl
  have hreturns : s.callReturns i .panic = none := h (.callReturns i .panic) rfl
  obtain ⟨cell, run⟩ := t
  cases run with
  | finished => exact Or.inl rfl
  | skipped => exact Or.inr rfl
  | submitting =>
    have howner := hattended i _ hi rfl
    rw [hlock] at howner
    cases howner
  | unspawned => simp [Service.spawn, hi] at hspawn
  | executing => simp [Service.callReturns, hi] at hreturns
  | spawned | unregistering | unqueueing | leaving | announcing a =>
    simp [Service.runNext, hi] at hrun

/-- A call that cancels a task there is, and that cannot go on, has returned. -/
theorem returned {c : Cancel} (hknown : s.Known c.task) (hnone : s.cancelNext c = none) :
    ∃ answer, c.phase = .returned answer := by
  obtain ⟨u, hu, -⟩ := hknown
  cases hphase : c.phase with
  | returned answer => exact ⟨answer, rfl⟩
  | publishing => simp [Service.cancelNext, hphase, hu] at hnone
  | unregistering | unqueueing | leaving | announcing a =>
    simp [Service.cancelNext, hphase] at hnone

/-- Every call on a handle has returned. -/
theorem cancels (h : s.Still) (hsound : Sound s) {c : Cancel} (hc : c ∈ s.cancels) :
    ∃ answer, c.phase = .returned answer := by
  obtain ⟨k, hk⟩ := List.mem_iff_getElem?.mp hc
  refine returned (hsound.calls c (List.mem_append_left _ hc)) ?_
  have hnone : s.handleNext k = none := h (.handleNext k) rfl
  rw [Service.handleNext, hk] at hnone
  exact Option.map_eq_none_iff.mp hnone

/-- Every `shutdown_now` has returned: if it is in a call that cancels, that has not returned, or
it could go on to the next. -/
theorem sweeps (h : s.Still) (hsound : Sound s) {w : Sweep} (hw : w ∈ s.sweeps) :
    ∃ report, w = .returned report := by
  obtain ⟨k, hk⟩ := List.mem_iff_getElem?.mp hw
  have hnone : s.sweepNext k = none := h (.sweepNext k) rfl
  cases w with
  | returned report => exact ⟨report, rfl⟩
  | announcing a report =>
    simp only [Service.sweepNext, hk] at hnone
    split at hnone <;> cases hnone
  | cancelling pending current report =>
    exfalso
    cases current with
    | none => cases pending <;> simp [Service.sweepNext, hk] at hnone
    | some c =>
      have hmem : c ∈ s.cancelCalls :=
        List.mem_append_right _ (List.mem_filterMap.mpr ⟨_, hw, rfl⟩)
      have hphase : ∃ answer, c.phase = .returned answer := by
        by_contra hnot
        refine hnot (returned (hsound.calls c hmem) ?_)
        obtain ⟨i, phase⟩ := c
        cases phase with
        | returned answer => exact absurd ⟨answer, rfl⟩ hnot
        | _ =>
          simp only [Service.sweepNext, hk] at hnone
          exact Option.map_eq_none_iff.mp hnone
      obtain ⟨i, phase⟩ := c
      obtain ⟨answer, rfl⟩ := hphase
      simp [Service.sweepNext, hk] at hnone

/-- **Where no thread can go on, the service is at rest.** -/
theorem rested (h : s.Still) (hs : (machine R E W).Reach s) : s.Rested := by
  obtain ⟨log, hlog⟩ := Machine.exists_observe (fun s a _ => s.struck a) hs
  obtain ⟨hsound, hbalanced⟩ := audited_of_reach hlog
  have hlock := h.unlocked hsound
  have hcancels : ∀ c ∈ s.cancels, ∃ answer, c.phase = .returned answer :=
    fun c hc => h.cancels hsound hc
  have hsweeps : ∀ w ∈ s.sweeps, ∃ report, w = .returned report := fun w hw => h.sweeps hsound hw
  have htasks : ∀ t ∈ s.tasks, t.cell.completed = true ∧ t.cell.done = true ∧
      (t.run = .finished ∧ t.cell.started = true ∨ t.run = .skipped ∧ t.cell.started = false) := by
    intro t ht
    obtain ⟨i, hi⟩ := List.mem_iff_getElem?.mp ht
    obtain ⟨hdone, hcell⟩ := hsound.agrees t ht
    rcases h.run (attended_of_reach hs) hlock hi with hrun | hrun
    · rw [hrun] at hcell
      exact ⟨hcell.2, hdone.trans hcell.2, Or.inl ⟨hrun, hcell.1⟩⟩
    · rw [hrun] at hcell
      exact ⟨hcell.2, hdone.trans hcell.2, Or.inr ⟨hrun, hcell.1⟩⟩
  -- no call is inside a bookkeeping, since all have returned
  have hover : ∀ i < s.tasks.length, s.Over i := by
    intro i hlt
    have hi : s.tasks[i]? = some s.tasks[i] := List.getElem?_eq_getElem hlt
    obtain ⟨hcompleted, -, hrun⟩ := htasks _ (List.getElem_mem hlt)
    refine ⟨⟨_, hi, hcompleted, ?_⟩, fun c hc _ => ?_⟩
    · rcases hrun with ⟨hrun, -⟩ | ⟨hrun, -⟩ <;> simp [hrun]
    · obtain ⟨answer, hphase⟩ : ∃ answer, c.phase = .returned answer := by
        rcases List.mem_append.mp hc with hhandle | hsweep
        · exact hcancels c hhandle
        · obtain ⟨w, hw, hcurrent⟩ := List.mem_filterMap.mp hsweep
          obtain ⟨report, rfl⟩ := hsweeps w hw
          cases hcurrent
      simp [hphase]
  exact ⟨htasks, hcancels, hsweeps, hlock,
    hbalanced.empty fun i hi => hsound.strikes_over (hover i hi)⟩

end Service.Still

/-- **A Rayon service works off what it was given.** In every run from a reachable state in which
no new calls are made, whatever the order in which closures, cancellations, calls of `shutdown_now`
and those who wait for termination take their turns: those who are at work take no more steps than
were left to do. And where none of them can go on the service is at rest: every task has its
result, having run or having been cancelled, every call has returned, the books are empty, and if
the service was shut down it is terminated. -/
theorem rayon_works_off {s t : Service R E W} (hs : (machine R E W).Reach s)
    {as : List (Action R E)} (hrun : (machine R E W).exec (fun _ a => !a.calls) s as = some t) :
    as.countP Action.works + t.remaining ≤ s.remaining ∧
      (t.Still → t.Rested ∧ (t.shutdown = true → t.isTerminated = true)) := by
  have ht : (machine R E W).Reach t := Machine.reachVia_of_exec (fun _ _ _ => trivial) as hs hrun
  obtain ⟨-, hcount⟩ := Machine.exec_potential (M := machine R E W) (fun _ => True)
    Service.remaining Action.works (fun _ => false) 0 (fun _ _ _ _ _ _ => trivial)
    (fun u a u' _ ha hu => by
      rw [Bool.not_eq_true'] at ha
      simpa using remaining_step ha hu) as trivial hrun
  refine ⟨by simpa using hcount, fun hstill => ?_⟩
  have hrested := hstill.rested ht
  exact ⟨hrested, fun hshutdown => Core.isTerminated_iff.mpr ⟨hshutdown, hrested.books.1⟩⟩

/-- Where nothing is left to do, nobody can go on. -/
theorem still_of_remaining (h : s.remaining = 0) : s.Still := by
  intro a ha
  cases hstep : s.step a with
  | none => rfl
  | some s' =>
    have hcalls : a.calls = false := by
      rw [Action.works, Bool.and_eq_true, Bool.not_eq_true'] at ha
      exact ha.1
    have hle := remaining_step hcalls hstep
    rw [ha, h] at hle
    exact absurd hle (Nat.not_succ_le_zero _)

/-- One task is started and another one is cancelled by its handle while `shutdown_now` is about to
drain the map. After twenty-one steps both are over, and the service is terminated. -/
theorem rayon_works_off_two : ∃ s t : Service Unit Unit Unit,
    21 + t.remaining ≤ s.remaining ∧ t.tasks.map Task.run = [.finished, .skipped] ∧ t.Rested ∧
      t.isTerminated = true := by
  obtain ⟨s, hs, hp⟩ := Machine.exists_reachVia_of_exec (M := machine Unit Unit Unit)
    (fun _ _ => True) (fun _ _ => true) (fun _ _ _ => trivial) (s := .new) rfl
    [.submit, .holderNext [], .holderNext [], .holderNext [], .holderNext [], .holderNext [],
      .holderNext [], .spawn 0, .submit, .holderNext [], .holderNext [], .holderNext [],
      .holderNext [], .holderNext [], .holderNext [], .spawn 1, .shutdownNow, .cancel 1,
      .runNext 0]
    (fun s : Service Unit Unit Unit => ((machine Unit Unit Unit).exec (fun _ a => !a.calls) s
      [.handleNext 0, .holderNext [], .holderNext [], .runNext 0, .holderNext [], .handleNext 0,
        .runNext 0, .holderNext [], .isTerminated, .holderNext [], .handleNext 0, .runNext 1,
        .handleNext 0, .callReturns 0 .panic, .runNext 0, .runNext 0, .runNext 0, .runNext 0,
        .sweepNext 0, .sweepNext 0, .sweepNext 0, .sweepNext 0]).any
      fun t : Service Unit Unit Unit => decide (t.remaining = 0 ∧
        t.tasks.map Task.run = [.finished, .skipped] ∧ t.shutdown = true)) (by decide)
  obtain ⟨t, hrun, ht⟩ := (Option.any_eq_true ..).mp hp
  obtain ⟨hremaining, htasks, hshutdown⟩ := of_decide_eq_true ht
  obtain ⟨hcount, hrest⟩ := rayon_works_off hs hrun
  obtain ⟨hrested, hterminated⟩ := hrest (still_of_remaining hremaining)
  exact ⟨s, t, hcount, htasks, hrested, hterminated hshutdown⟩

end Rayon

end QubitConcurrent
