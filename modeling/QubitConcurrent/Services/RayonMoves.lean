import QubitConcurrent.Services.Rayon

/-!
# What the threads of a Rayon service do

The closure of a task, and a `shutdown_now` that has released the submission lock, go through
several phases. What they do in each is said here once, with what they have found
(`QubitConcurrent.Rayon.RunMove`, `QubitConcurrent.Rayon.SweepMove`); what is proved of their
steps elsewhere is proved move by move. The same is done for the holder of the submission lock
where its step has more than one outcome, and for those who wait for termination or ask for it.
-/

namespace QubitConcurrent

namespace Rayon

open Services

open TaskHandle (TaskHandleInner)

open ThreadPool (ShutdownReport)

variable {R E W : Type} {s s' : Service R E W}

/-! ### The closure of a task -/

/-- **What the closure of a task does in a step.** -/
inductive RunMove (s : Service R E W) (i : ℕ) : Service R E W → Prop
  /-- The task was cancelled; the closure returns. -/
  | skips (cell : TaskHandleInner R E W) (hi : s.tasks[i]? = some ⟨cell, .spawned⟩)
      (hcompleted : cell.completed = true) : RunMove s i (s.setTask i ⟨cell, .skipped⟩)
  /-- The closure starts the task. -/
  | starts (cell : TaskHandleInner R E W) (hi : s.tasks[i]? = some ⟨cell, .spawned⟩)
      (hcompleted : cell.completed = false) :
      RunMove s i (s.setTask i ⟨{ cell with started := true }, .unregistering⟩)
  /-- The task is removed from the map. -/
  | unregisters (cell : TaskHandleInner R E W) (hi : s.tasks[i]? = some ⟨cell, .unregistering⟩) :
      RunMove s i ((s.unregister i).setTask i ⟨cell, .unqueueing⟩)
  /-- The task is taken out of `queued_tasks`. -/
  | unqueues (cell : TaskHandleInner R E W) (hi : s.tasks[i]? = some ⟨cell, .unqueueing⟩) :
      RunMove s i (s.unqueue.setTask i ⟨cell, .executing⟩)
  /-- The task is taken out of `active_tasks`. -/
  | leaves (cell : TaskHandleInner R E W) (hi : s.tasks[i]? = some ⟨cell, .leaving⟩) :
      RunMove s i ({ s with toCore := s.leave.2 }.setTask i ⟨cell, Service.runAfter s.leave.1⟩)
  /-- `notify_if_terminated` takes a step. -/
  | announces (cell : TaskHandleInner R E W) (a : Announce)
      (hi : s.tasks[i]? = some ⟨cell, .announcing a⟩) :
      RunMove s i ({ s with toCore := (s.announce a).2 }.setTask i
        ⟨cell, Service.runAfter (s.announce a).1⟩)

/-- A step of the closure of a task is one of its moves. -/
theorem runNext_move {i : ℕ} (hstep : s.runNext i = some s') : RunMove s i s' := by
  rw [Service.runNext] at hstep
  split at hstep
  · next cell hi =>
    obtain rfl := Option.some.inj hstep
    cases hcompleted : cell.completed with
    | true =>
      have hstart : cell.start = (false, cell) := by rw [TaskHandleInner.start, if_pos hcompleted]
      rw [hstart]
      exact .skips cell hi hcompleted
    | false =>
      have hstart : cell.start = (true, { cell with started := true }) := by
        rw [TaskHandleInner.start, if_neg (by simp [hcompleted])]
      rw [hstart]
      exact .starts cell hi hcompleted
  · next cell hi =>
    obtain rfl := Option.some.inj hstep
    exact .unregisters cell hi
  · next cell hi =>
    obtain rfl := Option.some.inj hstep
    exact .unqueues cell hi
  · next cell hi =>
    obtain rfl := Option.some.inj hstep
    exact .leaves cell hi
  · next cell a hi =>
    obtain rfl := Option.some.inj hstep
    exact .announces cell a hi
  · exact absurd hstep (by simp)

/-! ### A `shutdown_now` that has released the submission lock -/

/-- What comes after a step of `shutdown_now` inside `notify_if_terminated`. -/
def Service.sweepAfter (report : ShutdownReport) : Option Announce → Sweep
  | some a => .announcing a report
  | none => .returned report

/-- **What a `shutdown_now` that has released the submission lock does in a step.** -/
inductive SweepMove (s : Service R E W) (k : ℕ) : Service R E W → Prop
  /-- A cancellation has returned, and is counted if it was published. -/
  | counts (pending : List ℕ) (i : ℕ) (answer : Bool) (report : ShutdownReport)
      (hk : s.sweeps[k]? = some (.cancelling pending (some ⟨i, .returned answer⟩) report)) :
      SweepMove s k (s.setSweep k
        (.cancelling pending none (if answer then Service.count report else report)))
  /-- The cancellation it is in takes a step. -/
  | cancels (pending : List ℕ) (c : Cancel) (report : ShutdownReport)
      (hk : s.sweeps[k]? = some (.cancelling pending (some c) report))
      (r : Cancel × Service R E W) (hr : s.cancelNext c = some r) :
      SweepMove s k (r.2.setSweep k (.cancelling pending (some r.1) report))
  /-- The next of the tasks it has drained is to be cancelled. -/
  | picks (i : ℕ) (pending : List ℕ) (report : ShutdownReport)
      (hk : s.sweeps[k]? = some (.cancelling (i :: pending) none report)) :
      SweepMove s k (s.setSweep k (.cancelling pending (some ⟨i, .publishing⟩) report))
  /-- All it has drained was cancelled. -/
  | ends (report : ShutdownReport)
      (hk : s.sweeps[k]? = some (.cancelling [] none report)) :
      SweepMove s k (s.setSweep k (.announcing .loadShutdown report))
  /-- `notify_if_terminated` takes a step. -/
  | announces (a : Announce) (report : ShutdownReport)
      (hk : s.sweeps[k]? = some (.announcing a report)) :
      SweepMove s k ({ s with toCore := (s.announce a).2 }.setSweep k
        (Service.sweepAfter report (s.announce a).1))

/-- A step of a `shutdown_now` that has released the submission lock is one of its moves. -/
theorem sweepNext_move {k : ℕ} (hstep : s.sweepNext k = some s') : SweepMove s k s' := by
  rw [Service.sweepNext] at hstep
  split at hstep
  · next pending i answer report hk =>
    obtain rfl := Option.some.inj hstep
    exact .counts pending i answer report hk
  · next pending c report hc hk =>
    obtain ⟨r, hr, rfl⟩ := Option.map_eq_some_iff.mp hstep
    exact .cancels pending c report hk r hr
  · next i pending report hk =>
    obtain rfl := Option.some.inj hstep
    exact .picks i pending report hk
  · next report hk =>
    obtain rfl := Option.some.inj hstep
    exact .ends report hk
  · next a report hk =>
    have hmove := SweepMove.announces a report hk
    split at hstep
    · next a' c hc =>
      obtain rfl := Option.some.inj hstep
      rwa [hc] at hmove
    · next c hc =>
      obtain rfl := Option.some.inj hstep
      rwa [hc] at hmove
  · exact absurd hstep (by simp)

/-! ### The holder of the submission lock -/

/-- `submit_callable` releases the submission lock. -/
theorem holderNext_submitReleasing {i : ℕ} {order : List ℕ}
    (hstep : s.holderNext order (.submitReleasing i) = some s') :
    ∃ cell, s.tasks[i]? = some ⟨cell, .submitting⟩ ∧
      s' = s.release.setTask i ⟨cell, .unspawned⟩ := by
  rw [Service.holderNext] at hstep
  split at hstep
  · next cell hi => exact ⟨cell, hi, (Option.some.inj hstep).symm⟩
  · exact absurd hstep (by simp)

/-- `shutdown` is inside `notify_if_terminated`, and returns where that does. -/
theorem holderNext_shutdownAnnouncing {a : Announce} {order : List ℕ}
    (hstep : s.holderNext order (.shutdownAnnouncing a) = some s') :
    s' = { s with
      toCore := (s.announce a).2
      submissionLock := (s.announce a).1.map .shutdownAnnouncing
      replies := s.replies ++ (s.announce a).1.elim [.shutdown] fun _ => [] } := by
  rw [Service.holderNext] at hstep
  split at hstep
  · next a' c hc =>
    obtain rfl := Option.some.inj hstep
    rw [hc, Option.elim_some, List.append_nil]
    rfl
  · next c hc =>
    obtain rfl := Option.some.inj hstep
    rw [hc, Option.elim_none]
    rfl

/-- `shutdown_now` drains the map, in some order. -/
theorem holderNext_shutdownNowDraining {queued running : ℕ} {order : List ℕ}
    (hstep : s.holderNext order (.shutdownNowDraining queued running) = some s') :
    order.Perm s.pendingTasks ∧
      s' = { s with pendingTasks := [] }.hold (.shutdownNowReleasing order queued running) := by
  rw [Service.holderNext] at hstep
  split_ifs at hstep with horder
  exact ⟨horder, (Option.some.inj hstep).symm⟩

/-! ### Those who wait for termination, or ask for it -/

/-- Whether a step is one of those who wait for termination, or ask for it. -/
def Action.waits : Action R E → Bool
  | .await | .awaitNext _ | .awaitDrop _ | .isTerminated | .queryNext _ => true
  | _ => false

/-- Those who wait for termination, or ask for it, touch nothing else. -/
theorem step_turn {a : Action R E} (ha : a.waits = true) (hstep : s.step a = some s') :
    ∃ c, s.toCore.Turn c ∧ s' = { s with toCore := c } := by
  cases a with
  | await => exact ⟨_, .await, (Option.some.inj hstep).symm⟩
  | awaitNext k =>
    obtain ⟨c, hc, rfl⟩ := Option.map_eq_some_iff.mp hstep
    exact ⟨c, .awaitNext hc, rfl⟩
  | awaitDrop k =>
    obtain ⟨c, hc, rfl⟩ := Option.map_eq_some_iff.mp hstep
    exact ⟨c, .awaitDrop hc, rfl⟩
  | isTerminated => exact ⟨_, .query, (Option.some.inj hstep).symm⟩
  | queryNext k =>
    obtain ⟨c, hc, rfl⟩ := Option.map_eq_some_iff.mp hstep
    exact ⟨c, .queryNext hc, rfl⟩
  | _ => exact absurd ha Bool.false_ne_true

end Rayon

end QubitConcurrent
