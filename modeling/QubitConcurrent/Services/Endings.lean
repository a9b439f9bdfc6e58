import QubitConcurrent.Services.RayonEnd
import QubitConcurrent.Services.ThreadPerTaskEnd

/-!
# Nothing is left of a service that says it has terminated

A Rayon service and a thread-per-task service account for their tasks in different ways; what
one may conclude from an answer of theirs is the same. The answer is put together from two
loads at different moments, but orderly services (`QubitConcurrent.Services.Orderly`) do not
give it in vain, and a count that is right is zero only where every task is done.
-/

namespace QubitConcurrent

namespace Services

variable {R E W : Type}

/-- **What one may conclude from the end of a service.** In every run of a Rayon service and of
a thread-per-task service: from the moment on at which `is_terminated` has answered `true`, or
a wait for termination is over, every task that was ever admitted has a published result, none
is inside its callable, now or later, and no task is accepted any more. -/
theorem nothing_left_at_the_end :
    (∀ s t : Rayon.Service R E W, (Rayon.machine R E W).Reach s → s.toCore.Reported →
      (Rayon.machine R E W).Later s t →
      (∀ u ∈ t.tasks, u.cell.done = true ∧ u.run ≠ .executing) ∧
        t.tasks.length = s.tasks.length ∧
        ∀ i, .submit (.ok i) ∈ t.replies → i < s.tasks.length) ∧
    ∀ s t : ThreadPerTask.Service R E W, (ThreadPerTask.machine R E W).Reach s →
      s.toCore.Reported → (ThreadPerTask.machine R E W).Later s t →
      (∀ u ∈ t.tasks, u.cell.done = true ∧ u.phase ≠ .executing) ∧
        t.tasks.length = s.tasks.length ∧
        ∀ i, .submit (.ok i) ∈ t.replies → i < s.tasks.length := by
  constructor
  · intro s t hs hreported hlater
    have horderly := Rayon.orderly R E W
    have hterm := (horderly.stays_reported hs hreported hlater).1
    have hshutdown := (Core.isTerminated_iff.mp ((horderly.honest hs).reported hreported)).1
    exact ⟨Rayon.done_of_isTerminated (hlater.reach hs) hterm,
      (horderly.stays_closed hs hshutdown hlater).2⟩
  · intro s t hs hreported hlater
    have horderly := ThreadPerTask.orderly R E W
    have hterm := (horderly.stays_reported hs hreported hlater).1
    have hshutdown := (Core.isTerminated_iff.mp ((horderly.honest hs).reported hreported)).1
    exact ⟨ThreadPerTask.done_of_isTerminated (hlater.reach hs) hterm,
      (horderly.stays_closed hs hshutdown hlater).2⟩

/-- A task runs and its service is shut down; after that `is_terminated` answers `true`, or a
waiter returns, and the task is done. -/
theorem nothing_left_at_the_end_one :
    (∃ s : Rayon.Service Unit Unit Unit, s.tasks.length = 1 ∧ .answered true ∈ s.queries ∧
      ∀ u ∈ s.tasks, u.cell.done = true ∧ u.run ≠ .executing) ∧
    ∃ s : ThreadPerTask.Service Unit Unit Unit, s.tasks.length = 1 ∧ .returned ∈ s.waiters ∧
      ∀ u ∈ s.tasks, u.cell.done = true ∧ u.phase ≠ .executing := by
  constructor
  · obtain ⟨s, hs, hp⟩ := Machine.exists_reachVia_of_exec (M := Rayon.machine Unit Unit Unit)
      (fun _ _ => True) (fun _ _ => true) (fun _ _ _ => trivial) (s := .new) rfl
      [.submit, .holderNext [], .holderNext [], .holderNext [], .holderNext [], .holderNext [],
        .holderNext [], .spawn 0, .runNext 0, .runNext 0, .runNext 0, .shutdown, .holderNext [],
        .isTerminated, .queryNext 0, .callReturns 0 (.value ()), .runNext 0, .queryNext 0]
      (fun s => s.tasks.length == 1 && decide (.answered true ∈ s.queries)) (by decide)
    rw [Bool.and_eq_true, beq_iff_eq, decide_eq_true_eq] at hp
    exact ⟨s, hp.1, hp.2, (nothing_left_at_the_end.1 s s hs (Or.inl hp.2) .refl).1⟩
  · obtain ⟨s, hs, hp⟩ := Machine.exists_reachVia_of_exec
      (M := ThreadPerTask.machine Unit Unit Unit)
      (fun _ _ => True) (fun _ _ => true) (fun _ _ _ => trivial) (s := .new) rfl
      [.submit, .holderNext, .holderNext, .holderNext, .spawn 0 true, .taskNext 0, .shutdown,
        .holderNext, .wait, .waitNext 0, .waitNext 0, .callReturns 0 (.value ()), .taskNext 0,
        .waitNext 0]
      (fun s => s.tasks.length == 1 && decide (.returned ∈ s.waiters)) (by decide)
    rw [Bool.and_eq_true, beq_iff_eq, decide_eq_true_eq] at hp
    exact ⟨s, hp.1, hp.2, (nothing_left_at_the_end.2 s s hs
      (Or.inr ⟨_, hp.2, rfl⟩) .refl).1⟩

end Services

end QubitConcurrent
