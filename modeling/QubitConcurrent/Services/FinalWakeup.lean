import QubitConcurrent.Services.RayonGate
import QubitConcurrent.Services.TokioGate

/-!
# Awaiting the termination of a service

The futures `await_termination` hands out look whether the service is terminated, and create
their `Notified` only after they have found it is not. The three services that do so are
followed by the gate of `QubitConcurrent.Gate`, and so lose a final notification in one way
only: it is sent in between. Each of them does lose it in the shortest run there is – a
future looks, the service is shut down, the future creates its `Notified`.
-/

namespace QubitConcurrent

namespace Services

/-- Where the gate behind a terminated service is safe, a future that is pending and was not
woken is still going to be notified. -/
theorem Core.owed_pos_of_stranded {c : Core Await} {owed : ℕ}
    (hgate : Gate.machine.ReachVia Gate.Timely (c.gate owed)) (hterm : c.isTerminated = true)
    {w : Await} (hw : w ∈ c.waiters) (hstranded : w.isStranded = true) : 0 < owed := by
  by_contra hnot
  have hwaiting := Gate.waiting_eq_zero hgate hterm (Nat.eq_zero_of_not_pos hnot)
  have hnone : w.isWaiting = false :=
    Bool.eq_false_iff.mpr (List.countP_eq_zero.mp hwaiting w hw)
  cases w with
  | pending woken =>
    cases woken with
    | false => exact absurd hnone (by simp [Await.isWaiting])
    | true => exact absurd hstranded (by simp [Await.isStranded])
  | _ => exact absurd hstranded (by simp [Await.isStranded])

variable {R E W : Type}

/-- **The final notification is missed only by a future it was sent past.** In every run of
a Rayon service, a Tokio service or a Tokio service for futures in which `notify_waiters` is
not called while a future of `await_termination` is between a failed check and the creation
of its `Notified`: where the service is terminated and a future is pending on a `Notified`
that was not woken, a task, a `shutdown` or a `shutdown_now` is still going to notify. -/
theorem final_notification_reaches_futures :
    (∀ s : Rayon.Service R E W, (Rayon.machine R E W).ReachVia (fun s a => a.Undisturbed s) s →
      s.isTerminated = true → (∃ w ∈ s.waiters, w.isStranded = true) → 0 < s.owed) ∧
    (∀ s : Tokio.Service R E, (Tokio.executorMachine R E).ReachVia (fun s a => a.Undisturbed s) s →
      s.isTerminated = true → (∃ w ∈ s.waiters, w.isStranded = true) → 0 < s.owed) ∧
    ∀ s : Tokio.Service R E, (Tokio.ioExecutorMachine R E).ReachVia (fun s a => a.Undisturbed s) s →
      s.isTerminated = true → (∃ w ∈ s.waiters, w.isStranded = true) → 0 < s.owed := by
  refine ⟨?_, ?_, ?_⟩
  · rintro s hs hterm ⟨w, hw, hstranded⟩
    exact Core.owed_pos_of_stranded (Rayon.gate_reach hs) hterm hw hstranded
  · rintro s hs hterm ⟨w, hw, hstranded⟩
    exact Core.owed_pos_of_stranded (Tokio.gate_reach Tokio.keepsGuard_pollCallable hs) hterm hw
      hstranded
  · rintro s hs hterm ⟨w, hw, hstranded⟩
    exact Core.owed_pos_of_stranded (Tokio.gate_reach Tokio.keepsGuard_pollFuture hs) hterm hw
      hstranded

/-- A future is pending when the service is shut down: the notification is owed. -/
theorem final_notification_owed_by_shutdown :
    (∃ s : Rayon.Service Unit Unit Unit, s.isTerminated = true ∧ .pending false ∈ s.waiters ∧
      0 < s.owed) ∧
    (∃ s : Tokio.Service Unit Unit, s.isTerminated = true ∧ .pending false ∈ s.waiters ∧
      0 < s.owed) ∧
    ∃ s : Tokio.Service Unit Unit, s.isTerminated = true ∧ .pending false ∈ s.waiters ∧
      0 < s.owed := by
  refine ⟨?_, ?_, ?_⟩
  · obtain ⟨s, hs, hp⟩ := Machine.exists_reachVia_of_exec (M := Rayon.machine Unit Unit Unit)
      (fun s a => a.Undisturbed s) (fun s a => !a.broadcasts s || !s.someExposed)
      (fun s a h hbroadcasts => by simpa [hbroadcasts] using h) (s := .new) rfl
      [.await, .awaitNext 0, .awaitNext 0, .awaitNext 0, .shutdown, .holderNext []]
      (fun s => s.isTerminated && decide (.pending false ∈ s.waiters)) (by decide)
    simp only [Bool.and_eq_true, decide_eq_true_eq] at hp
    exact ⟨s, hp.1, hp.2, final_notification_reaches_futures.1 s hs hp.1 ⟨_, hp.2, rfl⟩⟩
  · obtain ⟨s, hs, hp⟩ := Machine.exists_reachVia_of_exec (M := Tokio.executorMachine Unit Unit)
      (fun s a => a.Undisturbed s) (fun s a => !a.broadcasts s || !s.someExposed)
      (fun s a h hbroadcasts => by simpa [hbroadcasts] using h) (s := .new) rfl
      [.await, .awaitNext 0, .awaitNext 0, .awaitNext 0, .shutdown, .holderNext]
      (fun s => s.isTerminated && decide (.pending false ∈ s.waiters)) (by decide)
    simp only [Bool.and_eq_true, decide_eq_true_eq] at hp
    exact ⟨s, hp.1, hp.2, (final_notification_reaches_futures (W := Unit)).2.1 s hs hp.1
      ⟨_, hp.2, rfl⟩⟩
  · obtain ⟨s, hs, hp⟩ := Machine.exists_reachVia_of_exec (M := Tokio.ioExecutorMachine Unit Unit)
      (fun s a => a.Undisturbed s) (fun s a => !a.broadcasts s || !s.someExposed)
      (fun s a h hbroadcasts => by simpa [hbroadcasts] using h) (s := .new) rfl
      [.await, .awaitNext 0, .awaitNext 0, .awaitNext 0, .shutdown, .holderNext]
      (fun s => s.isTerminated && decide (.pending false ∈ s.waiters)) (by decide)
    simp only [Bool.and_eq_true, decide_eq_true_eq] at hp
    exact ⟨s, hp.1, hp.2, (final_notification_reaches_futures (W := Unit)).2.2 s hs hp.1
      ⟨_, hp.2, rfl⟩⟩

/-- **A future creates its `Notified` after the last notification.** It finds the service
running; before it creates its `Notified`, the last task ends after a `shutdown`, sees that
the service is terminated and notifies nobody. The future is then pending on a `Notified`
that nobody is left to wake, in each of the three services. -/
theorem notified_before_created :
    (∃ s : Rayon.Service Unit Unit Unit, (Rayon.machine Unit Unit Unit).Reach s ∧
      s.isTerminated = true ∧ .pending false ∈ s.waiters ∧ s.owed = 0 ∧
      s.submissionLock = none ∧ s.sweeps = [] ∧ s.cancels = [] ∧
      s.tasks.all (fun t => t.run == .finished) = true) ∧
    (∃ s : Tokio.Service Unit Unit, (Tokio.executorMachine Unit Unit).Reach s ∧
      s.isTerminated = true ∧ .pending false ∈ s.waiters ∧ s.owed = 0 ∧
      s.submissionLock = none ∧ s.tasks.all (fun t => t.future matches .ended _) = true) ∧
    ∃ s : Tokio.Service Unit Unit, (Tokio.ioExecutorMachine Unit Unit).Reach s ∧
      s.isTerminated = true ∧ .pending false ∈ s.waiters ∧ s.owed = 0 ∧
      s.submissionLock = none ∧ s.tasks.all (fun t => t.future matches .ended _) = true := by
  refine ⟨?_, ?_, ?_⟩
  · obtain ⟨s, hs, hp⟩ := Machine.exists_reachVia_of_exec (M := Rayon.machine Unit Unit Unit)
      (fun _ _ => True) (fun _ _ => true) (fun _ _ _ => trivial) (s := .new) rfl
      [.submit, .holderNext [], .holderNext [], .holderNext [], .holderNext [], .holderNext [],
        .holderNext [], .spawn 0, .runNext 0, .runNext 0, .runNext 0, .callReturns 0 (.value ()),
        .await, .awaitNext 0, .shutdown, .holderNext [], .holderNext [], .holderNext [],
        .runNext 0, .runNext 0, .runNext 0, .runNext 0, .awaitNext 0, .awaitNext 0]
      (fun s => s.isTerminated && decide (.pending false ∈ s.waiters) && s.owed == 0 &&
        s.submissionLock.isNone && s.sweeps.isEmpty && s.cancels.isEmpty &&
        s.tasks.all fun t => t.run == .finished) (by decide)
    simp only [Bool.and_eq_true, decide_eq_true_eq, beq_iff_eq, Option.isNone_iff_eq_none,
      List.isEmpty_iff, and_assoc] at hp
    exact ⟨s, hs, hp⟩
  · obtain ⟨s, hs, hp⟩ := Machine.exists_reachVia_of_exec (M := Tokio.executorMachine Unit Unit)
      (fun _ _ => True) (fun _ _ => true) (fun _ _ _ => trivial) (s := .new) rfl
      [.submit, .holderNext, .holderNext, .holderNext, .spawn 0 true, .list 0, .poll 0 none,
        .closureStarts 0, .closureReturns 0 (.value ()), .poll 0 none, .await, .awaitNext 0,
        .shutdown, .holderNext, .holderNext, .holderNext, .guardNext 0, .guardNext 0,
        .guardNext 0, .guardNext 0, .awaitNext 0, .awaitNext 0]
      (fun s => s.isTerminated && decide (.pending false ∈ s.waiters) && s.owed == 0 &&
        s.submissionLock.isNone && s.tasks.all fun t => t.future matches .ended _) (by decide)
    simp only [Bool.and_eq_true, decide_eq_true_eq, beq_iff_eq, Option.isNone_iff_eq_none,
      and_assoc] at hp
    exact ⟨s, hs, hp⟩
  · obtain ⟨s, hs, hp⟩ := Machine.exists_reachVia_of_exec (M := Tokio.ioExecutorMachine Unit Unit)
      (fun _ _ => True) (fun _ _ => true) (fun _ _ _ => trivial) (s := .new) rfl
      [.submit, .holderNext, .holderNext, .holderNext, .spawn 0 true, .list 0,
        .poll 0 (some (.value ())), .await, .awaitNext 0, .shutdown, .holderNext, .holderNext,
        .holderNext, .guardNext 0, .guardNext 0, .guardNext 0, .guardNext 0, .awaitNext 0,
        .awaitNext 0]
      (fun s => s.isTerminated && decide (.pending false ∈ s.waiters) && s.owed == 0 &&
        s.submissionLock.isNone && s.tasks.all fun t => t.future matches .ended _) (by decide)
    simp only [Bool.and_eq_true, decide_eq_true_eq, beq_iff_eq, Option.isNone_iff_eq_none,
      and_assoc] at hp
    exact ⟨s, hs, hp⟩

end Services

end QubitConcurrent
