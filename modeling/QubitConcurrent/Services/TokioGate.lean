import QubitConcurrent.Services.Tokio

/-!
# The gate behind a Tokio service

Who may still notify in a Tokio service: the guard of a task that was the last to leave, and
a call of `shutdown` or `shutdown_now`, which holds the submission lock to its end. Every
step of the service is one at the gate of `QubitConcurrent.Gate`
(`QubitConcurrent.Tokio.follows_step`), unless it notifies while a future of
`await_termination` has looked in vain and has no `Notified` yet. How the futures of the
tasks are polled does not matter, as long as a poll leaves the guard alone.
-/

namespace QubitConcurrent

namespace Tokio

open Services

variable {R E : Type} {poll : Task.Poll R E} {s s' : Service R E}

/-! ### What is owed -/

/-- What the guard of a task owes: a look, inside `notify_if_terminated`. -/
def FuturePhase.due : FuturePhase R E → ℕ
  | announcing _ _ => 1
  | _ => 0

/-- What a holder of the submission lock owes: a look, if it has come to set the flag. -/
def Holder.due : Holder → ℕ
  | submitChecking | submitCounting | submitReleasing => 0
  | _ => 1

namespace Service

/-- The number of guards and calls that are inside `notify_if_terminated`, or are bound to
call it because they set the flag. -/
def owed (s : Service R E) : ℕ :=
  (s.tasks.map fun t => t.future.due).sum + s.submissionLock.elim 0 Holder.due

/-- The gate behind the service. -/
def gate (s : Service R E) : Gate := s.toCore.gate s.owed

/-- Where a task moves, what is owed changes by what the task owes. -/
theorem owed_setTask {i : ℕ} {t : Task R E} (hi : s.tasks[i]? = some t) (t' : Task R E) :
    ∃ n, s.owed = n + t.future.due ∧ (s.setTask i t').owed = n + t'.future.due := by
  obtain ⟨n, hbefore, hafter⟩ := sum_map_set (fun t => t.future.due) hi t'
  refine ⟨n + s.submissionLock.elim 0 Holder.due, ?_, ?_⟩
  · rw [owed, hbefore]
    omega
  · simp only [owed, setTask]
    omega

/-- A task moves without going to notify. -/
theorem gate_setTask {i : ℕ} {t t' : Task R E} (hi : s.tasks[i]? = some t)
    (ht : t'.future.due = t.future.due) : (s.setTask i t').gate = s.gate := by
  obtain ⟨n, hbefore, hafter⟩ := owed_setTask hi t'
  change s.toCore.gate (s.setTask i t').owed = s.toCore.gate s.owed
  rw [hbefore, hafter, ht]

/-- An abort touches neither a guard nor anything but the tasks. -/
theorem abort_frame (s : Service R E) (i : ℕ) :
    ((s.abort i).tasks.map fun t => t.future.due).sum = (s.tasks.map fun t => t.future.due).sum ∧
      (s.abort i).toCore = s.toCore := by
  rw [abort]
  split
  · next t hi =>
    obtain ⟨n, hbefore, hafter⟩ :=
      sum_map_set (fun t => t.future.due) hi { t with aborted := true }
    exact ⟨hafter.trans hbefore.symm, rfl⟩
  · exact ⟨rfl, rfl⟩

end Service

/-- A guard that may be inside `notify_if_terminated` owes what that call owes. -/
theorem due_guardAfter (output : Option (TaskHandle.TaskResult R E)) (r : Option Announce) :
    (Service.guardAfter output r).due = Core.due r := by
  cases r <;> rfl

/-! ### Leaving the guard alone -/

/-- A way to poll that leaves the guard of a future that is not done with alone. -/
def Task.KeepsGuard (poll : Task.Poll R E) : Prop :=
  ∀ t answer t', poll t answer = some t' → t'.future.due = t.future.due

/-- The futures of `TokioExecutorService` keep their guards. -/
theorem keepsGuard_pollCallable : Task.KeepsGuard (Task.pollCallable : Task.Poll R E) := by
  intro t answer t' h
  unfold Task.pollCallable at h
  split at h
  · obtain rfl := Option.some.inj h
    rfl
  · obtain rfl := Option.some.inj h
    rfl
  · exact absurd h (by simp)

/-- The futures of `TokioIoExecutorService` keep their guards. -/
theorem keepsGuard_pollFuture : Task.KeepsGuard (Task.pollFuture : Task.Poll R E) := by
  intro t answer t' h
  unfold Task.pollFuture at h
  split at h
  · obtain rfl := Option.some.inj h
    cases answer <;> rfl
  · obtain rfl := Option.some.inj h
    cases answer <;> rfl
  · exact absurd h (by simp)

/-- Dropping a future leaves its guard for later. -/
theorem due_drop {t t' : Task R E} (h : t.drop = some t') : t'.future.due = t.future.due := by
  unfold Task.drop at h
  split at h
  · obtain rfl := Option.some.inj h
    rfl
  · obtain rfl := Option.some.inj h
    rfl
  · exact absurd h (by simp)

/-- Spawning a future does not drop its guard at once. -/
theorem due_spawn {inRuntime : Bool} {t t' : Task R E} (h : t.spawn inRuntime = some t') :
    t'.future.due = t.future.due := by
  unfold Task.spawn at h
  split at h
  · obtain rfl := Option.some.inj h
    cases inRuntime <;> rfl
  · exact absurd h (by simp)

/-- A blocking thread has nothing to do with the guard. -/
theorem due_closureStarts {t t' : Task R E} (h : t.closureStarts = some t') :
    t'.future.due = t.future.due := by
  unfold Task.closureStarts at h
  split at h
  · obtain rfl := Option.some.inj h
    rfl
  · exact absurd h (by simp)

/-- The end of a callable has nothing to do with the guard. -/
theorem due_closureReturns {outcome : TaskHandle.Outcome R E} {t t' : Task R E}
    (h : t.closureReturns outcome = some t') : t'.future.due = t.future.due := by
  unfold Task.closureReturns at h
  split at h
  · obtain rfl := Option.some.inj h
    rfl
  · exact absurd h (by simp)

/-- A cancellation only signals. -/
theorem due_cancel {t t' : Task R E} (h : t.cancel = some t') :
    t'.future.due = t.future.due := by
  rw [Task.cancel] at h
  split_ifs at h
  obtain rfl := Option.some.inj h
  rfl

/-! ### Undisturbed steps -/

/-- Whether a step calls `notify_waiters`. -/
def Action.broadcasts (s : Service R E) : Action R E → Bool
  | .guardNext i => (s.tasks[i]?).any fun t => (t.future matches .announcing .notify _)
  | .holderNext => s.submissionLock.any fun
    | .shutdownAnnouncing .notify | .shutdownNowAnnouncing .notify _ => true
    | _ => false
  | _ => false

/-- The step does not call `notify_waiters` while a future of `await_termination` is between
a failed check and the creation of its `Notified`. -/
def Action.Undisturbed (s : Service R E) (a : Action R E) : Prop :=
  a.broadcasts s = true → s.someExposed = false

/-- **A step beside the submission lock**: it leaves the lock and the flag alone, and is one
at the gate if nobody is disturbed. -/
structure Aside (undisturbed : Prop) (s s' : Service R E) : Prop where
  /-- The lock stays with its holder. -/
  lock : s'.submissionLock = s.submissionLock
  /-- The flag is left alone. -/
  shutdown : s'.shutdown = s.shutdown
  /-- The gate is followed. -/
  follows : undisturbed → s.gate.Follows s'.gate

/-- A step of one task that leaves its guard alone is one beside the lock. -/
theorem aside_onTask {ok : Prop} {i : ℕ} {f : Task R E → Option (Task R E)}
    (hf : ∀ t t', f t = some t' → t'.future.due = t.future.due) (hstep : s.onTask i f = some s') :
    Aside ok s s' := by
  obtain ⟨t, hi, hmap⟩ := Option.bind_eq_some_iff.mp hstep
  obtain ⟨t', ht', rfl⟩ := Option.map_eq_some_iff.mp hmap
  exact ⟨rfl, rfl, fun _ => Or.inl (Service.gate_setTask hi (hf t t' ht'))⟩

/-- The guard of a task moves beside the lock. -/
theorem aside_guardNext {i : ℕ} (hstep : s.guardNext i = some s') :
    Aside ((Action.guardNext i : Action R E).Undisturbed s) s s' := by
  rw [Service.guardNext] at hstep
  split at hstep
  · next submit output closure aborted hi =>
    obtain rfl := Option.some.inj hstep
    obtain ⟨n, hbefore, hafter⟩ := Service.owed_setTask hi
      ⟨submit, Service.guardAfter output s.leave.1, closure, aborted⟩
    rw [due_guardAfter] at hafter
    have hfollows := s.toCore.follows_leave n
    rw [← hafter] at hfollows
    refine ⟨rfl, rfl, fun _ => ?_⟩
    rw [Service.gate, hbefore]
    exact hfollows
  · next submit a output closure aborted hi =>
    obtain rfl := Option.some.inj hstep
    obtain ⟨n, hbefore, hafter⟩ := Service.owed_setTask hi
      ⟨submit, Service.guardAfter output (s.announce a).1, closure, aborted⟩
    rw [due_guardAfter] at hafter
    refine ⟨rfl, Core.shutdown_announce .., fun hok => ?_⟩
    have hfollows := s.toCore.follows_announce n a fun ha => hok (by
      simp [Action.broadcasts, hi, ha])
    rw [← hafter] at hfollows
    rw [Service.gate, hbefore]
    exact hfollows
  · exact absurd hstep (by simp)

/-- Whether a step is one of those who wait for termination, or ask for it. -/
def Action.waits : Action R E → Bool
  | .await | .awaitNext _ | .awaitDrop _ | .isTerminated | .queryNext _ => true
  | _ => false

/-- Those who wait for termination, or ask for it, touch nothing else. -/
theorem step_turn {a : Action R E} (ha : a.waits = true) (hstep : s.step poll a = some s') :
    ∃ c, s.toCore.Turn c ∧ s' = { s with toCore := c } := by
  cases a with
  | await => exact ⟨_, .await, (Option.some.inj hstep).symm⟩
  | awaitNext k =>
    obtain ⟨c, hc, rfl⟩ := Option.map_eq_some_iff.mp hstep
    exact ⟨c, .awaitNext hc, rfl⟩
  | awaitDrop k =>
    obtain ⟨c, hc, rfl⟩ := Option.map_eq_some_iff.mp hstep
    exact ⟨c, .awaitDrop hc, rfl⟩
  | isTerminated => exact ⟨_, .query, (Option.some.inj hstep).symm⟩
  | queryNext k =>
    obtain ⟨c, hc, rfl⟩ := Option.map_eq_some_iff.mp hstep
    exact ⟨c, .queryNext hc, rfl⟩
  | _ => exact absurd ha Bool.false_ne_true

/-- **What a step is**: a call takes the submission lock, its holder moves on, or the step is
one beside it. -/
theorem step_cases (hpoll : Task.KeepsGuard poll) {a : Action R E}
    (hstep : s.step poll a = some s') :
    (s.submissionLock = none ∧ ∃ h, s' = s.hold h ∧ h ≠ .submitCounting ∧ h.due ≤ 1) ∨
    (∃ h, a = .holderNext ∧ s.submissionLock = some h ∧ s' = s.holderNext h) ∨
    Aside (a.Undisturbed s) s s' := by
  cases a with
  | submit | shutdown | shutdownNow =>
    simp only [Service.step, Service.acquire] at hstep
    split_ifs at hstep with hlock
    obtain rfl := Option.some.inj hstep
    exact Or.inl ⟨hlock, _, rfl, by simp, by simp [Holder.due]⟩
  | holderNext =>
    obtain ⟨h, hlock, rfl⟩ := Option.map_eq_some_iff.mp hstep
    exact Or.inr (Or.inl ⟨h, rfl, hlock, rfl⟩)
  | spawn i inRuntime =>
    obtain ⟨t, ht, rfl⟩ := Option.map_eq_some_iff.mp hstep
    obtain ⟨hlock, hshutdown, hfollows⟩ := aside_onTask (fun _ _ => due_spawn) ht
    refine Or.inr (Or.inr ?_)
    split_ifs
    · exact ⟨hlock, hshutdown, hfollows⟩
    · exact ⟨hlock, hshutdown, hfollows⟩
  | list i =>
    simp only [Service.step, Service.list] at hstep
    split at hstep
    · next future closure aborted hi =>
      split_ifs at hstep
      obtain rfl := Option.some.inj hstep
      exact Or.inr (Or.inr ⟨rfl, rfl, fun _ => Or.inl (Service.gate_setTask hi rfl)⟩)
    · exact absurd hstep (by simp)
  | poll i answer => exact Or.inr (Or.inr (aside_onTask (fun t t' => hpoll t answer t') hstep))
  | drop i => exact Or.inr (Or.inr (aside_onTask (fun _ _ => due_drop) hstep))
  | guardNext i => exact Or.inr (Or.inr (aside_guardNext hstep))
  | closureStarts i => exact Or.inr (Or.inr (aside_onTask (fun _ _ => due_closureStarts) hstep))
  | closureReturns i outcome =>
    exact Or.inr (Or.inr (aside_onTask (fun _ _ => due_closureReturns) hstep))
  | cancel i => exact Or.inr (Or.inr (aside_onTask (fun _ _ => due_cancel) hstep))
  | await | awaitNext k | awaitDrop k | isTerminated | queryNext k =>
    obtain ⟨c, hturn, rfl⟩ := step_turn rfl hstep
    exact Or.inr (Or.inr ⟨rfl, hturn.shutdown, fun _ => hturn.follows _⟩)

/-- The holder of the submission lock follows the gate. -/
theorem follows_holderNext {h : Holder} (hlock : s.submissionLock = some h)
    (hopen : h = .submitCounting → s.shutdown = false)
    (hok : (Action.holderNext : Action R E).Undisturbed s) :
    s.gate.Follows (s.holderNext h).gate := by
  have howed : s.owed = (s.tasks.map fun t => t.future.due).sum + h.due := by
    rw [Service.owed, hlock, Option.elim_some]
  rw [Service.gate, howed]
  cases h with
  | submitChecking =>
    rw [Service.holderNext]
    split_ifs
    · exact .refl _
    · exact .refl _
  | submitCounting => exact Core.follows_enter (hopen rfl) _
  | submitReleasing =>
    refine Or.inl ?_
    simp [Service.gate, Service.holderNext, Service.owed, Task.new, FuturePhase.due, Holder.due]
  | shutdownStoring | shutdownNowStoring => exact Core.follows_close _ (Nat.succ_pos _)
  | shutdownNowReading | shutdownNowLocking running => exact .refl _
  | shutdownNowAborting pending report =>
    cases pending with
    | nil => exact .refl _
    | cons i pending =>
      -- an abort owes nothing, and the call goes on owing its look
      obtain ⟨hsum, hcore⟩ := s.abort_frame i
      refine Or.inl ?_
      simp [Service.gate, Service.owed, Service.holderNext, Service.hold, hsum, hcore, Holder.due]
  | shutdownAnnouncing a | shutdownNowAnnouncing a report =>
    have hfollows := s.toCore.follows_announce
      (s.tasks.map fun t => t.future.due).sum a fun ha => hok (by
        simp [Action.broadcasts, hlock, ha])
    rw [Service.holderNext]
    split
    · next a' c hc =>
      rw [hc] at hfollows
      exact hfollows
    · next c hc =>
      rw [hc] at hfollows
      exact hfollows

/-! ### Nobody enters a closed gate -/

namespace Service

/-- A submission that has loaded the flag unset, and has not counted its task yet, still
finds the flag unset: it holds the lock the flag is set under. -/
def Admitting (s : Service R E) : Prop :=
  s.submissionLock = some .submitCounting → s.shutdown = false

/-- Where nobody is being admitted, submissions are admitting. -/
theorem admitting_of_ne (h : s.submissionLock ≠ some .submitCounting) : s.Admitting :=
  fun hlock => absurd hlock h

/-- Only a holder who has just loaded the flag counts a task next. -/
theorem admitting_holderNext {h : Holder} : (s.holderNext h).Admitting := by
  cases h with
  | submitChecking =>
    rw [holderNext]
    split_ifs with hshutdown
    · exact admitting_of_ne nofun
    · exact fun _ => Bool.eq_false_iff.mpr hshutdown
  | shutdownNowAborting pending report =>
    cases pending with
    | nil => exact admitting_of_ne nofun
    | cons i pending => exact admitting_of_ne nofun
  | shutdownAnnouncing a | shutdownNowAnnouncing a report =>
    rw [holderNext]
    split
    · exact admitting_of_ne nofun
    · exact admitting_of_ne nofun
  | _ => exact admitting_of_ne nofun

end Service

/-- In every run submissions are admitting. -/
theorem admitting_of_reach (hpoll : Task.KeepsGuard poll)
    {ok : Service R E → Action R E → Prop} (hs : (machine poll).ReachVia ok s) :
    s.Admitting := by
  refine hs.invariant (I := Service.Admitting) ?_ ?_
  · intro s hinit
    rw [hinit]
    exact Service.admitting_of_ne nofun
  · intro s a s' _ hadmitting _ hstep
    rcases step_cases hpoll hstep with ⟨-, h, rfl, hne, -⟩ | ⟨h, -, -, rfl⟩ | haside
    · exact Service.admitting_of_ne fun hlock => hne (Option.some.inj hlock)
    · exact Service.admitting_holderNext
    · rw [Service.Admitting, haside.lock, haside.shutdown]
      exact hadmitting

/-! ### Every step -/

/-- **Every undisturbed step is one at the gate.** -/
theorem follows_step (hpoll : Task.KeepsGuard poll) (hadmitting : s.Admitting) {a : Action R E}
    (hok : a.Undisturbed s) (hstep : s.step poll a = some s') : s.gate.Follows s'.gate := by
  rcases step_cases hpoll hstep with ⟨hlock, h, rfl, -, hdue⟩ | ⟨h, rfl, hlock, rfl⟩ | haside
  · -- whoever takes the lock may owe a look from then on
    have howed : (s.hold h).owed = s.owed + h.due := by
      simp [Service.owed, Service.hold, hlock]
    rcases Nat.le_one_iff_eq_zero_or_eq_one.mp hdue with hzero | hone
    · refine Or.inl ?_
      rw [Service.gate, howed, hzero]
      rfl
    · refine .promise ?_
      rw [Service.gate, howed, hone]
      rfl
  · exact follows_holderNext hlock (fun hcounting => hadmitting (hcounting ▸ hlock)) hok
  · exact haside.follows hok

/-- **The gate behind an undisturbed run is one of an undisturbed gate.** -/
theorem gate_reach (hpoll : Task.KeepsGuard poll)
    (hs : (machine poll).ReachVia (fun s a => a.Undisturbed s) s) :
    Gate.machine.ReachVia Gate.Timely s.gate := by
  refine hs.simulate Service.gate (fun s hinit => by rw [hinit]; rfl) ?_
  exact fun s a s' hr hok hstep => follows_step hpoll (admitting_of_reach hpoll hr) hok hstep

end Tokio

end QubitConcurrent
