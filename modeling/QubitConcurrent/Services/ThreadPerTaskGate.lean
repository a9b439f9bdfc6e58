import QubitConcurrent.Services.ThreadPerTask

/-!
# Waiting for a thread-per-task service

`wait_for_termination` looks at the atomics and parks under `termination_lock`, but those
who notify do not take that lock. The service is followed step by step by the gate of
`QubitConcurrent.Gate`: nobody is admitted after the flag is set, because both happen under
the submission lock, and the last thread to end and every call that sets the flag look
whether they have to notify. What remains is the one thing a gate allows to go wrong, and
there is a schedule in which it does: `notify_all` is called while a waiter has looked in
vain and has not parked yet.
-/

namespace QubitConcurrent

open Services

namespace ThreadPerTask

variable {R E W : Type} {s s' : Service R E W}

/-- What a thread owes: a look, inside `notify_if_terminated`. -/
def TaskPhase.due : TaskPhase → ℕ
  | announcing _ => 1
  | _ => 0

/-- What a holder of the submission lock owes: a look, if it has come to set the flag. -/
def Holder.due : Holder → ℕ
  | submitChecking | submitCounting | submitReleasing => 0
  | _ => 1

/-- The number of threads and calls that are inside `notify_if_terminated`, or are bound to
call it because they set the flag. -/
def Service.owed (s : Service R E W) : ℕ :=
  (s.tasks.map fun t => t.phase.due).sum + s.submissionLock.elim 0 Holder.due

/-- Whether an action calls `notify_all`. -/
def Action.broadcasts (s : Service R E W) : Action R E → Bool
  | .taskNext i => (s.tasks[i]?).any fun t => t.phase == .announcing .notify
  | .holderNext => s.submissionLock.any fun
    | .shutdownAnnouncing .notify | .shutdownNowAnnouncing .notify _ => true
    | _ => false
  | _ => false

/-- The action does not call `notify_all` while a waiter is between its look and its
wait. -/
def Action.Undisturbed (s : Service R E W) (a : Action R E) : Prop :=
  a.broadcasts s = true → s.someExposed = false

/-- The gate behind the service. -/
def Service.gate (s : Service R E W) : Gate := s.toCore.gate s.owed

/-- Where a task moves, what is owed changes by what the task owes. -/
theorem Service.owed_setTask {i : ℕ} {t : Task R E W} (hi : s.tasks[i]? = some t)
    (t' : Task R E W) :
    ∃ n, s.owed = n + t.phase.due ∧ (s.setTask i t').owed = n + t'.phase.due := by
  obtain ⟨n, hbefore, hafter⟩ := sum_map_set (fun t => t.phase.due) hi t'
  refine ⟨n + s.submissionLock.elim 0 Holder.due, ?_, ?_⟩
  · rw [owed, hbefore]
    omega
  · simp only [owed, setTask]
    omega

/-- A task moves without going to notify. -/
theorem Service.gate_setTask {i : ℕ} {t t' : Task R E W} (hi : s.tasks[i]? = some t)
    (ht : t'.phase.due = t.phase.due) : (s.setTask i t').gate = s.gate := by
  obtain ⟨n, hbefore, hafter⟩ := owed_setTask hi t'
  change s.toCore.gate (s.setTask i t').owed = s.toCore.gate s.owed
  rw [hbefore, hafter, ht]

/-- A thread that may be inside `notify_if_terminated` owes what that call owes. -/
theorem due_afterAnnounce (r : Option Announce) :
    (Service.afterAnnounce r).due = Core.due r := by
  cases r <;> rfl

/-- **A step beside the submission lock**: it leaves the lock and the flag alone, and is one
at the gate if nobody is disturbed. -/
structure Aside (undisturbed : Prop) (s s' : Service R E W) : Prop where
  /-- The lock stays with its holder. -/
  lock : s'.submissionLock = s.submissionLock
  /-- The flag is left alone. -/
  shutdown : s'.shutdown = s.shutdown
  /-- The gate is followed. -/
  follows : undisturbed → s.gate.Follows s'.gate

/-- A task that moves without going to notify moves beside the lock. -/
theorem aside_setTask {ok : Prop} {i : ℕ} {t t' : Task R E W} (hi : s.tasks[i]? = some t)
    (ht : t'.phase.due = t.phase.due) : Aside ok s (s.setTask i t') :=
  ⟨rfl, rfl, fun _ => Or.inl (Service.gate_setTask hi ht)⟩

/-- The thread of a task moves beside the lock. -/
theorem aside_taskNext {i : ℕ} (hstep : s.taskNext i = some s') :
    Aside ((Action.taskNext i : Action R E).Undisturbed s) s s' := by
  rw [Service.taskNext] at hstep
  split at hstep
  · next cell hi =>
    obtain rfl := Option.some.inj hstep
    refine aside_setTask hi ?_
    cases cell.start.1 <;> rfl
  · next cell hi =>
    obtain rfl := Option.some.inj hstep
    obtain ⟨n, hbefore, hafter⟩ := Service.owed_setTask hi
      (⟨cell, Service.afterAnnounce s.leave.1⟩ : Task R E W)
    rw [due_afterAnnounce] at hafter
    have hfollows := s.toCore.follows_leave n
    rw [← hafter] at hfollows
    refine ⟨rfl, rfl, fun _ => ?_⟩
    rw [Service.gate, hbefore]
    exact hfollows
  · next cell a hi =>
    obtain rfl := Option.some.inj hstep
    obtain ⟨n, hbefore, hafter⟩ := Service.owed_setTask hi
      (⟨cell, Service.afterAnnounce (s.announce a).1⟩ : Task R E W)
    rw [due_afterAnnounce] at hafter
    refine ⟨rfl, Core.shutdown_announce .., fun hok => ?_⟩
    have hfollows := s.toCore.follows_announce n a fun ha => hok (by
      simp [Action.broadcasts, hi, ha])
    rw [← hafter] at hfollows
    rw [Service.gate, hbefore]
    exact hfollows
  · exact absurd hstep (by simp)

/-- A waiter moves beside the lock. -/
theorem aside_waitNext {ok : Prop} {k : ℕ} (hstep : s.waitNext k = some s') : Aside ok s s' := by
  rw [Service.waitNext] at hstep
  split at hstep
  · next hk =>
    split_ifs at hstep
    obtain rfl := Option.some.inj hstep
    exact ⟨rfl, rfl, fun _ => Core.follows_unexposed hk ⟨rfl, rfl⟩ (by rfl) _⟩
  · next hk =>
    split_ifs at hstep
    obtain rfl := Option.some.inj hstep
    exact ⟨rfl, rfl, fun _ => Core.follows_unexposed hk ⟨rfl, rfl⟩ (by rfl) _⟩
  · next hk =>
    obtain rfl := Option.some.inj hstep
    refine ⟨rfl, rfl, fun _ => ?_⟩
    by_cases hshutdown : s.shutdown = true
    · rw [if_pos hshutdown]
      exact Core.follows_unexposed hk ⟨rfl, rfl⟩ (by rfl) _
    · rw [if_neg hshutdown]
      exact Core.follows_look hk ⟨rfl, rfl⟩ ⟨rfl, rfl⟩
        (by simp [Core.isTerminated, hshutdown]) _
  · next hk =>
    split_ifs at hstep with hzero
    · obtain rfl := Option.some.inj hstep
      exact ⟨rfl, rfl, fun _ => Core.follows_unexposed hk ⟨rfl, rfl⟩ (by rfl) _⟩
    · obtain rfl := Option.some.inj hstep
      exact ⟨rfl, rfl, fun _ =>
        Core.follows_look hk ⟨rfl, rfl⟩ ⟨rfl, rfl⟩ (by simp [Core.isTerminated, hzero]) _⟩
  · next hk =>
    obtain rfl := Option.some.inj hstep
    exact ⟨rfl, rfl, fun _ => Core.follows_register hk ⟨rfl, rfl⟩ ⟨rfl, rfl⟩ _⟩
  · exact absurd hstep (by simp)

/-- **What a step is**: a call takes the submission lock, its holder moves on, or the step is
one beside it. -/
theorem step_cases {a : Action R E} (hstep : s.step a = some s') :
    (s.submissionLock = none ∧ ∃ h, s' = s.hold h ∧ h ≠ .submitCounting ∧ h.due ≤ 1) ∨
    (∃ h, a = .holderNext ∧ s.submissionLock = some h ∧ s' = s.holderNext h) ∨
    Aside (a.Undisturbed s) s s' := by
  cases a with
  | submit | shutdown | shutdownNow =>
    simp only [Service.step, Service.acquire] at hstep
    split_ifs at hstep with hlock
    obtain rfl := Option.some.inj hstep
    exact Or.inl ⟨hlock, _, rfl, by simp, by simp [Holder.due]⟩
  | holderNext =>
    obtain ⟨h, hlock, rfl⟩ := Option.map_eq_some_iff.mp hstep
    exact Or.inr (Or.inl ⟨h, rfl, hlock, rfl⟩)
  | spawn i created =>
    refine Or.inr (Or.inr ?_)
    simp only [Service.step, Service.spawn] at hstep
    split at hstep
    · next cell hi =>
      obtain rfl := Option.some.inj hstep
      split_ifs
      · exact ⟨rfl, rfl, fun _ => Or.inl (Service.gate_setTask hi rfl)⟩
      · exact ⟨rfl, rfl, fun _ => Or.inl (Service.gate_setTask hi rfl)⟩
    · exact absurd hstep (by simp)
  | taskNext i => exact Or.inr (Or.inr (aside_taskNext hstep))
  | callReturns i outcome =>
    refine Or.inr (Or.inr ?_)
    simp only [Service.step, Service.callReturns] at hstep
    split at hstep
    · next cell hi =>
      obtain rfl := Option.some.inj hstep
      exact aside_setTask hi rfl
    · exact absurd hstep (by simp)
  | taskUnwinds i =>
    refine Or.inr (Or.inr ?_)
    simp only [Service.step, Service.taskUnwinds] at hstep
    split at hstep
    · next cell hi =>
      obtain rfl := Option.some.inj hstep
      exact aside_setTask hi rfl
    · next cell hi =>
      obtain rfl := Option.some.inj hstep
      exact aside_setTask hi rfl
    · exact absurd hstep (by simp)
  | handleCancel i =>
    refine Or.inr (Or.inr ?_)
    simp only [Service.step, Service.handleCancel] at hstep
    split at hstep
    · exact absurd hstep (by simp)
    · exact absurd hstep (by simp)
    · exact absurd hstep (by simp)
    · next t _ _ hi =>
      obtain rfl := Option.some.inj hstep
      exact aside_setTask hi rfl
  | wait =>
    obtain rfl := Option.some.inj hstep
    exact Or.inr (Or.inr ⟨rfl, rfl, fun _ => Or.inl (Core.gate_addWaiter _ rfl rfl _)⟩)
  | waitNext k => exact Or.inr (Or.inr (aside_waitNext hstep))
  | wakeWaiter k =>
    refine Or.inr (Or.inr ?_)
    simp only [Service.step, Service.wakeWaiter] at hstep
    split at hstep
    · next hk =>
      obtain rfl := Option.some.inj hstep
      exact ⟨rfl, rfl, fun _ => Core.follows_away hk ⟨rfl, rfl⟩ (Or.inl rfl) _⟩
    · exact absurd hstep (by simp)
  | isTerminated =>
    obtain rfl := Option.some.inj hstep
    exact Or.inr (Or.inr ⟨rfl, rfl, fun _ => .refl _⟩)
  | queryNext k =>
    obtain ⟨c, hc, rfl⟩ := Option.map_eq_some_iff.mp hstep
    exact Or.inr (Or.inr ⟨rfl, Core.shutdown_queryNext hc,
      fun _ => Or.inl (Core.gate_queryNext hc _)⟩)

/-- The holder of the submission lock follows the gate. -/
theorem follows_holderNext {h : Holder} (hlock : s.submissionLock = some h)
    (hopen : h = .submitCounting → s.shutdown = false)
    (hok : (Action.holderNext : Action R E).Undisturbed s) :
    s.gate.Follows (s.holderNext h).gate := by
  have howed : s.owed = (s.tasks.map fun t => t.phase.due).sum + h.due := by
    rw [Service.owed, hlock, Option.elim_some]
  rw [Service.gate, howed]
  cases h with
  | submitChecking =>
    rw [Service.holderNext]
    split_ifs
    · exact .refl _
    · exact .refl _
  | submitCounting => exact Core.follows_enter (hopen rfl) _
  | submitReleasing =>
    refine Or.inl ?_
    simp [Service.gate, Service.holderNext, Service.owed, TaskPhase.due, Holder.due]
  | shutdownStoring => exact Core.follows_close _ (Nat.succ_pos _)
  | shutdownAnnouncing a =>
    have hfollows := s.toCore.follows_announce
      (s.tasks.map fun t => t.phase.due).sum a fun ha => hok (by
        simp [Action.broadcasts, hlock, ha])
    rw [Service.holderNext]
    split
    · next a' c hc =>
      rw [hc] at hfollows
      exact hfollows
    · next c hc =>
      rw [hc] at hfollows
      exact hfollows
  | shutdownNowStoring => exact Core.follows_close _ (Nat.succ_pos _)
  | shutdownNowReading => exact .refl _
  | shutdownNowAnnouncing a report =>
    have hfollows := s.toCore.follows_announce
      (s.tasks.map fun t => t.phase.due).sum a fun ha => hok (by
        simp [Action.broadcasts, hlock, ha])
    rw [Service.holderNext]
    split
    · next a' c hc =>
      rw [hc] at hfollows
      exact hfollows
    · next c hc =>
      rw [hc] at hfollows
      exact hfollows

/-- A submission that has loaded the flag unset, and has not counted its task yet, still
finds the flag unset: it holds the lock the flag is set under. -/
def Service.Admitting (s : Service R E W) : Prop :=
  s.submissionLock = some .submitCounting → s.shutdown = false

/-- Only a holder who has just loaded the flag counts a task next. -/
theorem Service.admitting_holderNext {h : Holder} : (s.holderNext h).Admitting := by
  cases h with
  | submitChecking =>
    rw [holderNext]
    split_ifs with hshutdown
    · exact nofun
    · exact fun _ => Bool.eq_false_iff.mpr hshutdown
  | shutdownAnnouncing a | shutdownNowAnnouncing a report =>
    rw [holderNext]
    split
    · exact nofun
    · exact nofun
  | _ => exact nofun

/-- In every run submissions are admitting. -/
theorem admitting_of_reach {ok : Service R E W → Action R E → Prop}
    (hs : (machine R E W).ReachVia ok s) : s.Admitting := by
  refine hs.invariant (I := Service.Admitting) ?_ ?_
  · intro s hinit
    rw [hinit]
    exact nofun
  · intro s a s' _ hadmitting _ hstep
    rcases step_cases hstep with ⟨-, h, rfl, hne, -⟩ | ⟨h, -, -, rfl⟩ | haside
    · exact fun hlock => absurd (Option.some.inj hlock) hne
    · exact Service.admitting_holderNext
    · rw [Service.Admitting, haside.lock, haside.shutdown]
      exact hadmitting

/-- **Every undisturbed step is one at the gate.** -/
theorem follows_step (hadmitting : s.Admitting) {a : Action R E} (hok : a.Undisturbed s)
    (hstep : s.step a = some s') : s.gate.Follows s'.gate := by
  rcases step_cases hstep with ⟨hlock, h, rfl, -, hdue⟩ | ⟨h, rfl, hlock, rfl⟩ | haside
  · -- whoever takes the lock may owe a look from then on
    have howed : (s.hold h).owed = s.owed + h.due := by
      simp [Service.owed, Service.hold, hlock]
    rcases Nat.le_one_iff_eq_zero_or_eq_one.mp hdue with hzero | hone
    · refine Or.inl ?_
      rw [Service.gate, howed, hzero]
      rfl
    · refine .promise ?_
      rw [Service.gate, howed, hone]
      rfl
  · exact follows_holderNext hlock (fun hcounting => hadmitting (hcounting ▸ hlock)) hok
  · exact haside.follows hok

/-- **The last notification is missed only by a waiter it was sent past.** In every run in
which `notify_all` is not called while a waiter has found the service not terminated and
has not parked yet: where the service is terminated and a waiter is parked un-notified, a
call of `notify_if_terminated` is outstanding. -/
theorem parked_waiter_is_notified (hs : (machine R E W).ReachVia (fun s a => a.Undisturbed s) s)
    (hterm : s.isTerminated = true) {w : Waiting} (hw : w ∈ s.waiters)
    (hparked : w.isParked = true) : 0 < s.owed := by
  have hgate : Gate.machine.ReachVia Gate.Timely s.gate := by
    refine hs.simulate Service.gate (fun s hinit => by rw [hinit]; rfl) ?_
    exact fun s a s' hr hok hstep => follows_step (admitting_of_reach hr) hok hstep
  by_contra hnot
  have hwaiting := Gate.waiting_eq_zero hgate hterm (Nat.eq_zero_of_not_pos hnot)
  exact absurd hparked (List.countP_eq_zero.mp hwaiting w hw)

/-- A waiter parks, and then the service is shut down: the notification is outstanding. -/
theorem parked_waiter_is_notified_by_shutdown :
    ∃ s : Service Unit Unit Unit, s.isTerminated = true ∧ .parked false ∈ s.waiters ∧
      0 < s.owed := by
  obtain ⟨s, hs, hp⟩ := Machine.exists_reachVia_of_exec (M := machine Unit Unit Unit)
    (fun s a => a.Undisturbed s) (fun s a => !a.broadcasts s || !s.someExposed)
    (fun s a h => by
      intro hbroadcasts
      simpa [hbroadcasts] using h)
    (s := .new) rfl
    [.wait, .waitNext 0, .waitNext 0, .waitNext 0, .shutdown, .holderNext]
    (fun s => s.isTerminated && decide (.parked false ∈ s.waiters)) (by decide)
  simp only [Bool.and_eq_true, decide_eq_true_eq] at hp
  exact ⟨s, hp.1, hp.2, parked_waiter_is_notified hs hp.1 hp.2 rfl⟩

/-- **A waiter parks after the last notification.** It finds the flag unset; before it
waits, `shutdown` sets the flag, finds no active task and notifies nobody. The waiter then
parks, the service is terminated, and nobody is left to notify it. -/
theorem notified_before_parked :
    ∃ s : Service Unit Unit Unit, (machine Unit Unit Unit).Reach s ∧ s.isTerminated = true ∧
      .parked false ∈ s.waiters ∧ s.owed = 0 ∧ s.tasks = [] ∧
      s.submissionLock = none := by
  obtain ⟨s, hs, hp⟩ := Machine.exists_reachVia_of_exec (M := machine Unit Unit Unit)
    (fun _ _ => True) (fun _ _ => true) (fun _ _ _ => trivial) (s := .new) rfl
    [.wait, .waitNext 0, .waitNext 0, .shutdown, .holderNext, .holderNext, .holderNext,
      .holderNext, .waitNext 0]
    (fun s => s.isTerminated && decide (.parked false ∈ s.waiters) && s.owed == 0 &&
      s.tasks.isEmpty && s.submissionLock.isNone) (by decide)
  simp only [Bool.and_eq_true, decide_eq_true_eq, beq_iff_eq, List.isEmpty_iff,
    Option.isNone_iff_eq_none, and_assoc] at hp
  exact ⟨s, hs, hp⟩

end ThreadPerTask

end QubitConcurrent
