import QubitConcurrent.Services.RayonMoves

/-!
# The gate behind a Rayon service

Who may still notify in a Rayon service: the closure of a task that was the last to leave,
a cancellation that was, a call of `shutdown` or `shutdown_now` that holds the submission
lock, and a `shutdown_now` that has released it and is busy cancelling. Every step of the
service is one at the gate of `QubitConcurrent.Gate`
(`QubitConcurrent.Rayon.follows_step`), unless it notifies while a future of
`await_termination` has looked in vain and has no `Notified` yet.
-/

namespace QubitConcurrent

namespace Rayon

open Services

variable {R E W : Type} {s s' : Service R E W}

/-! ### What is owed -/

/-- What the closure of a task owes: a look, inside `notify_if_terminated`. -/
def RunPhase.due : RunPhase → ℕ
  | announcing _ => 1
  | _ => 0

/-- What a cancellation owes: a look, inside `notify_if_terminated`. -/
def CancelPhase.due : CancelPhase → ℕ
  | announcing _ => 1
  | _ => 0

/-- What a `shutdown_now` that has released the submission lock owes: a look at its end, and
what the cancellation owes that it is in. -/
def Sweep.due : Sweep → ℕ
  | cancelling _ current _ => 1 + current.elim 0 fun c => c.phase.due
  | announcing _ _ => 1
  | returned _ => 0

/-- What a holder of the submission lock owes: a look, if it has come to set the flag. -/
def Holder.due : Holder → ℕ
  | shutdownStoring | shutdownAnnouncing _ | shutdownNowStoring | shutdownNowCounting
  | shutdownNowReading _ | shutdownNowDraining _ _ | shutdownNowReleasing _ _ _ => 1
  | _ => 0

namespace Service

/-- The number of closures and calls that are inside `notify_if_terminated`, or are bound to
call it because they set the flag. -/
def owed (s : Service R E W) : ℕ :=
  (s.tasks.map fun t => t.run.due).sum + (s.cancels.map fun c => c.phase.due).sum +
    (s.sweeps.map Sweep.due).sum + s.submissionLock.elim 0 Holder.due

/-- The gate behind the service. -/
def gate (s : Service R E W) : Gate := s.toCore.gate s.owed

/-- Where a task moves, what is owed changes by what the task owes. -/
theorem owed_setTask {i : ℕ} {t : Task R E W} (hi : s.tasks[i]? = some t) (t' : Task R E W) :
    ∃ n, s.owed = n + t.run.due ∧ (s.setTask i t').owed = n + t'.run.due := by
  obtain ⟨n, hbefore, hafter⟩ := sum_map_set (fun t => t.run.due) hi t'
  refine ⟨n + (s.cancels.map fun c => c.phase.due).sum + (s.sweeps.map Sweep.due).sum +
    s.submissionLock.elim 0 Holder.due, ?_, ?_⟩
  · rw [owed, hbefore]
    omega
  · simp only [owed, setTask]
    omega

/-- Where a call of `shutdown_now` moves, what is owed changes by what the call owes. -/
theorem owed_setSweep {k : ℕ} {w : Sweep} (hk : s.sweeps[k]? = some w) (w' : Sweep) :
    ∃ n, s.owed = n + w.due ∧ (s.setSweep k w').owed = n + w'.due := by
  obtain ⟨n, hbefore, hafter⟩ := sum_map_set Sweep.due hk w'
  refine ⟨(s.tasks.map fun t => t.run.due).sum + (s.cancels.map fun c => c.phase.due).sum + n +
    s.submissionLock.elim 0 Holder.due, ?_, ?_⟩
  · rw [owed, hbefore]
    omega
  · simp only [owed, setSweep]
    omega

/-- Where a cancellation by a handle moves, what is owed changes by what it owes. -/
theorem owed_setCancel {k : ℕ} {c : Cancel} (hk : s.cancels[k]? = some c) (c' : Cancel) :
    ∃ n, s.owed = n + c.phase.due ∧
      ({ s with cancels := s.cancels.set k c' } : Service R E W).owed = n + c'.phase.due := by
  obtain ⟨n, hbefore, hafter⟩ := sum_map_set (fun c => c.phase.due) hk c'
  refine ⟨(s.tasks.map fun t => t.run.due).sum + n + (s.sweeps.map Sweep.due).sum +
    s.submissionLock.elim 0 Holder.due, ?_, ?_⟩
  · rw [owed, hbefore]
    omega
  · simp only [owed]
    omega

/-- A task moves without going to notify. -/
theorem gate_setTask {i : ℕ} {t t' : Task R E W} (hi : s.tasks[i]? = some t)
    (ht : t'.run.due = t.run.due) : (s.setTask i t').gate = s.gate := by
  obtain ⟨n, hbefore, hafter⟩ := owed_setTask hi t'
  change s.toCore.gate (s.setTask i t').owed = s.toCore.gate s.owed
  rw [hbefore, hafter, ht]

/-- A call of `shutdown_now` moves without going to notify. -/
theorem gate_setSweep {k : ℕ} {w w' : Sweep} (hk : s.sweeps[k]? = some w)
    (hw : w'.due = w.due) : (s.setSweep k w').gate = s.gate := by
  obtain ⟨n, hbefore, hafter⟩ := owed_setSweep hk w'
  change s.toCore.gate (s.setSweep k w').owed = s.toCore.gate s.owed
  rw [hbefore, hafter, hw]

end Service

/-- A closure that may be inside `notify_if_terminated` owes what that call owes. -/
theorem due_runAfter (r : Option Announce) : (Service.runAfter r).due = Core.due r := by
  cases r <;> rfl

/-- A cancellation that may be inside `notify_if_terminated` owes what that call owes. -/
theorem due_cancelAfter (r : Option Announce) : (Service.cancelAfter r).due = Core.due r := by
  cases r <;> rfl

/-- A `shutdown_now` that may be inside `notify_if_terminated` owes what that call owes. -/
theorem due_sweepAfter (report : ThreadPool.ShutdownReport) (r : Option Announce) :
    (Service.sweepAfter report r).due = Core.due r := by
  cases r <;> rfl

/-- A `shutdown` that may be inside `notify_if_terminated` owes what that call owes. -/
theorem due_shutdownAfter (r : Option Announce) :
    (r.map Holder.shutdownAnnouncing).elim 0 Holder.due = Core.due r := by
  cases r <;> rfl

/-! ### Undisturbed steps -/

/-- Whether a step calls `notify_waiters`. -/
def Action.broadcasts (s : Service R E W) : Action R E → Bool
  | .runNext i => (s.tasks[i]?).any fun t => t.run == .announcing .notify
  | .handleNext k => (s.cancels[k]?).any fun c => c.phase == .announcing .notify
  | .sweepNext k => (s.sweeps[k]?).any fun
    | .cancelling _ (some c) _ => c.phase == .announcing .notify
    | .announcing .notify _ => true
    | _ => false
  | .holderNext _ => s.submissionLock.any (· matches .shutdownAnnouncing .notify)
  | _ => false

/-- The step does not call `notify_waiters` while a future of `await_termination` is between
a failed check and the creation of its `Notified`. -/
def Action.Undisturbed (s : Service R E W) (a : Action R E) : Prop :=
  a.broadcasts s = true → s.someExposed = false

/-- **A step beside the submission lock**: it leaves the lock and the flag alone, and is one
at the gate if nobody is disturbed. -/
structure Aside (undisturbed : Prop) (s s' : Service R E W) : Prop where
  /-- The lock stays with its holder. -/
  lock : s'.submissionLock = s.submissionLock
  /-- The flag is left alone. -/
  shutdown : s'.shutdown = s.shutdown
  /-- The gate is followed. -/
  follows : undisturbed → s.gate.Follows s'.gate

/-- A task that moves without going to notify moves beside the lock. -/
theorem aside_setTask {ok : Prop} {i : ℕ} {t t' : Task R E W} (hi : s.tasks[i]? = some t)
    (ht : t'.run.due = t.run.due) : Aside ok s (s.setTask i t') :=
  ⟨rfl, rfl, fun _ => Or.inl (Service.gate_setTask hi ht)⟩

/-- A call of `shutdown_now` that moves without going to notify moves beside the lock. -/
theorem aside_setSweep {ok : Prop} {k : ℕ} {w w' : Sweep} (hk : s.sweeps[k]? = some w)
    (hw : w'.due = w.due) : Aside ok s (s.setSweep k w') :=
  ⟨rfl, rfl, fun _ => Or.inl (Service.gate_setSweep hk hw)⟩

/-- The closure of a task moves beside the lock. -/
theorem aside_runNext {i : ℕ} (hstep : s.runNext i = some s') :
    Aside ((Action.runNext i : Action R E).Undisturbed s) s s' := by
  cases runNext_move hstep with
  | skips cell hi hcompleted => exact aside_setTask hi rfl
  | starts cell hi hcompleted => exact aside_setTask hi rfl
  | unregisters cell hi =>
    exact ⟨rfl, rfl, fun _ => Or.inl (Service.gate_setTask (s := s.unregister i) hi rfl)⟩
  | unqueues cell hi =>
    exact ⟨rfl, rfl, fun _ => Or.inl (Service.gate_setTask (s := s.unqueue) hi rfl)⟩
  | leaves cell hi =>
    obtain ⟨n, hbefore, hafter⟩ := Service.owed_setTask hi
      (⟨cell, Service.runAfter s.leave.1⟩ : Task R E W)
    rw [due_runAfter] at hafter
    have hfollows := s.toCore.follows_leave n
    rw [← hafter] at hfollows
    refine ⟨rfl, rfl, fun _ => ?_⟩
    rw [Service.gate, hbefore]
    exact hfollows
  | announces cell a hi =>
    obtain ⟨n, hbefore, hafter⟩ := Service.owed_setTask hi
      (⟨cell, Service.runAfter (s.announce a).1⟩ : Task R E W)
    rw [due_runAfter] at hafter
    refine ⟨rfl, Core.shutdown_announce .., fun hok => ?_⟩
    have hfollows := s.toCore.follows_announce n a fun ha => hok (by
      simp [Action.broadcasts, hi, ha])
    rw [← hafter] at hfollows
    rw [Service.gate, hbefore]
    exact hfollows

/-- **What a step of a cancellation does.** It leaves the lock and the flag, the other
cancellations and what others owe alone; and it follows the gate, whatever else is owed. -/
theorem cancelNext_spec {c : Cancel} {r : Cancel × Service R E W}
    (hstep : s.cancelNext c = some r) :
    (r.2.submissionLock = s.submissionLock ∧ r.2.shutdown = s.shutdown) ∧
      (r.2.owed = s.owed ∧ r.2.cancels = s.cancels ∧ r.2.sweeps = s.sweeps) ∧
      ∀ n, (c.phase = .announcing .notify → s.someExposed = false) →
        (s.toCore.gate (n + c.phase.due)).Follows (r.2.toCore.gate (n + r.1.phase.due)) := by
  obtain ⟨i, phase⟩ := c
  rw [Service.cancelNext] at hstep
  cases phase with
  | publishing =>
    simp only at hstep
    split at hstep
    · next t hi =>
      obtain rfl := Option.some.inj hstep
      obtain ⟨n, hbefore, hafter⟩ := Service.owed_setTask hi { t with cell := t.cell.cancel.2 }
      refine ⟨⟨rfl, rfl⟩, ⟨hafter.trans hbefore.symm, rfl, rfl⟩, fun n _ => Or.inl ?_⟩
      cases t.cell.cancel.1.1 <;> rfl
    · exact absurd hstep (by simp)
  | unregistering | unqueueing =>
    obtain rfl := Option.some.inj hstep
    exact ⟨⟨rfl, rfl⟩, ⟨rfl, rfl, rfl⟩, fun n _ => .refl _⟩
  | leaving =>
    obtain rfl := Option.some.inj hstep
    refine ⟨⟨rfl, rfl⟩, ⟨rfl, rfl, rfl⟩, fun n _ => ?_⟩
    rw [due_cancelAfter]
    exact s.toCore.follows_leave n
  | announcing a =>
    obtain rfl := Option.some.inj hstep
    refine ⟨⟨rfl, Core.shutdown_announce ..⟩, ⟨rfl, rfl, rfl⟩, fun n hok => ?_⟩
    rw [due_cancelAfter]
    exact s.toCore.follows_announce n a fun ha => hok (by rw [ha])
  | returned answer => exact absurd hstep (by simp)

/-- A cancellation by a handle moves beside the lock. -/
theorem aside_handleNext {k : ℕ} (hstep : s.handleNext k = some s') :
    Aside ((Action.handleNext k : Action R E).Undisturbed s) s s' := by
  rw [Service.handleNext] at hstep
  split at hstep
  · next c hk =>
    obtain ⟨r, hr, rfl⟩ := Option.map_eq_some_iff.mp hstep
    obtain ⟨⟨hlock, hshutdown⟩, ⟨howed, hcancels, -⟩, hfollows⟩ := cancelNext_spec hr
    refine ⟨hlock, hshutdown, fun hok => ?_⟩
    obtain ⟨n, hbefore, hafter⟩ := Service.owed_setCancel (s := r.2)
      (by rw [hcancels]; exact hk) r.1
    have hn := hfollows n fun hphase => hok (by simp [Action.broadcasts, hk, hphase])
    rw [← hbefore, ← hafter, howed] at hn
    exact hn
  · exact absurd hstep (by simp)

/-- A call of `shutdown_now` that has released the submission lock moves beside it. -/
theorem aside_sweepNext {k : ℕ} (hstep : s.sweepNext k = some s') :
    Aside ((Action.sweepNext k : Action R E).Undisturbed s) s s' := by
  cases sweepNext_move hstep with
  | counts pending i answer report hk => exact aside_setSweep hk rfl
  | cancels pending c report hk r hr =>
    obtain ⟨⟨hlock, hshutdown⟩, ⟨howed, -, hsweeps⟩, hfollows⟩ := cancelNext_spec hr
    refine ⟨hlock, hshutdown, fun hok => ?_⟩
    obtain ⟨n, hbefore, hafter⟩ := Service.owed_setSweep (s := r.2)
      (by rw [hsweeps]; exact hk) (.cancelling pending (some r.1) report)
    have hn := hfollows (n + 1) fun hphase => hok (by simp [Action.broadcasts, hk, hphase])
    simp only [Sweep.due, Option.elim_some, ← Nat.add_assoc] at hbefore hafter
    rw [← hbefore, ← hafter, howed] at hn
    exact hn
  | picks i pending report hk => exact aside_setSweep hk rfl
  | ends report hk => exact aside_setSweep hk rfl
  | announces a report hk =>
    obtain ⟨n, hbefore, hafter⟩ := Service.owed_setSweep hk
      (Service.sweepAfter report (s.announce a).1)
    rw [due_sweepAfter] at hafter
    refine ⟨rfl, Core.shutdown_announce .., fun hok => ?_⟩
    have hfollows := s.toCore.follows_announce n a fun ha => hok (by
      simp [Action.broadcasts, hk, ha])
    rw [← hafter] at hfollows
    rw [Service.gate, hbefore]
    exact hfollows

/-- **What a step is**: a call takes the submission lock, its holder moves on, or the step is
one beside it. -/
theorem step_cases {a : Action R E} (hstep : s.step a = some s') :
    (s.submissionLock = none ∧ ∃ h, s' = s.hold h ∧ h ≠ .submitNumbering ∧
      (∀ i, h ≠ .submitCounting i) ∧ h.due ≤ 1) ∨
    (∃ h order, a = .holderNext order ∧ s.submissionLock = some h ∧
      s.holderNext order h = some s') ∨
    Aside (a.Undisturbed s) s s' := by
  cases a with
  | submit | shutdown | shutdownNow =>
    simp only [Service.step, Service.acquire] at hstep
    split_ifs at hstep with hlock
    obtain rfl := Option.some.inj hstep
    exact Or.inl ⟨hlock, _, rfl, by simp, by simp, by simp [Holder.due]⟩
  | holderNext order =>
    obtain ⟨h, hlock, hnext⟩ := Option.bind_eq_some_iff.mp hstep
    exact Or.inr (Or.inl ⟨h, order, rfl, hlock, hnext⟩)
  | spawn i =>
    refine Or.inr (Or.inr ?_)
    simp only [Service.step, Service.spawn] at hstep
    split at hstep
    · next cell hi =>
      obtain rfl := Option.some.inj hstep
      exact ⟨rfl, rfl, fun _ => Or.inl (Service.gate_setTask hi rfl)⟩
    · exact absurd hstep (by simp)
  | runNext i => exact Or.inr (Or.inr (aside_runNext hstep))
  | callReturns i outcome =>
    refine Or.inr (Or.inr ?_)
    simp only [Service.step, Service.callReturns] at hstep
    split at hstep
    · next cell hi =>
      obtain rfl := Option.some.inj hstep
      exact aside_setTask hi rfl
    · exact absurd hstep (by simp)
  | cancel i =>
    refine Or.inr (Or.inr ?_)
    simp only [Service.step, Service.cancel] at hstep
    split_ifs at hstep
    obtain rfl := Option.some.inj hstep
    exact ⟨rfl, rfl, fun _ => Or.inl (by simp [Service.gate, Service.owed, CancelPhase.due])⟩
  | handleNext k => exact Or.inr (Or.inr (aside_handleNext hstep))
  | sweepNext k => exact Or.inr (Or.inr (aside_sweepNext hstep))
  | await | awaitNext k | awaitDrop k | isTerminated | queryNext k =>
    obtain ⟨c, hturn, rfl⟩ := step_turn rfl hstep
    exact Or.inr (Or.inr ⟨rfl, hturn.shutdown, fun _ => hturn.follows _⟩)

/-- The holder of the submission lock follows the gate. -/
theorem follows_holderNext {h : Holder} {order : List ℕ} (hlock : s.submissionLock = some h)
    (hopen : ∀ i, h = .submitCounting i → s.shutdown = false)
    (hok : (Action.holderNext order : Action R E).Undisturbed s)
    (hstep : s.holderNext order h = some s') : s.gate.Follows s'.gate := by
  obtain ⟨n, howed, hothers⟩ : ∃ n, s.owed = n + h.due ∧ n =
      (s.tasks.map fun t => t.run.due).sum + (s.cancels.map fun c => c.phase.due).sum +
        (s.sweeps.map Sweep.due).sum :=
    ⟨_, by rw [Service.owed, hlock, Option.elim_some], rfl⟩
  rw [Service.gate, howed]
  cases h with
  | submitChecking =>
    obtain rfl := Option.some.inj hstep
    rw [hothers]
    split_ifs
    · exact .refl _
    · exact .refl _
  | submitNumbering =>
    obtain rfl := Option.some.inj hstep
    refine Or.inl ?_
    simp [Service.gate, Service.owed, Service.hold, hothers, RunPhase.due, Holder.due]
  | submitCounting i =>
    obtain rfl := Option.some.inj hstep
    rw [hothers]
    exact Core.follows_enter (hopen i rfl) _
  | submitQueueing i | submitRegistering i =>
    obtain rfl := Option.some.inj hstep
    rw [hothers]
    exact .refl _
  | submitReleasing i =>
    obtain ⟨cell, hi, rfl⟩ := holderNext_submitReleasing hstep
    refine Or.inl (Eq.trans (Service.gate_setTask (s := s.release) hi ?_) ?_)
    · rfl
    · simp [Service.gate, Service.owed, Service.release, hothers, Holder.due]
  | shutdownStoring | shutdownNowStoring =>
    obtain rfl := Option.some.inj hstep
    rw [hothers]
    exact Core.follows_close _ (Nat.succ_pos _)
  | shutdownAnnouncing a =>
    have hfollows := s.toCore.follows_announce n a fun ha => hok (by
      simp [Action.broadcasts, hlock, ha])
    obtain rfl := holderNext_shutdownAnnouncing hstep
    rw [hothers] at hfollows ⊢
    rw [← due_shutdownAfter] at hfollows
    exact hfollows
  | shutdownNowCounting | shutdownNowReading queued =>
    obtain rfl := Option.some.inj hstep
    rw [hothers]
    exact .refl _
  | shutdownNowDraining queued running =>
    obtain ⟨-, rfl⟩ := holderNext_shutdownNowDraining hstep
    rw [hothers]
    exact .refl _
  | shutdownNowReleasing pending queued running =>
    obtain rfl := Option.some.inj hstep
    refine Or.inl ?_
    simp [Service.gate, Service.owed, Service.release, hothers, Sweep.due, Holder.due,
      Nat.add_assoc]

/-! ### Nobody enters a closed gate -/

namespace Service

/-- A submission that has loaded the flag unset, and has not counted its task yet, still
finds the flag unset: it holds the lock the flag is set under. -/
def Admitting (s : Service R E W) : Prop :=
  (s.submissionLock = some .submitNumbering ∨ ∃ i, s.submissionLock = some (.submitCounting i)) →
    s.shutdown = false

/-- Where nobody is being admitted, submissions are admitting. -/
theorem admitting_of_ne (hnumbering : s.submissionLock ≠ some .submitNumbering)
    (hcounting : ∀ i, s.submissionLock ≠ some (.submitCounting i)) : s.Admitting := by
  rintro (h | ⟨i, h⟩)
  · exact absurd h hnumbering
  · exact absurd h (hcounting i)

/-- The holder of the submission lock counts a task only after it has loaded the flag. -/
theorem Admitting.holderNext (h : s.Admitting) {holder : Holder} {order : List ℕ}
    (hlock : s.submissionLock = some holder) (hstep : s.holderNext order holder = some s') :
    s'.Admitting := by
  cases holder with
  | submitChecking =>
    obtain rfl := Option.some.inj hstep
    split_ifs with hshutdown
    · exact admitting_of_ne nofun nofun
    · exact fun _ => Bool.eq_false_iff.mpr hshutdown
  | submitNumbering =>
    obtain rfl := Option.some.inj hstep
    exact fun _ => h (Or.inl hlock)
  | submitReleasing i =>
    obtain ⟨cell, -, rfl⟩ := holderNext_submitReleasing hstep
    exact admitting_of_ne nofun nofun
  | shutdownAnnouncing a =>
    obtain rfl := holderNext_shutdownAnnouncing hstep
    exact admitting_of_ne (by simp) (by simp)
  | shutdownNowDraining queued running =>
    obtain ⟨-, rfl⟩ := holderNext_shutdownNowDraining hstep
    exact admitting_of_ne nofun nofun
  | _ =>
    obtain rfl := Option.some.inj hstep
    exact admitting_of_ne nofun nofun

end Service

/-- In every run submissions are admitting. -/
theorem admitting_of_reach {ok : Service R E W → Action R E → Prop}
    (hs : (machine R E W).ReachVia ok s) : s.Admitting := by
  refine hs.invariant (I := Service.Admitting) ?_ ?_
  · intro s hinit
    rw [hinit]
    exact Service.admitting_of_ne nofun nofun
  · intro s a s' _ hadmitting _ hstep
    rcases step_cases hstep with ⟨-, h, rfl, hnumbering, hcounting, -⟩ |
      ⟨h, order, -, hlock, hnext⟩ | haside
    · exact Service.admitting_of_ne (fun hlock => hnumbering (Option.some.inj hlock))
        fun i hlock => hcounting i (Option.some.inj hlock)
    · exact hadmitting.holderNext hlock hnext
    · rw [Service.Admitting, haside.lock, haside.shutdown]
      exact hadmitting

/-! ### Every step -/

/-- **Every undisturbed step is one at the gate.** -/
theorem follows_step (hadmitting : s.Admitting) {a : Action R E} (hok : a.Undisturbed s)
    (hstep : s.step a = some s') : s.gate.Follows s'.gate := by
  rcases step_cases hstep with ⟨hlock, h, rfl, -, -, hdue⟩ | ⟨h, order, rfl, hlock, hnext⟩ | haside
  · -- whoever takes the lock may owe a look from then on
    have howed : (s.hold h).owed = s.owed + h.due := by
      simp [Service.owed, Service.hold, hlock]
    rcases Nat.le_one_iff_eq_zero_or_eq_one.mp hdue with hzero | hone
    · refine Or.inl ?_
      rw [Service.gate, howed, hzero]
      rfl
    · refine .promise ?_
      rw [Service.gate, howed, hone]
      rfl
  · exact follows_holderNext hlock
      (fun i hcounting => hadmitting (Or.inr ⟨i, hcounting ▸ hlock⟩)) hok hnext
  · exact haside.follows hok

/-- **The gate behind an undisturbed run is one of an undisturbed gate.** -/
theorem gate_reach (hs : (machine R E W).ReachVia (fun s a => a.Undisturbed s) s) :
    Gate.machine.ReachVia Gate.Timely s.gate := by
  refine hs.simulate Service.gate (fun s hinit => by rw [hinit]; rfl) ?_
  exact fun s a s' hr hok hstep => follows_step (admitting_of_reach hr) hok hstep

end Rayon

end QubitConcurrent
