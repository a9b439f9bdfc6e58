import QubitConcurrent.Services.ThreadPerTaskEnd

/-!
# What a panic leaves behind

`submit_callable` raises `active_tasks` before it creates the thread that is to take the count
back. Where no thread can be created, `thread::spawn` panics, the panic leaves
`submit_callable`, and nobody takes the count back. Nor does anybody where the thread was
created and a panic ends it before `active_tasks.dec()`.

So the count is made up of four parts: the tasks whose thread runs, the submissions that have
counted their task and are about to create its thread, the submissions that have panicked, and
the threads that have. The last two never fall, and with them in the count the service does not
terminate any more. As long as they are zero, the service can be brought to its end from any
state: those inside finish, and somebody shuts it down.
-/

namespace QubitConcurrent

namespace ThreadPerTask

open Services

open TaskHandle (TaskHandleInner Outcome runCallable)

variable {R E W : Type} {s s' : Service R E W}

/-! ### The parts of the count -/

namespace TaskPhase

/-- The thread was started, and has not finished with its task. -/
def isRunning : TaskPhase → Bool
  | spawned | executing | leaving => true
  | _ => false

/-- The thread is about to be created. -/
def isUnspawned : TaskPhase → Bool
  | unspawned => true
  | _ => false

/-- The thread could not be created. -/
def isUnborn : TaskPhase → Bool
  | unborn => true
  | _ => false

/-- A panic has ended the thread. -/
def isUnwound : TaskPhase → Bool
  | unwound => true
  | _ => false

end TaskPhase

/-- A task that is counted has its thread running, about to be created, never created, or ended by
a panic. -/
theorem weight_eq_add (p : TaskPhase) :
    p.weight = p.isRunning.toNat + p.isUnspawned.toNat + p.isUnborn.toNat + p.isUnwound.toNat := by
  cases p <;> rfl

namespace Service

/-- The number of accepted tasks whose thread was started and has not finished with them. -/
def running (s : Service R E W) : ℕ := s.tasks.countP fun t => t.phase.isRunning

/-- The number of submissions that have counted their task, and have not come back from
`thread::spawn`. -/
def submitting (s : Service R E W) : ℕ :=
  (s.tasks.countP fun t => t.phase.isUnspawned) + s.submissionLock.elim 0 Holder.weight

/-- The number of tasks whose thread could not be created. -/
def unborn (s : Service R E W) : ℕ := s.tasks.countP fun t => t.phase.isUnborn

/-- The number of submissions that have ended in a panic. -/
def panics (s : Service R E W) : ℕ := s.replies.count .submitPanicked

/-- The number of tasks whose thread a panic has ended. -/
def unwound (s : Service R E W) : ℕ := s.tasks.countP fun t => t.phase.isUnwound

/-- The number of tasks that nobody takes out of the count. -/
def lost (s : Service R E W) : ℕ := s.panics + s.unwound

/-- **The service can still terminate**: some run from here on comes to its end. -/
def CanTerminate (s : Service R E W) : Prop :=
  ∃ t, (machine R E W).Later s t ∧ t.isTerminated = true

/-- Those inside are these. -/
theorem inside_eq_add (s : Service R E W) :
    s.inside = s.running + s.submitting + s.unborn + s.unwound := by
  have hsplit : ∀ l : List (Task R E W), (l.map fun t => t.phase.weight).sum =
      (l.countP fun t => t.phase.isRunning) + (l.countP fun t => t.phase.isUnspawned) +
        (l.countP fun t => t.phase.isUnborn) + l.countP fun t => t.phase.isUnwound := by
    intro l
    induction l with
    | nil => rfl
    | cons t l ih =>
      rw [List.map_cons, List.sum_cons, ih, weight_eq_add]
      simp only [List.countP_cons]
      cases t.phase.isRunning <;> cases t.phase.isUnspawned <;> cases t.phase.isUnborn <;>
        cases t.phase.isUnwound <;>
        simp only [Bool.toNat_true, Bool.toNat_false, if_true, Bool.false_eq_true, if_false] <;>
        omega
  rw [inside, hsplit, running, submitting, unborn, unwound]
  omega

end Service

/-! ### Panics are forever -/

namespace Action

/-- Whether an action is a call of `thread::spawn` that panics. -/
def spawnPanics : Action R E → Bool
  | .spawn _ created => !created
  | _ => false

/-- Whether an action is a panic that ends the thread of a task. -/
def unwinds : Action R E → Bool
  | .taskUnwinds _ => true
  | _ => false

/-- Whether an action is one of these panics. -/
def isPanic (a : Action R E) : Bool := a.spawnPanics || a.unwinds

/-- An action is one of them at most. -/
theorem toNat_isPanic (a : Action R E) :
    a.isPanic.toNat = a.spawnPanics.toNat + a.unwinds.toNat := by
  cases a with
  | spawn i created => cases created <;> rfl
  | _ => rfl

end Action

/-- **What a step adds to the panics**: one where it is one, and nothing where it is not. -/
structure Tallied (a : Action R E) (s s' : Service R E W) : Prop where
  /-- The tasks without a thread. -/
  unborn : s'.unborn = s.unborn + a.spawnPanics.toNat
  /-- The submissions that are told so. -/
  panics : s'.panics = s.panics + a.spawnPanics.toNat
  /-- The threads ended by a panic. -/
  unwound : s'.unwound = s.unwound + a.unwinds.toNat

section Tallied

variable {a : Action R E}

/-- A step that touches neither the tasks nor the replies. -/
theorem Tallied.of_eq (ha : a.spawnPanics = false ∧ a.unwinds = false)
    (htasks : s'.tasks = s.tasks) (hreplies : s'.replies = s.replies) : Tallied a s s' where
  unborn := by rw [Service.unborn, Service.unborn, htasks, ha.1]; rfl
  panics := by rw [Service.panics, Service.panics, hreplies, ha.1]; rfl
  unwound := by rw [Service.unwound, Service.unwound, htasks, ha.2]; rfl

/-- Where one task moves, the tasks of a kind are counted anew. -/
theorem countP_setTask (p : TaskPhase → Bool) {i : ℕ} {t t' : Task R E W}
    (hi : s.tasks[i]? = some t) {n : ℕ} (hp : (p t'.phase).toNat = (p t.phase).toNat + n) :
    ((s.setTask i t').tasks.countP fun t => p t.phase) =
      (s.tasks.countP fun t => p t.phase) + n := by
  obtain ⟨m, hbefore, hafter⟩ := countP_set_toNat (fun t => p t.phase) hi t'
  rw [Service.setTask, hbefore, hafter, hp]
  omega

/-- A task moves, and nobody is told. -/
theorem Tallied.setTask {i : ℕ} {t t' : Task R E W} (hi : s.tasks[i]? = some t)
    (ha : a.spawnPanics = false) (hunborn : t'.phase.isUnborn = t.phase.isUnborn)
    (hunwound : t'.phase.isUnwound.toNat = t.phase.isUnwound.toNat + a.unwinds.toNat) :
    Tallied a s (s.setTask i t') where
  unborn := countP_setTask TaskPhase.isUnborn hi (by rw [hunborn, ha]; rfl)
  panics := by rw [ha]; rfl
  unwound := countP_setTask TaskPhase.isUnwound hi hunwound

/-- The common state is not looked at. -/
theorem Tallied.core (h : Tallied a s s') (c : Core Waiting) :
    Tallied a s { s' with toCore := c } :=
  ⟨h.unborn, h.panics, h.unwound⟩

/-- The submission lock is released by a call that does not panic. -/
theorem tallied_release (ha : a.spawnPanics = false ∧ a.unwinds = false) {c : Core Waiting}
    {reply : Reply} (h : reply ≠ .submitPanicked) :
    Tallied a s (({ s with toCore := c } : Service R E W).release reply) where
  unborn := by rw [ha.1]; rfl
  panics := by
    rw [ha.1]
    simp [Service.panics, Service.release, h]
  unwound := by rw [ha.2]; rfl

/-- The holder of the submission lock takes a step, and does not panic. -/
theorem tallied_holderNext (h : Holder) :
    Tallied (.holderNext : Action R E) s (s.holderNext h) := by
  cases h with
  | submitChecking =>
    rw [Service.holderNext]
    split_ifs
    · exact tallied_release ⟨rfl, rfl⟩ (c := s.toCore) (by simp)
    · exact .of_eq ⟨rfl, rfl⟩ rfl rfl
  | submitCounting | shutdownStoring | shutdownNowStoring | shutdownNowReading =>
    exact .of_eq ⟨rfl, rfl⟩ rfl rfl
  | submitReleasing =>
    refine ⟨?_, rfl, ?_⟩
    · simp [Service.unborn, Service.holderNext, TaskPhase.isUnborn, Action.spawnPanics]
    · simp [Service.unwound, Service.holderNext, TaskPhase.isUnwound, Action.unwinds]
  | shutdownAnnouncing a | shutdownNowAnnouncing a report =>
    rw [Service.holderNext]
    split
    · exact .of_eq ⟨rfl, rfl⟩ rfl rfl
    · exact tallied_release ⟨rfl, rfl⟩ (by simp)

/-- `submit_callable` comes back from `thread::spawn`, or panics. -/
theorem tallied_spawn {i : ℕ} {created : Bool} (hstep : s.spawn i created = some s') :
    Tallied (.spawn i created : Action R E) s s' := by
  rw [Service.spawn] at hstep
  split at hstep
  · next cell hi =>
    obtain rfl := Option.some.inj hstep
    cases created with
    | true =>
      refine ⟨countP_setTask TaskPhase.isUnborn hi rfl, ?_,
        countP_setTask TaskPhase.isUnwound hi rfl⟩
      simp [Service.panics, Action.spawnPanics]
    | false =>
      refine ⟨countP_setTask TaskPhase.isUnborn hi rfl, ?_,
        countP_setTask TaskPhase.isUnwound hi rfl⟩
      simp [Service.panics, Action.spawnPanics]
  · exact absurd hstep (by simp)

/-- The thread of a task takes a step. -/
theorem tallied_taskNext {i : ℕ} (hstep : s.taskNext i = some s') :
    Tallied (.taskNext i : Action R E) s s' := by
  -- nothing that comes behind `active_tasks.dec()` can panic
  have hannounce : ∀ r, (Service.afterAnnounce r).isUnborn = false ∧
      (Service.afterAnnounce r).isUnwound.toNat = 0 := by
    intro r
    cases r <;> exact ⟨rfl, rfl⟩
  rw [Service.taskNext] at hstep
  split at hstep
  · next cell hi =>
    obtain rfl := Option.some.inj hstep
    refine .setTask hi rfl ?_ ?_
    · cases cell.start.1 <;> rfl
    · cases cell.start.1 <;> rfl
  · next cell hi =>
    obtain rfl := Option.some.inj hstep
    exact (Tallied.setTask hi rfl (hannounce _).1 (hannounce _).2).core _
  · next cell a hi =>
    obtain rfl := Option.some.inj hstep
    exact (Tallied.setTask hi rfl (hannounce _).1 (hannounce _).2).core _
  · exact absurd hstep (by simp)

/-- **Every step is tallied.** -/
theorem tallied_step (hstep : s.step a = some s') : Tallied a s s' := by
  cases a with
  | submit | shutdown | shutdownNow =>
    simp only [Service.step, Service.acquire] at hstep
    split_ifs at hstep
    obtain rfl := Option.some.inj hstep
    exact .of_eq ⟨rfl, rfl⟩ rfl rfl
  | holderNext =>
    obtain ⟨h, -, rfl⟩ := Option.map_eq_some_iff.mp hstep
    exact tallied_holderNext h
  | spawn i created => exact tallied_spawn hstep
  | taskNext i => exact tallied_taskNext hstep
  | callReturns i outcome =>
    simp only [Service.step, Service.callReturns] at hstep
    split at hstep
    · next cell hi =>
      obtain rfl := Option.some.inj hstep
      exact .setTask hi rfl rfl rfl
    · exact absurd hstep (by simp)
  | taskUnwinds i =>
    simp only [Service.step, Service.taskUnwinds] at hstep
    split at hstep
    · next cell hi =>
      obtain rfl := Option.some.inj hstep
      exact .setTask hi rfl rfl rfl
    · next cell hi =>
      obtain rfl := Option.some.inj hstep
      exact .setTask hi rfl rfl rfl
    · exact absurd hstep (by simp)
  | handleCancel i =>
    simp only [Service.step, Service.handleCancel] at hstep
    split at hstep
    · exact absurd hstep (by simp)
    · exact absurd hstep (by simp)
    · exact absurd hstep (by simp)
    · next t _ _ hi =>
      obtain rfl := Option.some.inj hstep
      exact .setTask hi rfl rfl rfl
  | wait | isTerminated =>
    obtain rfl := Option.some.inj hstep
    exact .of_eq ⟨rfl, rfl⟩ rfl rfl
  | waitNext k =>
    simp only [Service.step, Service.waitNext] at hstep
    split at hstep
    case h_6 => exact absurd hstep (by simp)
    all_goals
      try split_ifs at hstep
      all_goals
        obtain rfl := Option.some.inj hstep
        exact .of_eq ⟨rfl, rfl⟩ rfl rfl
  | wakeWaiter k =>
    simp only [Service.step, Service.wakeWaiter] at hstep
    split at hstep
    · obtain rfl := Option.some.inj hstep
      exact .of_eq ⟨rfl, rfl⟩ rfl rfl
    · exact absurd hstep (by simp)
  | queryNext k =>
    obtain ⟨c, -, rfl⟩ := Option.map_eq_some_iff.mp hstep
    exact .of_eq ⟨rfl, rfl⟩ rfl rfl

/-- A step adds to those nobody takes out of the count what it is itself. -/
theorem Tallied.lost (h : Tallied a s s') : s'.lost = s.lost + a.isPanic.toNat := by
  rw [Service.lost, Service.lost, h.panics, h.unwound, a.toNat_isPanic]
  omega

end Tallied

/-- Over every run, there are as many tasks without a thread as submissions that have
panicked. -/
theorem unborn_eq_panics (hs : (machine R E W).Reach s) : s.unborn = s.panics := by
  refine hs.invariant (I := fun s => s.unborn = s.panics) ?_ ?_
  · intro s hinit
    rw [hinit]
    rfl
  · intro s a s' _ heq _ hstep
    rw [(tallied_step hstep).unborn, (tallied_step hstep).panics, heq]

/-- **No submission has panicked exactly in the runs that create every thread.** -/
theorem panics_eq_zero_iff (hs : (machine R E W).Reach s) :
    s.panics = 0 ↔ (machine R E W).ReachVia (fun _ a => a.spawnPanics = false) s :=
  Machine.reachVia_iff_of_count (M := machine R E W) (by rintro s rfl; rfl)
    (fun _ _ _ hstep => (tallied_step hstep).panics) hs

/-- **No task is lost exactly in the runs without a panic.** -/
theorem lost_eq_zero_iff (hs : (machine R E W).Reach s) :
    s.lost = 0 ↔ (machine R E W).ReachVia (fun _ a => a.isPanic = false) s :=
  Machine.reachVia_iff_of_count (M := machine R E W) (by rintro s rfl; rfl)
    (fun _ _ _ hstep => (tallied_step hstep).lost) hs

/-- What is lost is not found again. -/
theorem lost_later (hlater : (machine R E W).Later s s') : s.lost ≤ s'.lost := by
  refine Machine.measure_le_of_chain (f := Service.lost) (fun t t' hstep => ?_) hlater
  obtain ⟨a, hstep⟩ := hstep
  exact (tallied_step hstep).lost ▸ Nat.le_add_right ..

/-- **What the count is made up of.** -/
theorem activeTasks_eq_add (hs : (machine R E W).Reach s) :
    s.activeTasks = s.running + s.submitting + s.panics + s.unwound := by
  rw [(sound_of_reach hs).count, s.inside_eq_add, unborn_eq_panics hs]

/-- **After a panic the service is not terminated any more**, and nobody is told that it is. -/
theorem not_reported_of_lost (hs : (machine R E W).Reach s) (hlost : s.lost ≠ 0)
    (hlater : (machine R E W).Later s s') : s'.isTerminated = false ∧ ¬s'.Reported := by
  have hs' := hlater.reach hs
  have hdown : s'.isTerminated = false := by
    refine Bool.eq_false_iff.mpr fun hterm => ?_
    have hzero := (Core.isTerminated_iff.mp hterm).2
    have hle := lost_later hlater
    have hcount := activeTasks_eq_add hs'
    rw [Service.lost] at hle
    rw [Service.lost] at hlost hle
    omega
  refine ⟨hdown, fun hreported => ?_⟩
  have hterm := ((orderly R E W).honest hs').reported hreported
  exact absurd (hdown.symm.trans hterm) Bool.false_ne_true

/-! ### Bringing the service to its end -/

/-- How many steps the submission and the thread of a task have still to take, at most, until
the task is not counted any more. -/
def TaskPhase.remaining : TaskPhase → ℕ
  | unspawned => 4
  | spawned => 3
  | executing => 2
  | leaving => 1
  | _ => 0

/-- How many steps a call of `notify_if_terminated` has still to take, at most. -/
def announceRemaining : Announce → ℕ
  | .loadShutdown => 3
  | .loadActive => 2
  | .notify => 1

/-- How many steps are still to be taken, at most, until a holder has released the submission
lock, and the task it may have admitted is not counted any more. -/
def Holder.remaining : Holder → ℕ
  | submitChecking => 7
  | submitCounting => 6
  | submitReleasing => 5
  | shutdownStoring | shutdownNowReading => 4
  | shutdownNowStoring => 5
  | shutdownAnnouncing a | shutdownNowAnnouncing a _ => announceRemaining a

/-- How many steps are still to be taken, at most, until nobody is inside. -/
def Service.remaining (s : Service R E W) : ℕ :=
  (s.tasks.map fun t => t.phase.remaining).sum + s.submissionLock.elim 0 Holder.remaining

/-- A task comes closer to its end. -/
theorem Service.remaining_setTask {i : ℕ} {t t' : Task R E W} (hi : s.tasks[i]? = some t)
    (ht : t'.phase.remaining < t.phase.remaining) :
    (s.setTask i t').remaining < s.remaining := by
  obtain ⟨n, hbefore, hafter⟩ := sum_map_set (fun t => t.phase.remaining) hi t'
  simp only [remaining, setTask]
  omega

/-- The holder of the submission lock comes closer to releasing it. -/
theorem Service.remaining_holderNext {h : Holder} (hlock : s.submissionLock = some h) :
    (s.holderNext h).remaining < s.remaining := by
  have hbefore : s.remaining = (s.tasks.map fun t => t.phase.remaining).sum + h.remaining := by
    rw [remaining, hlock, Option.elim_some]
  rw [hbefore]
  cases h with
  | submitChecking =>
    rw [holderNext]
    split_ifs
    · simp [remaining, release, Holder.remaining]
    · simp [remaining, hold, Holder.remaining]
  | submitReleasing => simp [remaining, holderNext, TaskPhase.remaining, Holder.remaining]
  | shutdownAnnouncing a | shutdownNowAnnouncing a report =>
    cases a with
    | loadShutdown =>
      by_cases hshutdown : s.shutdown = true <;>
        simp [remaining, holderNext, Core.announce, hshutdown, hold, release, Holder.remaining,
          announceRemaining]
    | loadActive =>
      by_cases hzero : s.activeTasks = 0 <;>
        simp [remaining, holderNext, Core.announce, hzero, hold, release, Holder.remaining,
          announceRemaining]
    | notify =>
      simp [remaining, holderNext, Core.announce, release, Holder.remaining, announceRemaining]
  | _ => simp [remaining, holderNext, hold, Holder.remaining, announceRemaining]

/-- **Where something is left to be done, some step does it.** -/
theorem exists_step_remaining (hs : s.remaining ≠ 0) :
    ∃ a s', s.step a = some s' ∧ a.isPanic = false ∧ s'.remaining < s.remaining := by
  cases hlock : s.submissionLock with
  | some h =>
    -- whoever holds the lock goes first
    exact ⟨.holderNext, s.holderNext h, by simp [Service.step, hlock], rfl,
      Service.remaining_holderNext hlock⟩
  | none =>
    -- with the lock free, it is a task that has something left to do
    obtain ⟨t, ht, hremaining⟩ : ∃ t ∈ s.tasks, t.phase.remaining ≠ 0 := by
      by_contra hnone
      push Not at hnone
      refine hs ?_
      rw [Service.remaining, hlock, Option.elim_none, Nat.add_zero]
      exact List.sum_eq_zero_iff_forall_eq_nat.mpr (by simpa using hnone)
    obtain ⟨i, hi⟩ := List.mem_iff_getElem?.mp ht
    obtain ⟨cell, phase⟩ := t
    cases phase with
    | unspawned =>
      exact ⟨.spawn i true, { s.setTask i ⟨cell, .spawned⟩ with
        replies := s.replies ++ [.submit (.ok i)] }, by simp [Service.step, Service.spawn, hi], rfl,
        Service.remaining_setTask hi (Nat.lt_succ_self 3)⟩
    | spawned =>
      refine ⟨.taskNext i,
        s.setTask i ⟨cell.start.2, if cell.start.1 then .executing else .leaving⟩,
        by simp [Service.step, Service.taskNext, hi], rfl, Service.remaining_setTask hi ?_⟩
      cases cell.start.1 with
      | true => exact Nat.lt_succ_self 2
      | false => exact Nat.one_lt_succ_succ 1
    | executing =>
      -- any outcome of the callable brings the task nearer to its end
      exact ⟨.callReturns i .panic,
        s.setTask i ⟨(cell.complete (runCallable .panic)).2, .leaving⟩,
        by simp [Service.step, Service.callReturns, hi], rfl,
        Service.remaining_setTask hi Nat.one_lt_two⟩
    | leaving =>
      refine ⟨.taskNext i, { s with toCore := s.leave.2 }.setTask i
        ⟨cell, Service.afterAnnounce s.leave.1⟩, by simp [Service.step, Service.taskNext, hi], rfl,
        Service.remaining_setTask hi ?_⟩
      cases s.leave.1 with
      | some a => exact Nat.one_pos
      | none => exact Nat.one_pos
    | unborn | unwound | announcing _ | finished => exact absurd rfl hremaining

/-- A holder of the submission lock has always something left to do. -/
theorem Holder.remaining_pos (h : Holder) : 0 < h.remaining := by
  cases h with
  | shutdownAnnouncing a | shutdownNowAnnouncing a report => cases a <;> exact Nat.succ_pos _
  | _ => exact Nat.succ_pos _

/-- Where nothing is left to be done, the lock is free, and the tasks that are still counted are
lost. -/
theorem Service.idle_of_remaining (hs : s.remaining = 0) :
    s.submissionLock = none ∧ s.running + s.submitting = 0 := by
  obtain ⟨htasks, hholder⟩ := Nat.add_eq_zero_iff.mp hs
  have hlock : s.submissionLock = none := by
    cases hlock : s.submissionLock with
    | none => rfl
    | some h =>
      rw [hlock, Option.elim_some] at hholder
      exact absurd hholder h.remaining_pos.ne'
  have hphase : ∀ t ∈ s.tasks, t.phase.remaining = 0 := fun t ht =>
    List.sum_eq_zero_iff_forall_eq_nat.mp htasks _ (List.mem_map_of_mem ht)
  refine ⟨hlock, Nat.add_eq_zero_iff.mpr ⟨List.countP_eq_zero.mpr fun t ht => ?_, ?_⟩⟩
  · have hzero := hphase t ht
    cases hp : t.phase with
    | spawned | executing | leaving => simp [hp, TaskPhase.remaining] at hzero
    | _ => simp [TaskPhase.isRunning]
  · rw [submitting, hlock, Option.elim_none, Nat.add_zero]
    refine List.countP_eq_zero.mpr fun t ht => ?_
    have hzero := hphase t ht
    cases hp : t.phase with
    | unspawned => simp [hp, TaskPhase.remaining] at hzero
    | _ => simp [TaskPhase.isUnspawned]

/-- **Without a panic the service can be brought to its end**: everybody inside finishes, and
then somebody shuts it down. -/
theorem canTerminate_of_lost (hs : (machine R E W).Reach s) (hlost : s.lost = 0) :
    s.CanTerminate := by
  obtain ⟨t, hlater, hlost, hremaining⟩ :=
    Machine.exists_later_of_measure (M := machine R E W) (I := fun t => t.lost = 0)
      (G := fun t => t.remaining = 0) (f := Service.remaining) (fun t hzero => by
        rcases eq_or_ne t.remaining 0 with hidle | hbusy
        · exact Or.inl hidle
        · obtain ⟨a, t', hstep, ha, hlt⟩ := exists_step_remaining hbusy
          have hsame := (tallied_step hstep).lost
          rw [ha, hzero] at hsame
          exact Or.inr ⟨a, t', hstep, hsame, hlt⟩) hlost
  obtain ⟨hlock, hnobody⟩ := Service.idle_of_remaining hremaining
  have hactive : t.activeTasks = 0 := by
    rw [activeTasks_eq_add (hlater.reach hs), hnobody, Nat.zero_add]
    exact hlost
  -- two steps of a `shutdown` are enough, for the flag is all that is missing
  have hacquire : (machine R E W).step t .shutdown = some (t.hold .shutdownStoring) :=
    if_pos hlock
  have hstore : (machine R E W).step (t.hold .shutdownStoring) .holderNext =
      some ((t.hold .shutdownStoring).holderNext .shutdownStoring) := rfl
  exact ⟨_, hlater.trans ((Machine.Later.single hacquire).trans (Machine.Later.single hstore)),
    Core.isTerminated_iff.mpr ⟨rfl, hactive⟩⟩

/-! ### When the count is right -/

/-- **When a failed submission leaves no trace.** In every run of a thread-per-task service,
`active_tasks` is the number of tasks whose thread runs, with one more for every submission that
is about to create a thread, one more, forever, for every one that has panicked, and one more,
forever, for every thread that a panic has ended. So, between submissions, it is the number of
tasks whose thread runs exactly if there was no panic; a submission that has failed has left the
count as it was exactly if every thread could be created; and the service can still terminate
exactly if there was no panic. -/
theorem activeTasks_iff_of_reach (hs : (machine R E W).Reach s) :
    s.activeTasks = s.running + s.submitting + s.panics + s.unwound ∧
    (s.activeTasks = s.running ↔
      s.submitting = 0 ∧ (machine R E W).ReachVia (fun _ a => a.isPanic = false) s) ∧
    (s.activeTasks = s.running + s.submitting ↔
      (machine R E W).ReachVia (fun _ a => a.isPanic = false) s) ∧
    (s.activeTasks = s.running + s.submitting + s.unwound ↔
      (machine R E W).ReachVia (fun _ a => a.spawnPanics = false) s) ∧
    (s.CanTerminate ↔ (machine R E W).ReachVia (fun _ a => a.isPanic = false) s) := by
  have hcount := activeTasks_eq_add hs
  have hlost : s.lost = s.panics + s.unwound := rfl
  rw [← panics_eq_zero_iff hs, ← lost_eq_zero_iff hs]
  refine ⟨hcount, by omega, by omega, by omega, fun ⟨t, hlater, hterm⟩ => ?_,
    canTerminate_of_lost hs⟩
  by_contra hlost
  exact absurd ((not_reported_of_lost hs hlost hlater).1.symm.trans hterm)
    Bool.false_ne_true

/-- A task runs, and the service can still terminate. -/
theorem activeTasks_iff_of_reach_one :
    ∃ s : Service Unit Unit Unit, s.activeTasks = 1 ∧ s.running = 1 ∧ s.CanTerminate := by
  obtain ⟨s, hs, hp⟩ := Machine.exists_reachVia_of_exec (M := machine Unit Unit Unit)
    (fun _ a => a.isPanic = false) (fun _ a => a.isPanic == false)
    (fun _ a h => by simpa using h) (s := .new) rfl
    [.submit, .holderNext, .holderNext, .holderNext, .spawn 0 true, .taskNext 0]
    (fun s => decide (s.activeTasks = 1 ∧ s.running = 1)) (by decide)
  obtain ⟨hactive, hrunning⟩ := of_decide_eq_true hp
  exact ⟨s, hactive, hrunning, (activeTasks_iff_of_reach hs.reach).2.2.2.2.mpr hs⟩

/-- A panic that is not caught ends the thread of a task, and the task stays counted. -/
example : ((machine Unit Unit Unit).exec (fun _ _ => true) .new
    [.submit, .holderNext, .holderNext, .holderNext, .spawn 0 true, .taskNext 0,
      .taskUnwinds 0]).map (fun s => (s.activeTasks, s.running, s.replies)) =
    some (1, 0, [.submit (.ok 0)]) := by decide

/-- **A submission fails, and the service never terminates.** The thread of its first task cannot
be created, and `submit_callable` panics. The service is shut down; no thread runs, no
submission is under way, and somebody waits for termination. The count is one, and in every later
state the service is not terminated and nobody has been told that it is. -/
theorem exists_reach_activeTasks_leak :
    ∃ s : Service Unit Unit Unit, (machine Unit Unit Unit).Reach s ∧ s.activeTasks = 1 ∧
      s.running = 0 ∧ s.submitting = 0 ∧ s.replies = [.submitPanicked, .shutdown] ∧
      s.waiters = [.parked false] ∧
      ∀ t, (machine Unit Unit Unit).Later s t → t.isTerminated = false ∧ ¬t.Reported := by
  obtain ⟨s, hs, hp⟩ := Machine.exists_reachVia_of_exec (M := machine Unit Unit Unit)
    (fun _ _ => True) (fun _ _ => true) (fun _ _ _ => trivial) (s := .new) rfl
    [.submit, .holderNext, .holderNext, .holderNext, .spawn 0 false, .shutdown, .holderNext,
      .holderNext, .holderNext, .wait, .waitNext 0, .waitNext 0, .waitNext 0, .waitNext 0]
    (fun s => decide (s.activeTasks = 1 ∧ s.running = 0 ∧ s.submitting = 0 ∧
      s.replies = [.submitPanicked, .shutdown] ∧ s.waiters = [.parked false])) (by decide)
  obtain ⟨hactive, hrunning, hsubmitting, hreplies, hwaiters⟩ := of_decide_eq_true hp
  refine ⟨s, hs, hactive, hrunning, hsubmitting, hreplies, hwaiters, fun t hlater => ?_⟩
  have hpanics : s.panics = 1 := by rw [Service.panics, hreplies]; decide
  exact not_reported_of_lost hs (by rw [Service.lost, hpanics]; omega) hlater

end ThreadPerTask

end QubitConcurrent
