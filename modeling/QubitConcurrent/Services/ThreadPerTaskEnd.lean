import QubitConcurrent.Services.Stability
import QubitConcurrent.Services.ThreadPerTaskGate

/-!
# How a thread-per-task service ends

In a thread-per-task service nobody but the thread of a task takes the task out of
`active_tasks`, so that the count is a sum over the threads, and over a submission that has
raised it and has not released the submission lock yet. A thread takes its task out after the
result was published; the service is orderly; so whoever finds the count zero behind a set
flag finds every task done.
-/

namespace QubitConcurrent

namespace ThreadPerTask

open Services

open Services.Core (Advance)

open TaskHandle (TaskHandleInner Outcome runCallable)

variable {R E W : Type} {s s' : Service R E W}

namespace Waiting

/-- The waiter has loaded the flag set. -/
def hasLoaded : Waiting → Bool
  | loadActive => true
  | _ => false

/-- The waiter has returned. -/
def hasReturned : Waiting → Bool
  | returned => true
  | _ => false

instance : Looker Waiting where
  hasLoaded := hasLoaded
  hasReturned := hasReturned
  hasLoaded_wake a := by cases a <;> rfl
  hasReturned_wake a := by cases a <;> rfl

end Waiting

/-! ### What the count counts -/

/-- Whether the thread of a task, or the submission that is to create it, has still to take
the task out of the count. -/
def TaskPhase.weight : TaskPhase → ℕ
  | announcing _ | finished => 0
  | _ => 1

/-- Whether a submission that holds the lock has raised the count for its task. -/
def Holder.weight : Holder → ℕ
  | submitReleasing => 1
  | _ => 0

/-- The number of tasks that are inside. -/
def Service.inside (s : Service R E W) : ℕ :=
  (s.tasks.map fun t => t.phase.weight).sum + s.submissionLock.elim 0 Holder.weight

/-- The cell of a task says what its thread has come to. -/
def Task.Agrees (t : Task R E W) : Prop :=
  t.cell.done = t.cell.completed ∧
    match t.phase with
    | .executing => t.cell.started = true
    | .leaving | .announcing _ | .finished => t.cell.completed = true
    | _ => True

/-- **What the threads of a service may rely on.** -/
structure Sound (s : Service R E W) : Prop where
  /-- The cells agree with the threads. -/
  agrees : ∀ t ∈ s.tasks, t.Agrees
  /-- The count is right. -/
  count : s.activeTasks = s.inside
  /-- Handles are for admitted tasks. -/
  handles : ∀ i, .submit (.ok i) ∈ s.replies → i < s.tasks.length
  /-- A submission past its check holds the lock the flag is set under. -/
  entering : s.submissionLock = some .submitCounting ∨ s.submissionLock = some .submitReleasing →
    s.shutdown = false

/-- What a step does: it keeps what the threads rely on, it changes the common state as it
may, and it admits nothing once the flag is set. -/
structure Ending (s s' : Service R E W) : Prop where
  /-- The threads can rely on what they did. -/
  sound : Sound s'
  /-- The common state changes as it may. -/
  advance : Advance s.toCore s'.toCore
  /-- Once the flag is set, no task is admitted. -/
  frozen : s.shutdown = true → s'.tasks.length = s.tasks.length

/-- A service that was just created is sound. -/
theorem Sound.new : Sound (.new : Service R E W) where
  agrees := by simp [Service.new]
  count := rfl
  handles := by simp [Service.new]
  entering := by simp [Service.new]

/-- Where a task moves, those inside change by what the task weighs. -/
theorem Service.inside_setTask {i : ℕ} {t : Task R E W} (hi : s.tasks[i]? = some t)
    (t' : Task R E W) :
    ∃ n, s.inside = n + t.phase.weight ∧ (s.setTask i t').inside = n + t'.phase.weight := by
  obtain ⟨n, hbefore, hafter⟩ := sum_map_set (fun t => t.phase.weight) hi t'
  refine ⟨n + s.submissionLock.elim 0 Holder.weight, ?_, ?_⟩
  · rw [inside, hbefore]
    omega
  · simp only [inside, setTask]
    omega

section Steps

/-- A step that touches nothing but the common state, and not the count. -/
theorem ending_core (hs : Sound s) {c : Core Waiting} (h : Advance s.toCore c)
    (hshutdown : c.shutdown = s.shutdown) (hactive : c.activeTasks = s.activeTasks)
    (lock : Option ℕ) : Ending s { s with toCore := c, terminationLock := lock } where
  sound := ⟨hs.agrees, hactive.trans hs.count, hs.handles, fun h => hshutdown.trans (hs.entering h)⟩
  advance := h
  frozen _ := rfl

/-- A task moves beside the submission lock, and the count with it. -/
theorem ending_setTask (hs : Sound s) {i : ℕ} {t : Task R E W} (t' : Task R E W)
    (hi : s.tasks[i]? = some t)
    (hagrees : t.Agrees → t'.Agrees) {c : Core Waiting} (h : Advance s.toCore c)
    (hshutdown : c.shutdown = s.shutdown)
    (hactive : c.activeTasks + t.phase.weight = s.activeTasks + t'.phase.weight)
    {replies : List Reply} (hreplies : ∀ j, .submit (.ok j) ∈ replies →
      .submit (.ok j) ∈ s.replies ∨ j = i) :
    Ending s { s.setTask i t' with toCore := c, replies := replies } where
  sound := by
    obtain ⟨n, hbefore, hafter⟩ := Service.inside_setTask hi t'
    refine ⟨fun u hu => ?_, ?_, fun j hj => ?_, fun h => hshutdown.trans (hs.entering h)⟩
    · rcases List.mem_or_eq_of_mem_set hu with hold | rfl
      · exact hs.agrees u hold
      · exact hagrees (hs.agrees t (List.mem_of_getElem? hi))
    · have hcount := hs.count
      change c.activeTasks = (s.setTask i t').inside
      omega
    · have hlength : (s.setTask i t').tasks.length = s.tasks.length := List.length_set ..
      change j < (s.setTask i t').tasks.length
      rw [hlength]
      rcases hreplies j hj with hold | rfl
      · exact hs.handles j hold
      · exact (List.getElem?_eq_some_iff.mp hi).1
  advance := h
  frozen _ := List.length_set ..

/-- What a thread that may be inside `notify_if_terminated` weighs. -/
theorem weight_afterAnnounce (r : Option Announce) : (Service.afterAnnounce r).weight = 0 := by
  cases r <;> rfl

/-- A cell agrees with a thread that may be inside `notify_if_terminated`. -/
theorem agrees_afterAnnounce {cell : TaskHandleInner R E W} (h : (Task.mk cell .leaving).Agrees)
    (r : Option Announce) : (Task.mk cell (Service.afterAnnounce r)).Agrees := by
  cases r <;> exact h

/-- The thread of a task takes a step. -/
theorem ending_taskNext (hs : Sound s) {i : ℕ} (hstep : s.taskNext i = some s') :
    Ending s s' := by
  rw [Service.taskNext] at hstep
  split at hstep
  · next cell hi =>
    obtain rfl := Option.some.inj hstep
    obtain ⟨hdone, -⟩ := hs.agrees _ (List.mem_of_getElem? hi)
    cases hcompleted : cell.completed with
    | true =>
      have hstart : cell.start = (false, cell) := by rw [TaskHandleInner.start, if_pos hcompleted]
      rw [hstart]
      exact ending_setTask hs ⟨cell, .leaving⟩ hi (fun _ => ⟨hdone, hcompleted⟩)
        (.refl _) rfl rfl fun _ => Or.inl
    | false =>
      have hstart : cell.start = (true, { cell with started := true }) := by
        rw [TaskHandleInner.start, if_neg (by simp [hcompleted])]
      rw [hstart]
      exact ending_setTask hs ⟨{ cell with started := true }, .executing⟩ hi
        (fun _ => ⟨hdone, rfl⟩) (.refl _) rfl rfl fun _ => Or.inl
  · next cell hi =>
    obtain rfl := Option.some.inj hstep
    refine ending_setTask hs _ hi (fun h => agrees_afterAnnounce h _) (.leave _) rfl ?_
      fun _ => Or.inl
    -- the task was counted, so the count is not zero
    obtain ⟨n, hbefore, -⟩ := Service.inside_setTask hi ⟨cell, .finished⟩
    have hcount := hs.count
    rw [weight_afterAnnounce]
    simp only [TaskPhase.weight, Core.leave] at hbefore ⊢
    omega
  · next cell a hi =>
    obtain rfl := Option.some.inj hstep
    refine ending_setTask hs _ hi (fun h => agrees_afterAnnounce h _) (.announce ..)
      (Core.shutdown_announce ..) ?_ fun _ => Or.inl
    rw [Core.activeTasks_announce, weight_afterAnnounce]
    rfl
  · exact absurd hstep (by simp)

/-- A call of `wait_for_termination` takes a step. -/
theorem ending_waitNext (hs : Sound s) {k : ℕ} (hstep : s.waitNext k = some s') :
    Ending s s' := by
  rw [Service.waitNext] at hstep
  split at hstep
  · next hk =>
    split_ifs at hstep
    obtain rfl := Option.some.inj hstep
    exact ending_core hs (.setWaiter_quiet hk rfl rfl) rfl rfl _
  · next hk =>
    split_ifs at hstep
    obtain rfl := Option.some.inj hstep
    exact ending_core hs (.setWaiter_quiet hk rfl rfl) rfl rfl _
  · next hk =>
    obtain rfl := Option.some.inj hstep
    split_ifs with hshutdown
    · exact ending_core hs (.setWaiter hk (fun _ => hshutdown) (by simp [Looker.hasReturned,
        Waiting.hasReturned])) rfl rfl _
    · exact ending_core hs (.setWaiter_quiet hk rfl rfl) rfl rfl _
  · next hk =>
    split_ifs at hstep with hzero
    · obtain rfl := Option.some.inj hstep
      exact ending_core hs (.setWaiter hk (by simp [Looker.hasLoaded, Waiting.hasLoaded])
        fun _ => ⟨rfl, hzero⟩) rfl rfl _
    · obtain rfl := Option.some.inj hstep
      exact ending_core hs (.setWaiter_quiet hk rfl rfl) rfl rfl _
  · next hk =>
    obtain rfl := Option.some.inj hstep
    exact ending_core hs (.setWaiter_quiet hk rfl rfl) rfl rfl _
  · exact absurd hstep (by simp)

/-- The submission lock passes from one holder to another who weighs as much, or is
released. -/
theorem ending_lock (hs : Sound s) (lock : Option Holder)
    (hweight : lock.elim 0 Holder.weight = s.submissionLock.elim 0 Holder.weight)
    (hentering : lock = some .submitCounting ∨ lock = some .submitReleasing → s.shutdown = false)
    {c : Core Waiting} (h : Advance s.toCore c) (hactive : c.activeTasks = s.activeTasks)
    (hshutdown : s.shutdown = false → c.shutdown = false ∨
      lock ≠ some .submitCounting ∧ lock ≠ some .submitReleasing)
    {replies : List Reply} (hreplies : ∀ j, .submit (.ok j) ∈ replies →
      .submit (.ok j) ∈ s.replies) :
    Ending s { s with toCore := c, submissionLock := lock, replies := replies } where
  sound := by
    refine ⟨hs.agrees, ?_, fun j hj => hs.handles j (hreplies j hj), fun hlock => ?_⟩
    · have hcount := hs.count
      rw [Service.inside] at hcount ⊢
      simp only
      rw [hweight]
      exact hactive.trans hcount
    · rcases hshutdown (hentering hlock) with hopen | ⟨hcounting, hreleasing⟩
      · exact hopen
      · exact absurd hlock (by simp [hcounting, hreleasing])
  advance := h
  frozen _ := rfl

/-- The holder of the submission lock takes a step. -/
theorem ending_holderNext (hs : Sound s) {h : Holder} (hlock : s.submissionLock = some h) :
    Ending s (s.holderNext h) := by
  have hweight : s.submissionLock.elim 0 Holder.weight = h.weight := by
    rw [hlock, Option.elim_some]
  cases h with
  | submitChecking =>
    rw [Service.holderNext]
    split_ifs with hshutdown
    · exact ending_lock hs none hweight.symm (by simp) (.refl _) rfl
        (fun _ => Or.inr (by simp)) (by simp)
    · exact ending_lock hs (some .submitCounting) hweight.symm
        (fun _ => Bool.eq_false_iff.mpr hshutdown) (.refl _) rfl (fun h => Or.inl h) fun _ => id
  | submitCounting =>
    have hopen := hs.entering (Or.inl hlock)
    have hcount := hs.count
    refine ⟨⟨hs.agrees, ?_, hs.handles, fun _ => hopen⟩, .enter hopen, fun _ => rfl⟩
    change s.activeTasks + 1 = _
    rw [hcount, Service.inside, hweight]
    rfl
  | submitReleasing =>
    have hopen := hs.entering (Or.inr hlock)
    have hcount := hs.count
    refine ⟨⟨fun t ht => ?_, ?_, fun i hi => ?_, by simp [Service.holderNext]⟩, .refl _,
      fun hshutdown => absurd (hopen.symm.trans hshutdown) Bool.false_ne_true⟩
    · rcases List.mem_append.mp ht with hold | hnew
      · exact hs.agrees t hold
      · rw [List.mem_singleton.mp hnew]
        exact ⟨rfl, trivial⟩
    · rw [Service.inside, hweight] at hcount
      simpa [Service.inside, Service.holderNext, TaskPhase.weight, Holder.weight] using hcount
    · have hlt := hs.handles i hi
      simp only [Service.holderNext, List.length_append, List.length_singleton]
      omega
  | shutdownStoring =>
    exact ending_lock hs (some (.shutdownAnnouncing .loadShutdown)) hweight.symm
      (by simp) (.close _) rfl (fun _ => Or.inr (by simp)) fun _ => id
  | shutdownNowStoring =>
    exact ending_lock hs (some .shutdownNowReading) hweight.symm (by simp) (.close _) rfl
      (fun _ => Or.inr (by simp)) fun _ => id
  | shutdownNowReading =>
    exact ending_lock hs (some (.shutdownNowAnnouncing ..)) hweight.symm (by simp)
      (.refl _) rfl (fun h => Or.inl h) fun _ => id
  | shutdownAnnouncing a =>
    have hadvance := Advance.announce s.toCore a
    have hactive := s.toCore.activeTasks_announce a
    rw [Service.holderNext]
    split
    · next a' c hc =>
      rw [hc] at hadvance hactive
      exact ending_lock hs (some (.shutdownAnnouncing a')) hweight.symm (by simp)
        hadvance hactive (fun _ => Or.inr (by simp)) fun _ => id
    · next c hc =>
      rw [hc] at hadvance hactive
      exact ending_lock hs none hweight.symm (by simp) hadvance hactive
        (fun _ => Or.inr (by simp)) (by simp)
  | shutdownNowAnnouncing a report =>
    have hadvance := Advance.announce s.toCore a
    have hactive := s.toCore.activeTasks_announce a
    rw [Service.holderNext]
    split
    · next a' c hc =>
      rw [hc] at hadvance hactive
      exact ending_lock hs (some (.shutdownNowAnnouncing a' report)) hweight.symm
        (by simp) hadvance hactive (fun _ => Or.inr (by simp)) fun _ => id
    · next c hc =>
      rw [hc] at hadvance hactive
      exact ending_lock hs none hweight.symm (by simp) hadvance hactive
        (fun _ => Or.inr (by simp)) (by simp)

/-- A cell agrees with its thread after a cancellation, published or not. -/
theorem Task.Agrees.cancel {t : Task R E W} (h : t.Agrees) :
    Task.Agrees { t with cell := t.cell.cancel.2 } := by
  obtain ⟨cell, phase⟩ := t
  obtain ⟨hdone, hphase⟩ := h
  rw [TaskHandleInner.cancel, TaskHandleInner.finish]
  split_ifs
  · exact ⟨hdone, hphase⟩
  · refine ⟨rfl, ?_⟩
    cases phase with
    | executing => exact hphase
    | _ => first | exact rfl | exact trivial

/-- **Every step keeps what the threads rely on, and does nothing but what may end the
service.** -/
theorem step_ending (hs : Sound s) {a : Action R E} (hstep : s.step a = some s') :
    Ending s s' := by
  cases a with
  | submit | shutdown | shutdownNow =>
    simp only [Service.step, Service.acquire] at hstep
    split_ifs at hstep with hlock
    obtain rfl := Option.some.inj hstep
    exact ending_lock hs (some _) (by rw [hlock]; rfl) (by simp) (.refl _) rfl
      (fun h => Or.inl h) fun _ => id
  | holderNext =>
    obtain ⟨h, hlock, rfl⟩ := Option.map_eq_some_iff.mp hstep
    exact ending_holderNext hs hlock
  | spawn i created =>
    simp only [Service.step, Service.spawn] at hstep
    split at hstep
    · next cell hi =>
      obtain rfl := Option.some.inj hstep
      split_ifs
      · exact ending_setTask hs ⟨cell, .spawned⟩ hi id (.refl _) rfl rfl (by simp)
      · exact ending_setTask hs ⟨cell, .unborn⟩ hi id (.refl _) rfl rfl
          fun j hj => Or.inl (by simpa using hj)
    · exact absurd hstep (by simp)
  | taskNext i => exact ending_taskNext hs hstep
  | callReturns i outcome =>
    simp only [Service.step, Service.callReturns] at hstep
    split at hstep
    · next cell hi =>
      obtain rfl := Option.some.inj hstep
      refine ending_setTask hs ⟨(cell.complete (runCallable outcome)).2, .leaving⟩ hi
        (fun h => ?_) (.refl _) rfl rfl fun _ => Or.inl
      obtain ⟨hdone, -⟩ := h
      rw [TaskHandleInner.complete, TaskHandleInner.finish]
      split_ifs with hcompleted
      · exact ⟨hdone, by simpa using hcompleted⟩
      · exact ⟨rfl, rfl⟩
    · exact absurd hstep (by simp)
  | taskUnwinds i =>
    simp only [Service.step, Service.taskUnwinds] at hstep
    split at hstep
    · next cell hi =>
      obtain rfl := Option.some.inj hstep
      exact ending_setTask hs ⟨cell, .unwound⟩ hi (fun h => ⟨h.1, trivial⟩) (.refl _) rfl rfl
        fun _ => Or.inl
    · next cell hi =>
      obtain rfl := Option.some.inj hstep
      exact ending_setTask hs ⟨cell, .unwound⟩ hi (fun h => ⟨h.1, trivial⟩) (.refl _) rfl rfl
        fun _ => Or.inl
    · exact absurd hstep (by simp)
  | handleCancel i =>
    simp only [Service.step, Service.handleCancel] at hstep
    split at hstep
    · exact absurd hstep (by simp)
    · exact absurd hstep (by simp)
    · exact absurd hstep (by simp)
    · next t _ _ hi =>
      obtain rfl := Option.some.inj hstep
      exact ending_setTask hs _ hi (fun h => h.cancel) (.refl _) rfl rfl fun _ => Or.inl
  | wait =>
    obtain rfl := Option.some.inj hstep
    exact ending_core hs (.addWaiter _ rfl rfl) rfl rfl _
  | waitNext k => exact ending_waitNext hs hstep
  | wakeWaiter k =>
    simp only [Service.step, Service.wakeWaiter] at hstep
    split at hstep
    · next hk =>
      obtain rfl := Option.some.inj hstep
      exact ending_core hs (.setWaiter_quiet hk rfl rfl) rfl rfl _
    · exact absurd hstep (by simp)
  | isTerminated =>
    obtain rfl := Option.some.inj hstep
    exact ending_core hs (.query _) rfl rfl _
  | queryNext k =>
    obtain ⟨c, hc, rfl⟩ := Option.map_eq_some_iff.mp hstep
    exact ending_core hs (.queryNext hc) (Core.shutdown_queryNext hc)
      (Core.activeTasks_queryNext hc) _

end Steps

/-- Over every run, the threads can rely on each other. -/
theorem sound_of_reach (hs : (machine R E W).Reach s) : Sound s := by
  refine hs.invariant (I := Sound) ?_ ?_
  · intro s hinit
    rw [hinit]
    exact .new
  · intro s a s' _ hsound _ hstep
    exact (step_ending hsound hstep).sound

/-- **A thread-per-task service is orderly.** -/
theorem orderly (R E W : Type) :
    Orderly (machine R E W) (·.toCore) (·.tasks.length) (·.replies) where
  init s hinit := by
    rw [hinit]
    rfl
  advance _ _ _ hr hstep := (step_ending (sound_of_reach hr) hstep).advance
  frozen _ _ _ hr hstep := (step_ending (sound_of_reach hr) hstep).frozen
  accepted _ hr i hi := (sound_of_reach hr).handles i hi

/-- **Where the flag is set and the count is zero, every task has its result**, and none is
inside its callable. -/
theorem done_of_isTerminated (hs : (machine R E W).Reach s) (hterm : s.isTerminated = true) :
    ∀ t ∈ s.tasks, t.cell.done = true ∧ t.phase ≠ .executing := by
  obtain ⟨-, hzero⟩ := Core.isTerminated_iff.mp hterm
  have hsound := sound_of_reach hs
  have hcount := hsound.count
  intro t ht
  obtain ⟨hdone, hcell⟩ := hsound.agrees t ht
  have hweight : t.phase.weight = 0 := by
    have hsum : (s.tasks.map fun t => t.phase.weight).sum = 0 := by
      rw [Service.inside] at hcount
      omega
    exact List.sum_eq_zero_iff_forall_eq_nat.mp hsum _ (List.mem_map_of_mem ht)
  generalize t.phase = phase at hcell hweight
  cases phase with
  | announcing a => exact ⟨hdone.trans hcell, by simp⟩
  | finished => exact ⟨hdone.trans hcell, by simp⟩
  | _ => exact absurd hweight one_ne_zero

end ThreadPerTask

end QubitConcurrent
