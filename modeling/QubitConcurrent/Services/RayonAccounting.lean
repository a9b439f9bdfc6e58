import QubitConcurrent.Lib.Books
import QubitConcurrent.Lib.History
import QubitConcurrent.Services.RayonGate

/-!
# The books of a Rayon service

A Rayon service keeps its tasks in `active_tasks`, `queued_tasks` and `pending_tasks`. Who
strikes a task out of them is settled by its cell: the closure in the pool, if it starts the
task, and otherwise the call that publishes the cancellation. The winner does its bookkeeping
later, one book after the other, while `shutdown_now` may drain the map under its hands.

At every moment the duty lies at one place: with the cell, as long as nobody has won; with the
closure; or with one call of the closure that cancels. `QubitConcurrent.Rayon.strikes` counts
the places. That it is one before the stroke and zero after it is the invariant of
`QubitConcurrent.Books`, which knows nothing of threads; what is proved here is that each step
of the service is a step of the books (`QubitConcurrent.Rayon.step_kept`).
-/

namespace QubitConcurrent

namespace Rayon

open Services

open TaskHandle (TaskHandleInner Outcome runCallable)

variable {R E W : Type}

/-! ### Who is to strike a task out -/

/-- The books a task is entered in. -/
inductive Book
  /-- `active_tasks`. -/
  | active
  /-- `queued_tasks`. -/
  | queued
  /-- `pending_tasks`. -/
  | pending
  deriving DecidableEq, Repr

/-- Whether a closure that has started its task is still to strike it out of a book. -/
def RunPhase.strikes : RunPhase → Book → Bool
  | .unregistering, _ => true
  | .unqueueing, b => b != .pending
  | .executing, b | .leaving, b => b == .active
  | _, _ => false

/-- Whether a call that has published a cancellation is still to strike the task out of a
book. -/
def CancelPhase.strikes : CancelPhase → Book → Bool
  | .unregistering, _ => true
  | .unqueueing, b => b != .pending
  | .leaving, b => b == .active
  | _, _ => false

/-- Whether nobody has started or cancelled the task. -/
def Task.isOpen (t : Task R E W) : Bool := !t.cell.started && !t.cell.completed

/-- Whether the task is open, and is to be struck out of the book by whoever wins it, or its
closure has won it and is to strike it out. -/
def Task.strikes (t : Task R E W) (b : Book) : Bool := t.isOpen || t.run.strikes b

/-- How many places there are from which a task is to be struck out of a book. -/
def strikes (tasks : List (Task R E W)) (calls : List Cancel) (b : Book) (i : ℕ) : ℕ :=
  ((tasks[i]?).any (·.strikes b)).toNat + calls.countP fun c => c.task == i && c.phase.strikes b

section Strikes

variable {tasks : List (Task R E W)} {calls l₁ l₂ : List Cancel} {i : ℕ} {t t' : Task R E W}
  {b : Book}

theorem RunPhase.strikes_active {p : RunPhase} (h : p.strikes b = true) :
    p.strikes .active = true := by
  cases p with
  | unregistering | unqueueing | executing | leaving => rfl
  | _ => exact absurd h Bool.false_ne_true

theorem CancelPhase.strikes_active {p : CancelPhase} (h : p.strikes b = true) :
    p.strikes .active = true := by
  cases p with
  | unregistering | unqueueing | leaving => rfl
  | _ => exact absurd h Bool.false_ne_true

theorem Task.strikes_active (h : t.strikes b = true) : t.strikes .active = true := by
  simp only [Task.strikes, Bool.or_eq_true] at h ⊢
  exact h.imp_right RunPhase.strikes_active

/-- How often calls strike, who are to strike the task out of `active_tasks` at most that
often. -/
theorem countP_strikes_le (calls : List Cancel) (b : Book) (i : ℕ) :
    calls.countP (fun c => c.task == i && c.phase.strikes b) ≤
      calls.countP (fun c => c.task == i && c.phase.strikes .active) := by
  refine List.countP_mono_left fun c _ hc => ?_
  rw [Bool.and_eq_true] at hc ⊢
  exact ⟨hc.1, CancelPhase.strikes_active hc.2⟩

/-- **Where the closure, or the cell, is to strike, nobody else is.** -/
theorem strikes_of_task (hone : strikes tasks calls .active i ≤ 1) (hi : tasks[i]? = some t)
    (ht : t.strikes .active = true) :
    calls.countP (fun c => c.task == i && c.phase.strikes b) = 0 := by
  have hle := countP_strikes_le calls b i
  simp only [strikes, hi, Option.any_some, ht, Bool.toNat_true] at hone
  omega

/-- What is to be struck out where a task moves. -/
theorem strikes_set (hi : tasks[i]? = some t) (t' : Task R E W) :
    strikes (tasks.set i t') calls b =
      Function.update (strikes tasks calls b) i
        ((t'.strikes b).toNat + calls.countP fun c => c.task == i && c.phase.strikes b) := by
  obtain ⟨hlt, -⟩ := List.getElem?_eq_some_iff.mp hi
  funext j
  rcases eq_or_ne j i with rfl | hne
  · simp [strikes, hlt]
  · simp [strikes, Function.update_of_ne hne, List.getElem?_set_ne hne.symm]

/-- A task moves, and as much is to be struck out as before. -/
theorem strikes_set_same (hi : tasks[i]? = some t) (ht : t'.strikes b = t.strikes b) :
    strikes (tasks.set i t') calls b = strikes tasks calls b := by
  rw [strikes_set hi, Function.update_eq_self_iff, ht]
  simp [strikes, hi]

/-- A task whose closure is to strike moves. -/
theorem strikes_set_active (hone : strikes tasks calls .active i ≤ 1) (hi : tasks[i]? = some t)
    (ht : t.strikes .active = true) (t' : Task R E W) :
    strikes (tasks.set i t') calls b =
      Function.update (strikes tasks calls b) i (t'.strikes b).toNat := by
  rw [strikes_set hi, strikes_of_task hone hi ht, Nat.add_zero]

variable {c c' : Cancel}

/-- A call moves, and as much is to be struck out as before. -/
theorem strikes_call_same (htask : c'.task = c.task)
    (hphase : c'.phase.strikes b = c.phase.strikes b) :
    strikes tasks (l₁ ++ c' :: l₂) b = strikes tasks (l₁ ++ c :: l₂) b := by
  funext j
  simp [strikes, List.countP_cons, htask, hphase]

/-- **Where a call is to strike, nobody else is.** -/
theorem strikes_of_call (hone : strikes tasks (l₁ ++ c :: l₂) .active c.task ≤ 1)
    (hc : c.phase.strikes .active = true) :
    ((tasks[c.task]?).any (·.strikes b)) = false ∧
      l₁.countP (fun d => d.task == c.task && d.phase.strikes b) = 0 ∧
      l₂.countP (fun d => d.task == c.task && d.phase.strikes b) = 0 := by
  have hle₁ := countP_strikes_le l₁ b c.task
  have hle₂ := countP_strikes_le l₂ b c.task
  simp only [strikes, List.countP_append, List.countP_cons, beq_self_eq_true, hc, Bool.and_self,
    if_true] at hone
  have htoNat : ((tasks[c.task]?).any (·.strikes .active)).toNat = 0 := by omega
  refine ⟨?_, by omega, by omega⟩
  cases ht : tasks[c.task]? with
  | none => rfl
  | some t =>
    rw [ht, Option.any_some] at htoNat
    refine Bool.eq_false_iff.mpr fun hstrikes => ?_
    rw [Task.strikes_active hstrikes] at htoNat
    exact absurd htoNat one_ne_zero

/-- A call that is to strike moves. -/
theorem strikes_call_active (hone : strikes tasks (l₁ ++ c :: l₂) .active c.task ≤ 1)
    (hc : c.phase.strikes .active = true) (htask : c'.task = c.task) :
    strikes tasks (l₁ ++ c' :: l₂) b =
      Function.update (strikes tasks (l₁ ++ c :: l₂) b) c.task (c'.phase.strikes b).toNat := by
  obtain ⟨htasks, hbefore, hafter⟩ := strikes_of_call (b := b) hone hc
  funext j
  rcases eq_or_ne j c.task with rfl | hne
  · rw [Function.update_self, strikes, List.countP_append, List.countP_cons, hbefore, hafter,
      htasks, htask, beq_self_eq_true, Bool.true_and]
    cases c'.phase.strikes b <;> rfl
  · have hne' : (c.task == j) = false := by simpa using hne.symm
    simp [strikes, Function.update_of_ne hne, htask, hne']

/-- What is to be struck out of a book where a call is to strike. -/
theorem strikes_eq_of_call (hone : strikes tasks (l₁ ++ c :: l₂) .active c.task ≤ 1)
    (hc : c.phase.strikes .active = true) :
    strikes tasks (l₁ ++ c :: l₂) b c.task = (c.phase.strikes b).toNat := by
  have h := congrFun (strikes_call_active (b := b) hone hc rfl) c.task
  rwa [Function.update_self] at h

/-- What is to be struck out of a book where a closure is to strike. -/
theorem strikes_eq_of_task (hone : strikes tasks calls .active i ≤ 1) (hi : tasks[i]? = some t)
    (ht : t.strikes .active = true) : strikes tasks calls b i = (t.strikes b).toNat := by
  rw [strikes, strikes_of_task hone hi ht, hi, Option.any_some, Nat.add_zero]

end Strikes

/-! ### What the threads know -/

/-- The cell of a task says what its closure has come to. -/
def Task.Agrees (t : Task R E W) : Prop :=
  t.cell.done = t.cell.completed ∧
    match t.run with
    | .submitting => t.cell.started = false ∧ t.cell.completed = false
    | .unspawned | .spawned => t.cell.started = false
    | .skipped => t.cell.started = false ∧ t.cell.completed = true
    | .unregistering | .unqueueing | .executing =>
      t.cell.started = true ∧ t.cell.completed = false
    | .leaving | .announcing _ | .finished => t.cell.started = true ∧ t.cell.completed = true

/-- A task is open if it was neither started nor completed. -/
theorem Task.isOpen_iff {t : Task R E W} :
    t.isOpen = true ↔ t.cell.started = false ∧ t.cell.completed = false := by
  simp [Task.isOpen]

/-- Who finds a task not open cannot cancel it. -/
theorem Task.cancel_of_not_open {t : Task R E W} (h : t.isOpen = false) :
    t.cell.cancel = ((false, none), t.cell) := by
  rw [TaskHandleInner.cancel, TaskHandleInner.finish, if_pos]
  by_contra hguard
  have hopen : t.isOpen = true := Task.isOpen_iff.mpr (by simpa [and_comm] using hguard)
  exact Bool.false_ne_true (h.symm.trans hopen)

/-- Who finds a task open cancels it. -/
theorem Task.cancel_of_open {t : Task R E W} (h : t.isOpen = true) :
    t.cell.cancel = ((true, t.cell.waker),
      { t.cell with
        result := some (.error .cancelled), completed := true, done := true, waker := none }) := by
  obtain ⟨hstarted, hcompleted⟩ := Task.isOpen_iff.mp h
  rw [TaskHandleInner.cancel, TaskHandleInner.finish, if_neg (by simp [hstarted, hcompleted])]

/-- **What a call that cancels does in a step**, and what becomes of the call. -/
inductive CancelMove (s : Service R E W) : Cancel → Cancel × Service R E W → Prop
  /-- The task was open; its cancellation is published. -/
  | publishes (i : ℕ) (t : Task R E W) (hi : s.tasks[i]? = some t) (hopen : t.isOpen = true) :
      CancelMove s ⟨i, .publishing⟩ (⟨i, .unregistering⟩,
        s.setTask i { t with cell := t.cell.cancel.2 })
  /-- Somebody was faster. -/
  | loses (i : ℕ) (t : Task R E W) (hi : s.tasks[i]? = some t) (hopen : t.isOpen = false) :
      CancelMove s ⟨i, .publishing⟩ (⟨i, .returned false⟩, s)
  /-- The task is removed from the map. -/
  | unregisters (i : ℕ) : CancelMove s ⟨i, .unregistering⟩ (⟨i, .unqueueing⟩, s.unregister i)
  /-- The task is taken out of `queued_tasks`. -/
  | unqueues (i : ℕ) : CancelMove s ⟨i, .unqueueing⟩ (⟨i, .leaving⟩, s.unqueue)
  /-- The task is taken out of `active_tasks`. -/
  | leaves (i : ℕ) :
      CancelMove s ⟨i, .leaving⟩
        (⟨i, Service.cancelAfter s.leave.1⟩, { s with toCore := s.leave.2 })
  /-- `notify_if_terminated` takes a step. -/
  | announces (i : ℕ) (a : Announce) :
      CancelMove s ⟨i, .announcing a⟩
        (⟨i, Service.cancelAfter (s.announce a).1⟩, { s with toCore := (s.announce a).2 })

/-- A step of a call that cancels is one of its moves. -/
theorem cancelNext_move {s : Service R E W} {c : Cancel} {r : Cancel × Service R E W}
    (hstep : s.cancelNext c = some r) : CancelMove s c r := by
  obtain ⟨i, phase⟩ := c
  rw [Service.cancelNext] at hstep
  cases phase with
  | publishing =>
    simp only at hstep
    split at hstep
    · next t hi =>
      obtain rfl := Option.some.inj hstep
      cases hopen : t.isOpen with
      | true =>
        have hmove := CancelMove.publishes i t hi hopen
        rwa [Task.cancel_of_open hopen] at hmove ⊢
      | false =>
        have hsame : s.tasks.set i t = s.tasks := by
          obtain ⟨hlt, rfl⟩ := List.getElem?_eq_some_iff.mp hi
          exact List.set_getElem_self hlt
        rw [Task.cancel_of_not_open hopen, Service.setTask, hsame]
        exact .loses i t hi hopen
    · exact absurd hstep (by simp)
  | unregistering =>
    obtain rfl := Option.some.inj hstep
    exact .unregisters i
  | unqueueing =>
    obtain rfl := Option.some.inj hstep
    exact .unqueues i
  | leaving =>
    obtain rfl := Option.some.inj hstep
    exact .leaves i
  | announcing a =>
    obtain rfl := Option.some.inj hstep
    exact .announces i a
  | returned answer => exact absurd hstep (by simp)

namespace Task.Agrees

variable {t : Task R E W}

/-- The closure of a task that was not started is not to strike. -/
theorem strikes_eq_false (h : t.Agrees) (hstarted : t.cell.started = false) (b : Book) :
    t.run.strikes b = false := by
  obtain ⟨-, hrun⟩ := h
  generalize t.run = run at hrun
  cases run with
  | unregistering | unqueueing | executing | leaving => simp_all
  | _ => rfl

/-- A cancellation of a task that is open is published, and whoever publishes it is to
strike. -/
theorem cancel_open (h : t.Agrees) (hopen : t.isOpen = true) :
    t.cell.cancel.1.1 = true ∧
      ∀ b, Task.strikes { t with cell := t.cell.cancel.2 } b = false := by
  rw [Task.cancel_of_open hopen]
  refine ⟨rfl, fun b => ?_⟩
  simp [Task.strikes, Task.isOpen, h.strikes_eq_false (Task.isOpen_iff.mp hopen).1]

/-- A cell agrees with its closure after a cancellation, published or not. -/
theorem cancel (h : t.Agrees) (hrun : t.run ≠ .submitting) :
    Task.Agrees { t with cell := t.cell.cancel.2 } := by
  cases hopen : t.isOpen with
  | false =>
    rw [Task.cancel_of_not_open hopen]
    exact h
  | true =>
    rw [Task.cancel_of_open hopen]
    obtain ⟨cell, run⟩ := t
    obtain ⟨-, hcell⟩ := h
    have hstarted : cell.started = false := (Task.isOpen_iff.mp hopen).1
    refine ⟨rfl, ?_⟩
    cases run with
    | submitting => exact absurd rfl hrun
    | unspawned | spawned => exact hstarted
    | skipped => exact ⟨hstarted, rfl⟩
    | _ => exact absurd hcell.1 (by simp [hstarted])

end Task.Agrees

/-- The call that cancels a task and that a `shutdown_now` is in. -/
def Sweep.current : Sweep → Option Cancel
  | cancelling _ current _ => current
  | _ => none

/-- The tasks a `shutdown_now` is still to cancel. -/
def Sweep.pending : Sweep → List ℕ
  | cancelling pending _ _ => pending
  | _ => []

/-- The task a holder of the submission lock is submitting. -/
def Holder.task : Holder → Option ℕ
  | submitCounting i | submitQueueing i | submitRegistering i | submitReleasing i => some i
  | _ => none

/-- The tasks a holder of the submission lock has drained from the map. -/
def Holder.drained : Holder → List ℕ
  | shutdownNowReleasing pending _ _ => pending
  | _ => []

namespace Service

/-- The calls of the closures that cancel, by handles and by `shutdown_now`. -/
def cancelCalls (s : Service R E W) : List Cancel := s.cancels ++ s.sweeps.filterMap Sweep.current

/-- Whether the task is known outside the submission that made it. -/
def Known (s : Service R E W) (i : ℕ) : Prop := ∃ t, s.tasks[i]? = some t ∧ t.run ≠ .submitting

end Service

/-- **What the threads of a service may rely on.** -/
structure Sound (s : Service R E W) : Prop where
  /-- The cells agree with the closures. -/
  agrees : ∀ t ∈ s.tasks, t.Agrees
  /-- Handles are for known tasks. -/
  handles : ∀ i, .submit (.ok i) ∈ s.replies → s.Known i
  /-- Calls cancel known tasks. -/
  calls : ∀ c ∈ s.cancelCalls, s.Known c.task
  /-- A `shutdown_now` is going to cancel known tasks. -/
  sweeps : ∀ w ∈ s.sweeps, ∀ i ∈ w.pending, s.Known i
  /-- A `shutdown_now` that holds the submission lock has drained known tasks. -/
  drained : ∀ h, s.submissionLock = some h → ∀ i ∈ h.drained, s.Known i
  /-- The task that is being submitted is the last one, and is not known. -/
  submitted : ∀ h, s.submissionLock = some h → ∀ i, h.task = some i →
    i + 1 = s.tasks.length ∧ ∃ cell, s.tasks[i]? = some ⟨cell, .submitting⟩
  /-- The map holds known tasks, but for the one that is being submitted. -/
  pending : ∀ i ∈ s.pendingTasks, s.Known i ∨ s.submissionLock = some (.submitReleasing i)

/-- **How tasks move beside the submission lock**: none at all, or a known one. -/
inductive Moved (tasks : List (Task R E W)) : List (Task R E W) → Prop
  /-- None moves. -/
  | refl : Moved tasks tasks
  /-- A known one moves. -/
  | set (i : ℕ) (t t' : Task R E W) (hi : tasks[i]? = some t) (ht : t.run ≠ .submitting)
      (ht' : t'.run ≠ .submitting) (hagrees : t.Agrees → t'.Agrees) : Moved tasks (tasks.set i t')

namespace Sound

variable {s s' : Service R E W} {tasks tasks' : List (Task R E W)} {i : ℕ}

/-- A service that was just created is sound. -/
theorem new : Sound (.new : Service R E W) where
  agrees := by simp [Service.new]
  handles := by simp [Service.new]
  calls := by simp [Service.new, Service.cancelCalls]
  sweeps := by simp [Service.new]
  drained := by simp [Service.new]
  submitted := by simp [Service.new]
  pending := by simp [Service.new]

/-- Nobody is lost where tasks move. -/
theorem length_eq (h : Moved tasks tasks') : tasks'.length = tasks.length := by
  cases h with
  | refl => rfl
  | set i t t' hi ht ht' hagrees => exact List.length_set ..

/-- Where tasks move, cells agree with closures as before. -/
theorem agrees_of_moved (h : Moved tasks tasks') (hall : ∀ t ∈ tasks, t.Agrees) :
    ∀ t ∈ tasks', t.Agrees := by
  cases h with
  | refl => exact hall
  | set i t t' hi ht ht' hagrees =>
    intro u hu
    rcases List.mem_or_eq_of_mem_set hu with hold | rfl
    · exact hall u hold
    · exact hagrees (hall t (List.mem_of_getElem? hi))

/-- Where tasks move, those that are known stay known. -/
theorem known_of_moved (h : Moved s.tasks s'.tasks) (hi : s.Known i) : s'.Known i := by
  obtain ⟨u, hu, hrun⟩ := hi
  generalize hs' : s'.tasks = tasks' at h
  cases h with
  | refl => exact ⟨u, hs' ▸ hu, hrun⟩
  | set j t t' hj ht ht' hagrees =>
    rcases getElem?_set_kept hj hu t' with ⟨rfl, -⟩ | ⟨-, hstill⟩
    · exact ⟨t', hs' ▸ getElem?_set_of_some hj t', ht'⟩
    · exact ⟨u, hs' ▸ hstill, hrun⟩

/-- Where tasks move, the one that is being submitted does not. -/
theorem submitting_of_moved (h : Moved tasks tasks') {cell : TaskHandleInner R E W}
    (hi : tasks[i]? = some ⟨cell, .submitting⟩) : tasks'[i]? = some ⟨cell, .submitting⟩ := by
  cases h with
  | refl => exact hi
  | set j t t' hj ht ht' hagrees =>
    rcases getElem?_set_kept hj hi t' with ⟨-, rfl⟩ | ⟨-, hstill⟩
    · exact absurd rfl ht
    · exact hstill

/-- **Steps beside the submission lock keep what the threads rely on.** -/
theorem beside (h : Sound s) (hlock : s'.submissionLock = s.submissionLock)
    (htasks : Moved s.tasks s'.tasks)
    (hhandles : ∀ i, .submit (.ok i) ∈ s'.replies → s.Known i)
    (hcalls : ∀ c ∈ s'.cancelCalls, s.Known c.task)
    (hsweeps : ∀ w ∈ s'.sweeps, ∀ i ∈ w.pending, s.Known i)
    (hpending : s'.pendingTasks ⊆ s.pendingTasks) : Sound s' where
  agrees := agrees_of_moved htasks h.agrees
  handles i hi := known_of_moved htasks (hhandles i hi)
  calls c hc := known_of_moved htasks (hcalls c hc)
  sweeps w hw i hi := known_of_moved htasks (hsweeps w hw i hi)
  drained holder hholder i hi :=
    known_of_moved htasks (h.drained holder (hlock ▸ hholder) i hi)
  submitted holder hholder i hi := by
    obtain ⟨hlast, cell, hcell⟩ := h.submitted holder (hlock ▸ hholder) i hi
    exact ⟨by rw [length_eq htasks, hlast], cell, submitting_of_moved htasks hcell⟩
  pending i hi := by
    rw [hlock]
    exact (h.pending i (hpending hi)).imp_left (known_of_moved htasks)

/-- A known task is not the one that is being submitted. -/
theorem not_known (h : Sound s) {holder : Holder} (hholder : s.submissionLock = some holder)
    (hi : holder.task = some i) : ¬ s.Known i := by
  rintro ⟨t, ht, hrun⟩
  obtain ⟨-, cell, hcell⟩ := h.submitted holder hholder i hi
  rw [hcell] at ht
  obtain rfl := Option.some.inj ht
  exact hrun rfl

end Sound

/-! ### The books -/

namespace Service

/-- The number of tasks whose `active_tasks.inc()` has come. -/
def counted (s : Service R E W) : ℕ :=
  match s.submissionLock with
  | some (.submitCounting _) => s.tasks.length - 1
  | _ => s.tasks.length

/-- The number of tasks whose `queued_tasks.inc()` has come. -/
def enqueued (s : Service R E W) : ℕ :=
  match s.submissionLock with
  | some (.submitCounting _) | some (.submitQueueing _) => s.tasks.length - 1
  | _ => s.tasks.length

/-- The books of the service, given the calls that cancel. -/
def booksWith (s : Service R E W) (calls : List Cancel) : Books where
  numbered := s.tasks.length
  counted := s.counted
  enqueued := s.enqueued
  active := s.activeTasks
  queued := s.queuedTasks
  pending := s.pendingTasks
  activeAt := strikes s.tasks calls .active
  queuedAt := strikes s.tasks calls .queued
  registeredAt := strikes s.tasks calls .pending

/-- The books of the service. -/
def books (s : Service R E W) : Books := s.booksWith s.cancelCalls

end Service

/-- What the closure of a task strikes out of the counters in its next step. -/
def RunPhase.struck (i : ℕ) : RunPhase → List Entry
  | unqueueing => [.unqueued i]
  | leaving => [.left i]
  | _ => []

/-- What a call that cancels strikes out of the counters in its next step. -/
def Cancel.struck (c : Cancel) : List Entry :=
  match c.phase with
  | .unqueueing => [.unqueued c.task]
  | .leaving => [.left c.task]
  | _ => []

/-- **What a step strikes out**: an entry for each `queued_tasks.dec()` and each
`active_tasks.dec()`. -/
def Service.struck (s : Service R E W) : Action R E → List Entry
  | .runNext i => (s.tasks[i]?).elim [] fun t => t.run.struck i
  | .handleNext k => (s.cancels[k]?).elim [] Cancel.struck
  | .sweepNext k => ((s.sweeps[k]?).bind Sweep.current).elim [] Cancel.struck
  | _ => []

namespace Service

variable {s : Service R E W} {i k : ℕ}

/-- What the closure of a task strikes out is told by its phase. -/
theorem struck_runNext {t : Task R E W} (hi : s.tasks[i]? = some t) :
    s.struck (.runNext i : Action R E) = t.run.struck i := by
  rw [struck, hi, Option.elim_some]

/-- What a call of a handle strikes out is told by its phase. -/
theorem struck_handleNext {c : Cancel} (hk : s.cancels[k]? = some c) :
    s.struck (.handleNext k : Action R E) = c.struck := by
  rw [struck, hk, Option.elim_some]

/-- What a `shutdown_now` strikes out is told by the call it is in. -/
theorem struck_sweepNext {w : Sweep} (hk : s.sweeps[k]? = some w) :
    s.struck (.sweepNext k : Action R E) = w.current.elim [] Cancel.struck := by
  rw [struck, hk, Option.bind_some]

end Service

/-- What a step does to the threads and to the books. -/
structure Kept (s s' : Service R E W) (notes : List Entry) : Prop where
  /-- The threads can rely on what they did. -/
  sound : Sound s'
  /-- The books are kept as they should be. -/
  booking : Books.Booking s.books s'.books notes

section Kept

variable {s s' : Service R E W} {i : ℕ}

/-- A known task was counted as waiting. -/
theorem Sound.lt_enqueued (h : Sound s) (hi : s.Known i) : i < s.enqueued := by
  obtain ⟨t, ht, hrun⟩ := hi
  obtain ⟨hlt, -⟩ := List.getElem?_eq_some_iff.mp ht
  -- who holds the lock has given the last number, and that task is not known
  have hlast : ∀ holder, s.submissionLock = some holder → holder.task ≠ none →
      i < s.tasks.length - 1 := by
    intro holder hholder hsome
    obtain ⟨j, hj⟩ := Option.ne_none_iff_exists'.mp hsome
    have hne : i ≠ j := by
      rintro rfl
      exact h.not_known hholder hj ⟨t, ht, hrun⟩
    have hj' := (h.submitted holder hholder j hj).1
    omega
  rw [Service.enqueued]
  split
  · next j hholder => exact hlast _ hholder (by simp [Holder.task])
  · next j hholder => exact hlast _ hholder (by simp [Holder.task])
  · exact hlt

/-- What waits was counted as inside. -/
theorem Service.enqueued_le_counted (s : Service R E W) : s.enqueued ≤ s.counted := by
  rw [Service.enqueued, Service.counted]
  split
  · next hholder => simp [hholder]
  · next hholder => simp [hholder]
  · next hholder _ =>
    split
    · next hholder' => exact absurd hholder' (by simpa using hholder _)
    · exact le_rfl

/-- The books beside the submission lock, number by number. -/
theorem Service.booksWith_beside (hlock : s'.submissionLock = s.submissionLock)
    (hlength : s'.tasks.length = s.tasks.length) (calls : List Cancel) :
    s'.booksWith calls =
      { numbered := s.tasks.length
        counted := s.counted
        enqueued := s.enqueued
        active := s'.activeTasks
        queued := s'.queuedTasks
        pending := s'.pendingTasks
        activeAt := strikes s'.tasks calls .active
        queuedAt := strikes s'.tasks calls .queued
        registeredAt := strikes s'.tasks calls .pending } := by
  simp only [Service.booksWith, Service.counted, Service.enqueued, hlock, hlength]

/-- A step beside the submission lock that strikes nothing out. -/
theorem booking_keep {calls calls' : List Cancel}
    (hlock : s'.submissionLock = s.submissionLock)
    (hlength : s'.tasks.length = s.tasks.length) (hactive : s'.activeTasks = s.activeTasks)
    (hqueued : s'.queuedTasks = s.queuedTasks) (hpending : s'.pendingTasks ⊆ s.pendingTasks)
    (hstrikes : ∀ b, strikes s'.tasks calls' b = strikes s.tasks calls b) :
    Books.Booking (s.booksWith calls) (s'.booksWith calls') [] := by
  rw [Service.booksWith_beside hlock hlength, hactive, hqueued, hstrikes, hstrikes, hstrikes]
  exact .keep (b := s.booksWith calls) s'.pendingTasks hpending

/-- **A stroke**: beside the submission lock, somebody who alone was to strike a task out of
some books is to strike it out of others now. -/
structure Stroke (s s' : Service R E W) (calls calls' : List Cancel) (i : ℕ)
    (before after : Book → Bool) : Prop where
  /-- The lock stays with its holder. -/
  lock : s'.submissionLock = s.submissionLock
  /-- No task comes or goes. -/
  length : s'.tasks.length = s.tasks.length
  /-- The task is known outside its submission. -/
  known : s.Known i
  /-- They alone were to strike. -/
  before : ∀ b, strikes s.tasks calls b i = (before b).toNat
  /-- They alone are to strike. -/
  after : ∀ b, strikes s'.tasks calls' b =
    Function.update (strikes s.tasks calls b) i (after b).toNat

namespace Stroke

variable {calls calls' : List Cancel} {before after : Book → Bool}

/-- Nothing changes for a book that was not struck. -/
theorem same (h : Stroke s s' calls calls' i before after) {b : Book} (hb : after b = before b) :
    strikes s'.tasks calls' b = strikes s.tasks calls b := by
  rw [h.after, Function.update_eq_self_iff, h.before, hb]

/-- The task is struck off the map. -/
theorem unregister (h : Stroke s s' calls calls' i (fun _ => true) (· != .pending))
    (hactive : s'.activeTasks = s.activeTasks) (hqueued : s'.queuedTasks = s.queuedTasks)
    (hpending : s'.pendingTasks = s.pendingTasks.filter (· ≠ i)) :
    Books.Booking (s.booksWith calls) (s'.booksWith calls') [] := by
  rw [Service.booksWith_beside h.lock h.length, h.same (b := .active) rfl,
    h.same (b := .queued) rfl, h.after .pending, hactive, hqueued, hpending]
  exact .unregister (b := s.booksWith calls) i

/-- The task is struck out of `queued_tasks`. -/
theorem unqueue (h : Stroke s s' calls calls' i (· != .pending) (· == .active)) (hs : Sound s)
    (hactive : s'.activeTasks = s.activeTasks) (hqueued : s'.queuedTasks = s.queuedTasks - 1)
    (hpending : s'.pendingTasks = s.pendingTasks) :
    Books.Booking (s.booksWith calls) (s'.booksWith calls') [.unqueued i] := by
  rw [Service.booksWith_beside h.lock h.length, h.same (b := .active) rfl, h.after .queued,
    h.same (b := .pending) rfl, hactive, hqueued, hpending]
  exact .unqueue (b := s.booksWith calls) i (hs.lt_enqueued h.known) (h.before .queued)
    (h.before .pending)

/-- The task is struck out of `active_tasks`. -/
theorem leave (h : Stroke s s' calls calls' i (· == .active) (fun _ => false)) (hs : Sound s)
    (hactive : s'.activeTasks = s.activeTasks - 1) (hqueued : s'.queuedTasks = s.queuedTasks)
    (hpending : s'.pendingTasks = s.pendingTasks) :
    Books.Booking (s.booksWith calls) (s'.booksWith calls') [.left i] := by
  rw [Service.booksWith_beside h.lock h.length, h.after .active, h.same (b := .queued) rfl,
    h.same (b := .pending) rfl, hactive, hqueued, hpending]
  exact .leave (b := s.booksWith calls) i
    ((hs.lt_enqueued h.known).trans_le s.enqueued_le_counted) (h.before .active)
    (h.before .queued)

/-- The closure of a task strikes. -/
theorem of_task (s' : Service R E W) (hs : Sound s) {t : Task R E W} (t' : Task R E W)
    (hi : s.tasks[i]? = some t)
    (hone : strikes s.tasks calls .active i ≤ 1) (hactive : t.run.strikes .active = true)
    (htasks : s'.tasks = s.tasks.set i t') (hlock : s'.submissionLock = s.submissionLock)
    (hcell : t'.cell = t.cell) : Stroke s s' calls calls i t.run.strikes t'.run.strikes := by
  have hagrees := hs.agrees t (List.mem_of_getElem? hi)
  -- a task with a closure that strikes was started
  have hstarted : t.cell.started = true := by
    obtain ⟨-, hrun⟩ := hagrees
    generalize t.run = run at hactive hrun
    cases run with
    | unregistering | unqueueing | executing | leaving => exact hrun.1
    | _ => exact absurd hactive Bool.false_ne_true
  have hbefore : ∀ b, t.strikes b = t.run.strikes b := by
    intro b
    simp [Task.strikes, Task.isOpen, hstarted]
  have hafter : ∀ b, t'.strikes b = t'.run.strikes b := by
    intro b
    simp [Task.strikes, Task.isOpen, hcell, hstarted]
  have hactive' : t.strikes .active = true := (hbefore .active).trans hactive
  refine
    { lock := hlock
      length := by rw [htasks, List.length_set]
      known := ⟨t, hi, ?_⟩
      before := fun b => ?_
      after := fun b => ?_ }
  · intro hrun
    rw [hrun] at hactive
    exact absurd hactive Bool.false_ne_true
  · rw [strikes_eq_of_task hone hi hactive', hbefore]
  · rw [htasks, strikes_set_active hone hi hactive', hafter]

/-- A call that cancels a task strikes. -/
theorem of_call (s' : Service R E W) {c : Cancel} (c' : Cancel) {l₁ l₂ : List Cancel}
    (hc : s.Known c.task)
    (hone : strikes s.tasks (l₁ ++ c :: l₂) .active c.task ≤ 1)
    (hactive : c.phase.strikes .active = true) (htask : c'.task = c.task)
    (htasks : s'.tasks = s.tasks) (hlock : s'.submissionLock = s.submissionLock) :
    Stroke s s' (l₁ ++ c :: l₂) (l₁ ++ c' :: l₂) c.task c.phase.strikes c'.phase.strikes where
  lock := hlock
  length := by rw [htasks]
  known := hc
  before _ := strikes_eq_of_call hone hactive
  after b := by rw [htasks, strikes_call_active hone hactive htask]

end Stroke

/-- **A call that cancels keeps the books**, whatever the other calls are. -/
theorem booking_cancelNext (hs : Sound s) {c : Cancel} (hc : s.Known c.task)
    {r : Cancel × Service R E W} (hstep : s.cancelNext c = some r) {l₁ l₂ : List Cancel}
    (hone : ∀ i, strikes s.tasks (l₁ ++ c :: l₂) .active i ≤ 1) :
    (Moved s.tasks r.2.tasks ∧ r.1.task = c.task ∧ r.2.pendingTasks ⊆ s.pendingTasks ∧
      r.2.replies = s.replies) ∧
      Books.Booking (s.booksWith (l₁ ++ c :: l₂)) (r.2.booksWith (l₁ ++ r.1 :: l₂)) c.struck := by
  cases cancelNext_move hstep with
  | publishes i t hi hopen =>
    obtain ⟨u, hu, hrun⟩ := hc
    obtain rfl := Option.some.inj (hi.symm.trans hu)
    have hagrees := hs.agrees t (List.mem_of_getElem? hi)
    refine ⟨⟨.set i t _ hi hrun hrun fun h => h.cancel hrun, rfl, List.Subset.refl _, rfl⟩, ?_⟩
    refine booking_keep rfl (List.length_set ..) rfl rfl (List.Subset.refl _) fun b => ?_
    -- the duty goes from the cell to the call
    have hopen' : t.strikes b = true := by rw [Task.strikes, hopen, Bool.true_or]
    rw [Service.setTask, strikes_set hi, (hagrees.cancel_open hopen).2 b]
    funext j
    rcases eq_or_ne j i with rfl | hne
    · rw [Function.update_self, strikes, hi, Option.any_some, hopen']
      simp only [List.countP_append, List.countP_cons, beq_self_eq_true, Bool.true_and,
        CancelPhase.strikes]
      simp
      omega
    · have hne' : (i == j) = false := by simpa using hne.symm
      rw [Function.update_of_ne hne]
      simp [strikes, hne']
  | loses i t hi hopen =>
    refine ⟨⟨.refl, rfl, List.Subset.refl _, rfl⟩, ?_⟩
    exact booking_keep rfl rfl rfl rfl (List.Subset.refl _) fun b => strikes_call_same rfl rfl
  | unregisters i =>
    refine ⟨⟨.refl, rfl, List.filter_subset_self .., rfl⟩, ?_⟩
    exact (Stroke.of_call (s.unregister i) ⟨i, .unqueueing⟩ hc (hone i) rfl rfl rfl
      rfl).unregister rfl rfl rfl
  | unqueues i =>
    refine ⟨⟨.refl, rfl, List.Subset.refl _, rfl⟩, ?_⟩
    exact (Stroke.of_call s.unqueue ⟨i, .leaving⟩ hc (hone i) rfl rfl rfl
      rfl).unqueue hs rfl rfl rfl
  | leaves i =>
    refine ⟨⟨.refl, rfl, List.Subset.refl _, rfl⟩, ?_⟩
    have hreturned : (Service.cancelAfter s.leave.1).strikes = fun _ => false := by
      cases s.leave.1 <;> rfl
    have hstroke := Stroke.of_call { s with toCore := s.leave.2 }
      ⟨i, Service.cancelAfter s.leave.1⟩ hc (hone i) rfl rfl rfl rfl
    rw [hreturned] at hstroke
    exact hstroke.leave hs rfl rfl rfl
  | announces i a =>
    refine ⟨⟨.refl, rfl, List.Subset.refl _, rfl⟩, ?_⟩
    refine booking_keep rfl rfl ?_ rfl (List.Subset.refl _) fun b => strikes_call_same rfl ?_
    · cases a <;> rfl
    · cases (s.announce a).1 <;> rfl

end Kept

/-! ### Every step keeps the books -/

section Steps

variable {s s' : Service R E W} {i : ℕ}

/-- A step that touches nothing but the common state, and not the count. -/
theorem kept_core (hs : Sound s) {c : Core Await} (hactive : c.activeTasks = s.activeTasks) :
    Kept s { s with toCore := c } [] where
  sound := hs.beside rfl .refl hs.handles hs.calls hs.sweeps (List.Subset.refl _)
  booking := booking_keep rfl rfl hactive rfl (List.Subset.refl _) fun _ => rfl

/-- What comes after `notify_if_terminated` has nothing to strike. -/
theorem strikes_runAfter (r : Option Announce) :
    (Service.runAfter r).strikes = fun _ => false := by
  cases r <;> rfl

/-- What comes after `notify_if_terminated` is not a submission. -/
theorem runAfter_ne_submitting (r : Option Announce) : Service.runAfter r ≠ .submitting := by
  cases r <;> simp [Service.runAfter]

/-- A cell agrees with what comes after `notify_if_terminated`. -/
theorem agrees_runAfter {cell : TaskHandleInner R E W} (h : (Task.mk cell .leaving).Agrees)
    (r : Option Announce) : (Task.mk cell (Service.runAfter r)).Agrees := by
  cases r <;> exact h

/-- The closure of a task keeps the books. -/
theorem kept_runNext (hs : Sound s) (hone : ∀ i, strikes s.tasks s.cancelCalls .active i ≤ 1)
    (hstep : s.runNext i = some s') :
    Kept s s' (s.struck (.runNext i : Action R E)) := by
  cases runNext_move hstep with
  | skips cell hi hcompleted =>
    obtain ⟨hdone, hstarted⟩ := hs.agrees _ (List.mem_of_getElem? hi)
    rw [Service.struck_runNext hi]
    refine ⟨hs.beside rfl (.set i _ _ hi (by simp) (by simp) fun _ => ?_) hs.handles hs.calls
      hs.sweeps (List.Subset.refl _), ?_⟩
    · exact ⟨hdone, hstarted, hcompleted⟩
    · exact booking_keep rfl (List.length_set ..) rfl rfl (List.Subset.refl _) fun b =>
        strikes_set_same hi rfl
  | starts cell hi hcompleted =>
    obtain ⟨hdone, hstarted⟩ := hs.agrees _ (List.mem_of_getElem? hi)
    rw [Service.struck_runNext hi]
    refine ⟨hs.beside rfl (.set i _ _ hi (by simp) (by simp) fun _ => ?_) hs.handles hs.calls
      hs.sweeps (List.Subset.refl _), ?_⟩
    · exact ⟨hdone, rfl, hcompleted⟩
    · -- the duty goes from the cell to the closure
      refine booking_keep rfl (List.length_set ..) rfl rfl (List.Subset.refl _) fun b =>
        strikes_set_same hi ?_
      simp only at hstarted
      simp [Task.strikes, Task.isOpen, hstarted, hcompleted, RunPhase.strikes]
  | unregisters cell hi =>
    rw [Service.struck_runNext hi]
    refine ⟨hs.beside rfl (.set i _ _ hi (by simp) (by simp) id) hs.handles hs.calls hs.sweeps
      (List.filter_subset_self ..), ?_⟩
    exact (Stroke.of_task ((s.unregister i).setTask i ⟨cell, .unqueueing⟩) hs
      ⟨cell, .unqueueing⟩ hi (hone i) rfl rfl rfl rfl).unregister rfl rfl rfl
  | unqueues cell hi =>
    rw [Service.struck_runNext hi]
    refine ⟨hs.beside rfl (.set i _ _ hi (by simp) (by simp) id) hs.handles hs.calls hs.sweeps
      (List.Subset.refl _), ?_⟩
    exact (Stroke.of_task (s.unqueue.setTask i ⟨cell, .executing⟩) hs ⟨cell, .executing⟩ hi
      (hone i) rfl rfl rfl rfl).unqueue hs rfl rfl rfl
  | leaves cell hi =>
    rw [Service.struck_runNext hi]
    refine ⟨hs.beside rfl (.set i _ _ hi (by simp) (runAfter_ne_submitting _)
      fun h => agrees_runAfter h _) hs.handles hs.calls hs.sweeps (List.Subset.refl _), ?_⟩
    have hstroke := Stroke.of_task
      ({ s with toCore := s.leave.2 }.setTask i ⟨cell, Service.runAfter s.leave.1⟩) hs
      ⟨cell, Service.runAfter s.leave.1⟩ hi (hone i) rfl rfl rfl rfl
    rw [strikes_runAfter] at hstroke
    exact hstroke.leave hs rfl rfl rfl
  | announces cell a hi =>
    rw [Service.struck_runNext hi]
    refine ⟨hs.beside rfl (.set i _ _ hi (by simp) (runAfter_ne_submitting _)
      fun h => agrees_runAfter h _) hs.handles hs.calls hs.sweeps (List.Subset.refl _), ?_⟩
    refine booking_keep rfl (List.length_set ..) (Core.activeTasks_announce ..) rfl
      (List.Subset.refl _) fun b => strikes_set_same hi ?_
    rw [Task.strikes, strikes_runAfter]
    rfl

/-- The call that spawns the closure of a task keeps the books. -/
theorem kept_spawn (hs : Sound s) (hstep : s.spawn i = some s') : Kept s s' [] := by
  rw [Service.spawn] at hstep
  split at hstep
  · next cell hi =>
    obtain rfl := Option.some.inj hstep
    refine ⟨hs.beside rfl (.set i _ _ hi (by simp) (by simp) id) (fun j hj => ?_) hs.calls
      hs.sweeps (List.Subset.refl _), ?_⟩
    · rcases List.mem_append.mp hj with hold | hnew
      · exact hs.handles j hold
      · obtain rfl : j = i := by simpa using hnew
        exact ⟨_, hi, by simp⟩
    · exact booking_keep rfl (List.length_set ..) rfl rfl (List.Subset.refl _) fun b =>
        strikes_set_same hi rfl
  · exact absurd hstep (by simp)

/-- A callable that ends keeps the books. -/
theorem kept_callReturns (hs : Sound s) {outcome : Outcome R E}
    (hstep : s.callReturns i outcome = some s') : Kept s s' [] := by
  rw [Service.callReturns] at hstep
  split at hstep
  · next cell hi =>
    obtain rfl := Option.some.inj hstep
    obtain ⟨hdone, hstarted, hcompleted⟩ := hs.agrees _ (List.mem_of_getElem? hi)
    simp only at hstarted hcompleted
    have hcomplete : (cell.complete (runCallable outcome)).2 =
        { cell with
          result := some (runCallable outcome), completed := true, done := true,
          waker := none } := by
      simp [TaskHandleInner.complete, TaskHandleInner.finish, hcompleted]
    rw [hcomplete]
    refine ⟨hs.beside rfl (.set i _ _ hi (by simp) (by simp) fun _ => ?_) hs.handles hs.calls
      hs.sweeps (List.Subset.refl _), ?_⟩
    · exact ⟨rfl, hstarted, rfl⟩
    · refine booking_keep rfl (List.length_set ..) rfl rfl (List.Subset.refl _) fun b =>
        strikes_set_same hi ?_
      simp [Task.strikes, Task.isOpen, hstarted, RunPhase.strikes]
  · exact absurd hstep (by simp)

/-- A new call that has nothing to strike. -/
theorem strikes_calls_append {tasks : List (Task R E W)} {l₁ l₂ : List Cancel} {c : Cancel}
    {b : Book} (hc : c.phase.strikes b = false) :
    strikes tasks (l₁ ++ c :: l₂) b = strikes tasks (l₁ ++ l₂) b := by
  funext j
  simp [strikes, hc]

/-- A handle that is asked to cancel keeps the books. -/
theorem kept_cancel (hs : Sound s) (hstep : s.cancel i = some s') : Kept s s' [] := by
  rw [Service.cancel] at hstep
  split_ifs at hstep with hhandle
  obtain rfl := Option.some.inj hstep
  refine ⟨hs.beside rfl .refl hs.handles (fun c hc => ?_) hs.sweeps (List.Subset.refl _), ?_⟩
  · rw [Service.cancelCalls, List.append_assoc, List.mem_append, List.singleton_append,
      List.mem_cons] at hc
    rcases hc with hold | rfl | hold
    · exact hs.calls c (List.mem_append_left _ hold)
    · exact hs.handles i hhandle
    · exact hs.calls c (List.mem_append_right _ hold)
  · refine booking_keep rfl rfl rfl rfl (List.Subset.refl _) fun b => ?_
    rw [Service.cancelCalls, List.append_assoc]
    exact strikes_calls_append rfl

/-- Where a call of a handle is among the calls that cancel. -/
theorem cancelCalls_cancel {k : ℕ} {c : Cancel} (hk : s.cancels[k]? = some c) :
    ∃ l₁ l₂, s.cancelCalls = l₁ ++ c :: l₂ ∧
      ∀ c', s.cancels.set k c' ++ s.sweeps.filterMap Sweep.current = l₁ ++ c' :: l₂ := by
  obtain ⟨l₁, l₂, hsplit, rfl⟩ := exists_split_of_getElem? hk
  refine ⟨l₁, l₂ ++ s.sweeps.filterMap Sweep.current, ?_, fun c' => ?_⟩
  · simp [Service.cancelCalls, hsplit]
  · simp [hsplit]

/-- Where the call a `shutdown_now` is in is among the calls that cancel. -/
theorem cancelCalls_sweep {k : ℕ} {w : Sweep} (hk : s.sweeps[k]? = some w) :
    ∃ l₁ l₂, s.cancelCalls = l₁ ++ w.current.toList ++ l₂ ∧
      ∀ w' : Sweep, s.cancels ++ (s.sweeps.set k w').filterMap Sweep.current =
        l₁ ++ w'.current.toList ++ l₂ := by
  obtain ⟨w₁, w₂, hsplit, rfl⟩ := exists_split_of_getElem? hk
  refine ⟨s.cancels ++ w₁.filterMap Sweep.current, w₂.filterMap Sweep.current, ?_,
    fun w' => ?_⟩
  · cases hw : w.current <;> simp [Service.cancelCalls, hsplit, hw]
  · cases hw : w'.current <;> simp [hsplit, hw]

/-- A call of a handle keeps the books. -/
theorem kept_handleNext (hs : Sound s)
    (hone : ∀ i, strikes s.tasks s.cancelCalls .active i ≤ 1) {k : ℕ}
    (hstep : s.handleNext k = some s') :
    Kept s s' (s.struck (.handleNext k : Action R E)) := by
  rw [Service.handleNext] at hstep
  split at hstep
  · next c hk =>
    obtain ⟨r, hr, rfl⟩ := Option.map_eq_some_iff.mp hstep
    obtain ⟨⟨hlock, -⟩, ⟨-, hcancels, hsweeps⟩, -⟩ := cancelNext_spec hr
    obtain ⟨l₁, l₂, hbefore, hafter⟩ := cancelCalls_cancel hk
    have hc : s.Known c.task := hs.calls c (by simp [hbefore])
    rw [hbefore] at hone
    obtain ⟨⟨hmoved, htask, hpending, hreplies⟩, hbooking⟩ := booking_cancelNext hs hc hr hone
    have hcalls : ({ r.2 with cancels := r.2.cancels.set k r.1 } : Service R E W).cancelCalls =
        l₁ ++ r.1 :: l₂ := by
      rw [← hafter, Service.cancelCalls, hcancels, hsweeps]
    refine ⟨hs.beside hlock hmoved (fun j hj => hs.handles j (hreplies ▸ hj)) (fun d hd => ?_)
      (fun w hw => hs.sweeps w (hsweeps ▸ hw)) hpending, ?_⟩
    · rw [hcalls, List.mem_append, List.mem_cons] at hd
      rcases hd with hold | rfl | hold
      · exact hs.calls d (by simp [hbefore, hold])
      · rwa [htask]
      · exact hs.calls d (by simp [hbefore, hold])
    · rw [Service.struck_handleNext hk, Service.books, Service.books, hbefore, hcalls]
      exact hbooking
  · exact absurd hstep (by simp)

/-- What the threads rely on, where a `shutdown_now` moves. -/
theorem Sound.sweep (hs : Sound s) {k : ℕ} {w w' : Sweep} (hk : s.sweeps[k]? = some w)
    (hlock : s'.submissionLock = s.submissionLock) (hmoved : Moved s.tasks s'.tasks)
    (hpending : s'.pendingTasks ⊆ s.pendingTasks) (hreplies : s'.replies = s.replies)
    (hcancels : s'.cancels = s.cancels) (hsweeps : s'.sweeps = s.sweeps.set k w')
    (hleft : w'.pending ⊆ w.pending) (hcurrent : ∀ c ∈ w'.current, s.Known c.task) :
    Sound s' := by
  obtain ⟨l₁, l₂, hbefore, hafter⟩ := cancelCalls_sweep hk
  refine hs.beside hlock hmoved (fun j hj => hs.handles j (hreplies ▸ hj)) (fun c hc => ?_)
    (fun v hv j hj => ?_) hpending
  · rw [Service.cancelCalls, hcancels, hsweeps, hafter, List.mem_append, List.mem_append] at hc
    rcases hc with (hold | hnew) | hold
    · exact hs.calls c (by simp [hbefore, hold])
    · exact hcurrent c (Option.mem_toList.mp hnew)
    · exact hs.calls c (by simp [hbefore, hold])
  · rw [hsweeps] at hv
    rcases List.mem_or_eq_of_mem_set hv with hold | rfl
    · exact hs.sweeps v hold j hj
    · exact hs.sweeps w (List.mem_of_getElem? hk) j (hleft hj)

/-- A `shutdown_now` that moves and strikes nothing out. -/
theorem kept_setSweep (hs : Sound s) {k : ℕ} {w w' : Sweep} (hk : s.sweeps[k]? = some w)
    {c : Core Await} (hactive : c.activeTasks = s.activeTasks) (hleft : w'.pending ⊆ w.pending)
    (hcurrent : ∀ c ∈ w'.current, s.Known c.task)
    (hidle : ∀ v ∈ [w, w'], ∀ c ∈ v.current, ∀ b, c.phase.strikes b = false) :
    Kept s ({ s with toCore := c }.setSweep k w') [] := by
  obtain ⟨l₁, l₂, hbefore, hafter⟩ := cancelCalls_sweep hk
  have hnone : ∀ v ∈ [w, w'], ∀ b, strikes s.tasks (l₁ ++ v.current.toList ++ l₂) b =
      strikes s.tasks (l₁ ++ l₂) b := by
    intro v hv b
    cases hcase : v.current with
    | none => simp
    | some d =>
      rw [Option.toList_some, List.append_assoc]
      exact strikes_calls_append (hidle v hv d hcase b)
  refine ⟨hs.sweep hk rfl .refl (List.Subset.refl _) rfl rfl rfl hleft hcurrent,
    booking_keep rfl rfl hactive rfl (List.Subset.refl _) fun b => ?_⟩
  have hcalls : ({ s with toCore := c }.setSweep k w').cancelCalls =
      l₁ ++ w'.current.toList ++ l₂ := hafter w'
  rw [hcalls, hbefore, hnone w (by simp)]
  exact hnone w' (by simp) b

/-- A `shutdown_now` inside `notify_if_terminated` is in no call that cancels. -/
theorem current_sweepAfter (report : ThreadPool.ShutdownReport) (r : Option Announce) :
    (Service.sweepAfter report r).current = none := by
  cases r <;> rfl

/-- A `shutdown_now` inside `notify_if_terminated` has nothing to cancel. -/
theorem pending_sweepAfter (report : ThreadPool.ShutdownReport) (r : Option Announce) :
    (Service.sweepAfter report r).pending = [] := by
  cases r <;> rfl

/-- A `shutdown_now` that has released the submission lock keeps the books. -/
theorem kept_sweepNext (hs : Sound s)
    (hone : ∀ i, strikes s.tasks s.cancelCalls .active i ≤ 1) {k : ℕ}
    (hstep : s.sweepNext k = some s') :
    Kept s s' (s.struck (.sweepNext k : Action R E)) := by
  cases sweepNext_move hstep with
  | counts pending i answer report hk =>
    rw [Service.struck_sweepNext hk]
    refine kept_setSweep hs hk rfl (List.Subset.refl _) (by simp [Sweep.current]) ?_
    simp [Sweep.current, CancelPhase.strikes]
  | cancels pending c report hk r hr =>
    obtain ⟨⟨hlock, -⟩, ⟨-, hcancels, hsweeps⟩, -⟩ := cancelNext_spec hr
    obtain ⟨l₁, l₂, hbefore, hafter⟩ := cancelCalls_sweep hk
    have hbefore' : s.cancelCalls = l₁ ++ c :: l₂ := by
      rw [hbefore, List.append_assoc]
      rfl
    have hknown : s.Known c.task := hs.calls c (by simp [hbefore'])
    rw [hbefore'] at hone
    obtain ⟨⟨hmoved, htask, hpending, hreplies⟩, hbooking⟩ :=
      booking_cancelNext hs hknown hr hone
    have hcalls : (r.2.setSweep k (.cancelling pending (some r.1) report)).cancelCalls =
        l₁ ++ r.1 :: l₂ := by
      rw [Service.cancelCalls, Service.setSweep, hcancels, hsweeps, hafter, List.append_assoc]
      rfl
    refine ⟨hs.sweep hk hlock hmoved hpending hreplies hcancels
      (congrArg (List.set · k _) hsweeps) (List.Subset.refl _) ?_, ?_⟩
    · rintro d hd
      obtain rfl := Option.some.inj hd
      rwa [htask]
    · rw [Service.struck_sweepNext hk, Service.books, Service.books, hbefore', hcalls]
      exact hbooking
  | picks i pending report hk =>
    have hknown : s.Known i := hs.sweeps _ (List.mem_of_getElem? hk) i (List.mem_cons_self ..)
    rw [Service.struck_sweepNext hk]
    refine kept_setSweep hs hk rfl (List.subset_cons_self ..) ?_ ?_
    · simpa [Sweep.current] using hknown
    · simp [Sweep.current, CancelPhase.strikes]
  | ends report hk =>
    rw [Service.struck_sweepNext hk]
    exact kept_setSweep hs hk rfl (List.Subset.refl _) (by simp [Sweep.current])
      (by simp [Sweep.current])
  | announces a report hk =>
    have hbefore : (Sweep.announcing a report).current = none := rfl
    have hafter := current_sweepAfter report (s.announce a).1
    rw [Service.struck_sweepNext hk]
    exact kept_setSweep hs hk (Core.activeTasks_announce ..) (by simp [pending_sweepAfter])
      (by simp [hafter]) (by simp [hbefore, hafter])

/-- Who holds no submission past its number changes nothing for who submits or drains. -/
theorem kept_lock (hs : Sound s) (lock : Option Holder)
    (hbefore : ∀ h ∈ s.submissionLock, h.task = none) (hafter : ∀ h ∈ lock, h.task = none)
    (hlock : s'.submissionLock = lock) (htasks : s'.tasks = s.tasks)
    (hactive : s'.activeTasks = s.activeTasks) (hqueued : s'.queuedTasks = s.queuedTasks)
    (hpending : s'.pendingTasks ⊆ s.pendingTasks)
    (hreplies : ∀ i, .submit (.ok i) ∈ s'.replies → .submit (.ok i) ∈ s.replies)
    (hcalls : s'.cancelCalls = s.cancelCalls)
    (hsweeps : ∀ w ∈ s'.sweeps, ∀ i ∈ w.pending, s.Known i)
    (hdrained : ∀ h ∈ lock, ∀ i ∈ h.drained, s.Known i) : Kept s s' [] := by
  have hknown : ∀ {i}, s.Known i → s'.Known i := by
    rintro i ⟨t, ht, hrun⟩
    exact ⟨t, by rw [htasks, ht], hrun⟩
  have hcount : ∀ {u : Service R E W}, (∀ h ∈ u.submissionLock, h.task = none) →
      u.counted = u.tasks.length ∧ u.enqueued = u.tasks.length := by
    intro u hu
    rw [Service.counted, Service.enqueued]
    split
    · next j hj => exact absurd (hu _ hj) (by simp [Holder.task])
    · split
      · next j hj => exact absurd (hu _ hj) (by simp [Holder.task])
      · next j hj => exact absurd (hu _ hj) (by simp [Holder.task])
      · exact ⟨rfl, rfl⟩
  constructor
  · refine
      { agrees := htasks ▸ hs.agrees
        handles := fun i hi => hknown (hs.handles i (hreplies i hi))
        calls := fun c hc => hknown (hs.calls c (hcalls ▸ hc))
        sweeps := fun w hw i hi => hknown (hsweeps w hw i hi)
        drained := fun h hh i hi => hknown (hdrained h (hlock ▸ hh) i hi)
        submitted := fun h hh i hi => ?_
        pending := fun i hi => ?_ }
    · rw [hlock] at hh
      exact absurd hi (by simp [hafter h hh])
    · refine (hs.pending i (hpending hi)).imp hknown fun hh => ?_
      exact absurd (hbefore _ hh) (by simp [Holder.task])
  · have hbooks : s'.books = { s.books with pending := s'.pendingTasks } := by
      obtain ⟨hcounted, henqueued⟩ := hcount hbefore
      obtain ⟨hcounted', henqueued'⟩ := hcount (u := s') (hlock ▸ hafter)
      simp only [Service.books, Service.booksWith, hcounted, henqueued, hcounted', henqueued',
        htasks, hactive, hqueued, hcalls]
    rw [hbooks]
    exact .keep _ hpending

/-- Who holds no submission past its number, and has drained nothing, passes the submission
lock on, or releases it. -/
theorem kept_pass (hs : Sound s) {c : Core Await} {lock : Option Holder} {replies : List Reply}
    (hbefore : ∀ h ∈ s.submissionLock, h.task = none)
    (hafter : ∀ h ∈ lock, h.task = none ∧ h.drained = [])
    (hactive : c.activeTasks = s.activeTasks)
    (hreplies : ∀ i, .submit (.ok i) ∈ replies → .submit (.ok i) ∈ s.replies) :
    Kept s { s with toCore := c, submissionLock := lock, replies := replies } [] := by
  refine kept_lock hs lock hbefore (fun h hh => (hafter h hh).1) rfl rfl hactive rfl
    (List.Subset.refl _) hreplies rfl hs.sweeps fun h hh i hi => ?_
  rw [(hafter h hh).2] at hi
  exact absurd hi (by simp)

/-- Who is submitting has drained nothing. -/
theorem Holder.drained_of_task {h : Holder} (hi : h.task = some i) : h.drained = [] := by
  cases h with
  | shutdownNowReleasing pending queued running => exact absurd hi (by simp [Holder.task])
  | _ => rfl

/-- What the threads rely on, where a submission past its number goes on. -/
theorem Sound.submit (hs : Sound s) {h h' : Holder} (hbefore : s.submissionLock = some h)
    (hi : h.task = some i) (hunreleased : h ≠ .submitReleasing i) (hi' : h'.task = some i)
    (hafter : s'.submissionLock = some h') (htasks : s'.tasks = s.tasks)
    (hreplies : s'.replies = s.replies) (hcalls : s'.cancelCalls = s.cancelCalls)
    (hsweeps : s'.sweeps = s.sweeps)
    (hpending : ∀ j ∈ s'.pendingTasks, j ∈ s.pendingTasks ∨ h' = .submitReleasing j) :
    Sound s' := by
  have hknown : ∀ {j}, s.Known j → s'.Known j := by
    rintro j ⟨t, ht, hrun⟩
    exact ⟨t, by rw [htasks, ht], hrun⟩
  refine
    { agrees := htasks ▸ hs.agrees
      handles := fun j hj => hknown (hs.handles j (hreplies ▸ hj))
      calls := fun c hc => hknown (hs.calls c (hcalls ▸ hc))
      sweeps := fun w hw j hj => hknown (hs.sweeps w (hsweeps ▸ hw) j hj)
      drained := fun g hg j hj => ?_
      submitted := fun g hg j hj => ?_
      pending := fun j hj => ?_ }
  · obtain rfl := Option.some.inj (hafter.symm.trans hg)
    rw [Holder.drained_of_task hi'] at hj
    exact absurd hj (by simp)
  · obtain rfl := Option.some.inj (hafter.symm.trans hg)
    obtain rfl := Option.some.inj (hi'.symm.trans hj)
    rw [htasks]
    exact hs.submitted h hbefore i hi
  · rcases hpending j hj with hold | hnew
    · refine Or.inl ((hs.pending j hold).elim hknown fun hlock => ?_)
      obtain rfl := Option.some.inj (hbefore.symm.trans hlock)
      obtain rfl := Option.some.inj hi
      exact absurd rfl hunreleased
    · exact Or.inr (by rw [hafter, hnew])

/-- Calls that name other tasks have nothing to strike. -/
theorem countP_of_unnamed {calls : List Cancel} (h : ∀ c ∈ calls, c.task ≠ i) (b : Book) :
    calls.countP (fun c => c.task == i && c.phase.strikes b) = 0 := by
  refine List.countP_eq_zero.mpr fun c hc hand => ?_
  rw [Bool.and_eq_true, beq_iff_eq] at hand
  exact h c hc hand.1

/-- What is to be struck out once a task is given its number. -/
theorem Sound.strikes_append (hs : Sound s) (b : Book) :
    strikes (s.tasks ++ [Task.mk .new .submitting]) s.cancelCalls b =
      Function.update (strikes s.tasks s.cancelCalls b) s.tasks.length 1 := by
  funext j
  rcases eq_or_ne j s.tasks.length with rfl | hne
  · have hunnamed : ∀ c ∈ s.cancelCalls, c.task ≠ s.tasks.length := by
      intro c hc
      obtain ⟨t, ht, -⟩ := hs.calls c hc
      obtain ⟨hlt, -⟩ := List.getElem?_eq_some_iff.mp ht
      exact hlt.ne
    rw [Function.update_self, strikes, countP_of_unnamed hunnamed]
    simp [Task.strikes, Task.isOpen, TaskHandleInner.new]
  · rw [Function.update_of_ne hne, strikes, strikes, getElem?_concat_of_ne hne]

/-- The task that is being submitted is open, and nobody else is to strike it out. -/
theorem Sound.strikes_submitted (hs : Sound s) {h : Holder} (hlock : s.submissionLock = some h)
    (hi : h.task = some i) (b : Book) : strikes s.tasks s.cancelCalls b i = 1 := by
  obtain ⟨-, cell, hcell⟩ := hs.submitted h hlock i hi
  obtain ⟨-, hopen⟩ := hs.agrees _ (List.mem_of_getElem? hcell)
  have hunnamed : ∀ c ∈ s.cancelCalls, c.task ≠ i := by
    rintro c hc rfl
    exact hs.not_known hlock hi (hs.calls c hc)
  have hstrikes : (Task.mk cell .submitting).strikes b = true := by
    rw [Task.strikes, Task.isOpen_iff.mpr hopen, Bool.true_or]
  rw [strikes, hcell, countP_of_unnamed hunnamed, Option.any_some, hstrikes]
  rfl

/-- A submission that takes its number keeps the books. -/
theorem kept_number (hs : Sound s) (hlock : s.submissionLock = some .submitNumbering) :
    Kept s ({ s with tasks := s.tasks ++ [Task.mk .new .submitting] }.hold
      (.submitCounting s.tasks.length)) [] := by
  have hknown : ∀ {j}, s.Known j → Service.Known ({ s with
      tasks := s.tasks ++ [Task.mk .new .submitting] }.hold
        (.submitCounting s.tasks.length)) j := by
    rintro j ⟨t, ht, hrun⟩
    obtain ⟨hlt, -⟩ := List.getElem?_eq_some_iff.mp ht
    exact ⟨t, (List.getElem?_append_left hlt).trans ht, hrun⟩
  constructor
  · refine
      { agrees := fun t ht => ?_
        handles := fun j hj => hknown (hs.handles j hj)
        calls := fun c hc => hknown (hs.calls c hc)
        sweeps := fun w hw j hj => hknown (hs.sweeps w hw j hj)
        drained := fun g hg j hj => ?_
        submitted := fun g hg j hj => ?_
        pending := fun j hj => Or.inl ?_ }
    · rcases List.mem_append.mp ht with hold | hnew
      · exact hs.agrees t hold
      · rw [List.mem_singleton.mp hnew]
        exact ⟨rfl, rfl, rfl⟩
    · obtain rfl := Option.some.inj hg
      exact absurd hj (by simp [Holder.drained])
    · obtain rfl := Option.some.inj hg
      obtain rfl := Option.some.inj hj
      exact ⟨by simp [Service.hold], .new, by simp [Service.hold]⟩
    · refine hknown ((hs.pending j hj).resolve_right fun hrelease => ?_)
      rw [hlock] at hrelease
      exact absurd hrelease (by simp)
  · have hbooks : ({ s with tasks := s.tasks ++ [Task.mk .new .submitting] }.hold
        (.submitCounting s.tasks.length)).books =
        { s.books with
          numbered := s.books.numbered + 1
          activeAt := Function.update s.books.activeAt s.books.numbered 1
          queuedAt := Function.update s.books.queuedAt s.books.numbered 1
          registeredAt := Function.update s.books.registeredAt s.books.numbered 1 } := by
      have hstrikes := fun b => hs.strikes_append b
      have hcounted : s.counted = s.tasks.length := by rw [Service.counted, hlock]
      have henqueued : s.enqueued = s.tasks.length := by rw [Service.enqueued, hlock]
      simp only [Service.books, Service.booksWith, hcounted, henqueued, ← hstrikes]
      simp [Service.hold, Service.counted, Service.enqueued, Service.cancelCalls]
    rw [hbooks]
    exact .number

/-- A submission that releases the lock makes its task known. -/
theorem kept_release (hs : Sound s) (hlock : s.submissionLock = some (.submitReleasing i))
    {cell : TaskHandleInner R E W} (hi : s.tasks[i]? = some ⟨cell, .submitting⟩) :
    Kept s (s.release.setTask i ⟨cell, .unspawned⟩) [] := by
  have hself : (s.release.setTask i ⟨cell, .unspawned⟩).Known i :=
    ⟨⟨cell, .unspawned⟩, getElem?_set_of_some hi _, by simp⟩
  have hknown : ∀ {j}, s.Known j → (s.release.setTask i ⟨cell, .unspawned⟩).Known j := by
    rintro j ⟨t, ht, hrun⟩
    rcases getElem?_set_kept hi ht ⟨cell, .unspawned⟩ with ⟨rfl, -⟩ | ⟨-, hstill⟩
    · exact hself
    · exact ⟨t, hstill, hrun⟩
  constructor
  · refine
      { agrees := fun t ht => ?_
        handles := fun j hj => hknown (hs.handles j hj)
        calls := fun c hc => hknown (hs.calls c hc)
        sweeps := fun w hw j hj => hknown (hs.sweeps w hw j hj)
        drained := by simp [Service.release, Service.setTask]
        submitted := by simp [Service.release, Service.setTask]
        pending := fun j hj => Or.inl ?_ }
    · rcases List.mem_or_eq_of_mem_set ht with hold | rfl
      · exact hs.agrees t hold
      · obtain ⟨hdone, hstarted, -⟩ := hs.agrees _ (List.mem_of_getElem? hi)
        exact ⟨hdone, hstarted⟩
    · rcases hs.pending j hj with hold | hrelease
      · exact hknown hold
      · rw [hlock] at hrelease
        obtain rfl : i = j := by simpa using hrelease
        exact hself
  · have hstrikes : ∀ b, strikes (s.tasks.set i ⟨cell, .unspawned⟩) s.cancelCalls b =
        strikes s.tasks s.cancelCalls b := fun b => strikes_set_same hi rfl
    have hcounted : s.counted = s.tasks.length := by rw [Service.counted, hlock]
    have henqueued : s.enqueued = s.tasks.length := by rw [Service.enqueued, hlock]
    have hbooks : (s.release.setTask i ⟨cell, .unspawned⟩).books = s.books := by
      simp only [Service.books, Service.booksWith, hcounted, henqueued, ← hstrikes]
      simp [Service.release, Service.setTask, Service.counted, Service.enqueued,
        Service.cancelCalls]
    rw [hbooks]
    exact .keep _ (List.Subset.refl _)

/-- **The holder of the submission lock keeps the books.** -/
theorem kept_holderNext (hs : Sound s) {order : List ℕ} {h : Holder}
    (hlock : s.submissionLock = some h) (hstep : s.holderNext order h = some s') :
    Kept s s' [] := by
  have hbefore : h.task = none → ∀ g ∈ s.submissionLock, g.task = none := by
    intro hnone g hg
    obtain rfl := Option.some.inj (hlock.symm.trans hg)
    exact hnone
  cases h with
  | submitChecking =>
    obtain rfl := Option.some.inj hstep
    split_ifs
    · exact kept_pass hs (hbefore rfl) (by simp [Service.release]) rfl (by simp)
    · exact kept_pass hs (hbefore rfl) (by simp [Holder.task, Holder.drained]) rfl fun _ => id
  | submitNumbering =>
    obtain rfl := Option.some.inj hstep
    exact kept_number hs hlock
  | submitCounting i =>
    obtain rfl := Option.some.inj hstep
    refine ⟨hs.submit hlock rfl (by simp) rfl rfl rfl rfl rfl rfl fun j hj => Or.inl hj, ?_⟩
    -- the task is the last one, so it is the next to be counted
    have hlast := (hs.submitted _ hlock i rfl).1
    have hcounted : s.counted + 1 = s.tasks.length := by
      rw [Service.counted, hlock]
      simp only
      omega
    have henqueued : s.enqueued = s.tasks.length - 1 := by rw [Service.enqueued, hlock]
    have hbooks : ({ s with toCore := s.enter }.hold (.submitQueueing i)).books =
        { s.books with counted := s.counted + 1, active := s.activeTasks + 1 } := by
      simp only [Service.books, Service.booksWith, hcounted, henqueued]
      rfl
    rw [hbooks]
    exact .count (b := s.books) (show s.counted < s.tasks.length by omega)
  | submitQueueing i =>
    obtain rfl := Option.some.inj hstep
    refine ⟨hs.submit hlock rfl (by simp) rfl rfl rfl rfl rfl rfl fun j hj => Or.inl hj, ?_⟩
    have hlast := (hs.submitted _ hlock i rfl).1
    have hcounted : s.counted = s.tasks.length := by rw [Service.counted, hlock]
    have henqueued : s.enqueued + 1 = s.tasks.length := by
      rw [Service.enqueued, hlock]
      simp only
      omega
    have hbooks : ({ s with queuedTasks := s.queuedTasks + 1 }.hold
        (.submitRegistering i)).books =
        { s.books with enqueued := s.enqueued + 1, queued := s.queuedTasks + 1 } := by
      simp only [Service.books, Service.booksWith, hcounted, henqueued]
      rfl
    rw [hbooks]
    exact .enqueue (b := s.books) (show s.enqueued < s.counted by omega)
  | submitRegistering i =>
    obtain rfl := Option.some.inj hstep
    refine ⟨hs.submit hlock rfl (by simp) rfl rfl rfl rfl rfl rfl fun j hj => ?_, ?_⟩
    · rcases List.mem_append.mp hj with hold | hnew
      · exact Or.inl hold
      · exact Or.inr (by rw [List.mem_singleton.mp hnew])
    · have hcounted : s.counted = s.tasks.length := by rw [Service.counted, hlock]
      have henqueued : s.enqueued = s.tasks.length := by rw [Service.enqueued, hlock]
      have hbooks : ({ s with pendingTasks := s.pendingTasks ++ [i] }.hold
          (.submitReleasing i)).books =
          { s.books with pending := s.pendingTasks ++ [i] } := by
        simp only [Service.books, Service.booksWith, hcounted, henqueued]
        rfl
      rw [hbooks]
      exact .register (b := s.books) i (hs.strikes_submitted hlock rfl .pending)
  | submitReleasing i =>
    obtain ⟨cell, hi, rfl⟩ := holderNext_submitReleasing hstep
    exact kept_release hs hlock hi
  | shutdownStoring | shutdownNowStoring | shutdownNowCounting | shutdownNowReading queued =>
    obtain rfl := Option.some.inj hstep
    exact kept_pass hs (hbefore rfl) (by simp [Holder.task, Holder.drained]) rfl fun _ => id
  | shutdownAnnouncing a =>
    obtain rfl := holderNext_shutdownAnnouncing hstep
    refine kept_pass hs (hbefore rfl) (fun h hh => ?_) (Core.activeTasks_announce ..) ?_
    · obtain ⟨a', -, rfl⟩ := Option.mem_map.mp hh
      exact ⟨rfl, rfl⟩
    · cases (s.announce a).1 <;> simp
  | shutdownNowDraining queued running =>
    obtain ⟨horder, rfl⟩ := holderNext_shutdownNowDraining hstep
    refine kept_lock hs (some (.shutdownNowReleasing order queued running)) (hbefore rfl)
      (by simp [Holder.task]) rfl rfl rfl rfl (List.nil_subset _) (fun _ => id) rfl hs.sweeps ?_
    -- what is drained was in the map, and it is not a submission that holds the lock
    rintro g hg i hi
    obtain rfl := Option.some.inj hg
    refine (hs.pending i (horder.subset hi)).resolve_right fun hrelease => ?_
    rw [hlock] at hrelease
    exact absurd hrelease (by simp)
  | shutdownNowReleasing pending queued running =>
    obtain rfl := Option.some.inj hstep
    refine kept_lock hs none (hbefore rfl) (by simp) rfl rfl rfl rfl
      (List.Subset.refl _) (fun _ => id) ?_ (fun w hw i hi => ?_) (by simp)
    · simp [Service.cancelCalls, Service.release, Sweep.current]
    · rcases List.mem_append.mp hw with hold | hnew
      · exact hs.sweeps w hold i hi
      · rw [List.mem_singleton.mp hnew] at hi
        exact hs.drained _ hlock i hi

/-- A call that takes the submission lock keeps the books. -/
theorem kept_acquire (hs : Sound s) {h : Holder} (hh : h.task = none) (hdrained : h.drained = [])
    (hstep : s.acquire h = some s') : Kept s s' [] := by
  rw [Service.acquire] at hstep
  split_ifs at hstep with hlock
  obtain rfl := Option.some.inj hstep
  refine kept_pass hs (by simp [hlock]) ?_ rfl fun _ => id
  rintro g hg
  obtain rfl := Option.some.inj hg
  exact ⟨hh, hdrained⟩

/-- **Every step keeps the books.** -/
theorem step_kept (hs : Sound s) (hone : ∀ i, strikes s.tasks s.cancelCalls .active i ≤ 1)
    {a : Action R E} (hstep : s.step a = some s') : Kept s s' (s.struck a) := by
  cases a with
  | submit | shutdown | shutdownNow => exact kept_acquire hs rfl rfl hstep
  | holderNext order =>
    obtain ⟨h, hlock, hnext⟩ := Option.bind_eq_some_iff.mp hstep
    exact kept_holderNext hs hlock hnext
  | spawn i => exact kept_spawn hs hstep
  | runNext i => exact kept_runNext hs hone hstep
  | callReturns i outcome => exact kept_callReturns hs hstep
  | cancel i => exact kept_cancel hs hstep
  | handleNext k => exact kept_handleNext hs hone hstep
  | sweepNext k => exact kept_sweepNext hs hone hstep
  | await | awaitNext k | awaitDrop k | isTerminated | queryNext k =>
    obtain ⟨c, hturn, rfl⟩ := step_turn rfl hstep
    exact kept_core hs hturn.activeTasks

end Steps

/-! ### The accounts of a run -/

/-- The service under observation, with an entry for every decrement of a counter. -/
abbrev audited (R E W : Type) : Machine (Service R E W × List Entry) (Action R E) :=
  (machine R E W).observe fun s a _ => s.struck a

/-- Over every run, the threads can rely on each other and the books are right. -/
theorem audited_of_reach {t : Service R E W × List Entry} (ht : (audited R E W).Reach t) :
    Sound t.1 ∧ t.1.books.Balanced t.2 := by
  refine (Machine.observe_invariant (M := machine R E W) (p := fun _ _ => True)
    (I := fun s log => Sound s ∧ s.books.Balanced log) ?_ ?_ ht).2
  · rintro s rfl
    refine ⟨.new, ?_⟩
    have hbooks : (.new : Service R E W).books = .new := by
      have hstrikes : ∀ b, strikes ([] : List (Task R E W)) [] b = fun _ => 0 := fun b => rfl
      simp only [Service.books, Service.booksWith, Service.new, Service.cancelCalls, Books.new]
      simp [Service.counted, Service.enqueued, Core.new, hstrikes]
    rw [hbooks]
    exact .new
  · rintro s a s' log - ⟨hs, hbalanced⟩ - hstep
    have hkept := step_kept hs hbalanced.activeAt_le_one hstep
    exact ⟨hkept.sound, hbalanced.booking hkept.booking⟩

/-- A task is over once its result is published and the bookkeeping of whoever has published
it is done. -/
structure Service.Over (s : Service R E W) (i : ℕ) : Prop where
  /-- The result is published, and its closure is past `on_task_completed`. -/
  task : ∃ t, s.tasks[i]? = some t ∧ t.cell.completed = true ∧ t.run ≠ .leaving
  /-- No call is inside `on_task_cancelled` with it. -/
  calls : ∀ c ∈ s.cancelCalls, c.task = i →
    c.phase ≠ .unregistering ∧ c.phase ≠ .unqueueing ∧ c.phase ≠ .leaving

/-- Nobody is to strike out a task that is over. -/
theorem Sound.strikes_over {s : Service R E W} (hs : Sound s) {i : ℕ} (hi : s.Over i) :
    strikes s.tasks s.cancelCalls .active i = 0 := by
  obtain ⟨t, ht, hcompleted, hrun⟩ := hi.task
  obtain ⟨-, hcell⟩ := hs.agrees t (List.mem_of_getElem? ht)
  have htask : t.strikes .active = false := by
    rw [Task.strikes, Task.isOpen, hcompleted]
    generalize t.run = run at hcell hrun
    cases run with
    | unregistering | unqueueing | executing => simp_all
    | leaving => exact absurd rfl hrun
    | _ => simp [RunPhase.strikes]
  have hcalls : s.cancelCalls.countP (fun c => c.task == i && c.phase.strikes .active) = 0 := by
    refine List.countP_eq_zero.mpr fun c hc hand => ?_
    rw [Bool.and_eq_true, beq_iff_eq] at hand
    obtain ⟨hunregistering, hunqueueing, hleaving⟩ := hi.calls c hc hand.1
    generalize c.phase = phase at hand hunregistering hunqueueing hleaving
    cases phase with
    | unregistering => exact hunregistering rfl
    | unqueueing => exact hunqueueing rfl
    | leaving => exact hleaving rfl
    | _ => exact absurd hand.2 Bool.false_ne_true
  rw [strikes, ht, Option.any_some, htask, hcalls]
  rfl

/-- **The accounts of a service**, given the decrements of its counters so far. -/
structure Accounts (s : Service R E W) (log : List Entry) : Prop where
  /-- `active_tasks` counts the accepted tasks whose bookkeeping at their end has not come. -/
  active : s.activeTasks = tally s.counted (leftOf log)
  /-- `queued_tasks` counts the accepted tasks that neither `on_task_started` nor
  `on_task_cancelled` has taken out of it. -/
  queued : s.queuedTasks = tally s.enqueued (unqueuedOf log)
  /-- No task is taken out of a counter twice. -/
  atMostOnce : ∀ i, (unqueuedOf log).count i ≤ 1 ∧ (leftOf log).count i ≤ 1
  /-- Every task that is over was taken out of each counter. -/
  once : ∀ i, s.Over i → (unqueuedOf log).count i = 1 ∧ (leftOf log).count i = 1
  /-- Not more tasks are queued than are active. -/
  nested : s.queuedTasks ≤ s.activeTasks
  /-- No counter is zero when it is decremented. -/
  nonzero : ∀ (a : Action R E) s', s.step a = some s' →
    (∀ i, .unqueued i ∈ s.struck a → 0 < s.queuedTasks) ∧
      ∀ i, .left i ∈ s.struck a → 0 < s.activeTasks
  /-- A task whose start or cancellation was booked is not in the map. -/
  absent : ∀ i, i ∈ unqueuedOf log → i ∉ s.pendingTasks
  /-- When all tasks are over, the map is empty and both counters are zero. -/
  empty : (∀ i < s.tasks.length, s.Over i) →
    s.pendingTasks = [] ∧ s.activeTasks = 0 ∧ s.queuedTasks = 0

/-- **The accounts are right** in every state of every run, however submissions, starts,
cancellations, ends, `shutdown` and `shutdown_now` interleave. -/
theorem accounts_of_reach {t : Service R E W × List Entry} (ht : (audited R E W).Reach t) :
    Accounts t.1 t.2 := by
  obtain ⟨hs, hbalanced⟩ := audited_of_reach ht
  have hover : ∀ i, t.1.Over i → i ∈ unqueuedOf t.2 ∧ i ∈ leftOf t.2 := by
    intro i hi
    obtain ⟨u, hu, -⟩ := hi.task
    obtain ⟨hlt, -⟩ := List.getElem?_eq_some_iff.mp hu
    have hactive : t.1.books.activeAt i = 0 := hs.strikes_over hi
    have hqueued : t.1.books.queuedAt i = 0 := by
      have hinward := (hbalanced.inward i).2
      omega
    exact ⟨hbalanced.mem_unqueued hlt hqueued, hbalanced.mem_left hlt hactive⟩
  refine
    { active := hbalanced.active
      queued := hbalanced.queued
      atMostOnce := fun i => ⟨List.nodup_iff_count_le_one.mp hbalanced.unqueuedOnce i,
        List.nodup_iff_count_le_one.mp hbalanced.leftOnce i⟩
      once := fun i hi => ?_
      nested := hbalanced.queued_le_active
      nonzero := fun a s' hstep => ?_
      absent := fun i hi hmem => (hbalanced.of_mem_pending hmem).1 hi
      empty := fun hall => ⟨?_, ?_, ?_⟩ }
  · exact ⟨List.count_eq_one_of_mem hbalanced.unqueuedOnce (hover i hi).1,
      List.count_eq_one_of_mem hbalanced.leftOnce (hover i hi).2⟩
  · have hkept := step_kept hs hbalanced.activeAt_le_one hstep
    exact hbalanced.pos_of_booking hkept.booking
  · -- a task in the map is to be struck off it, and so is not over
    refine List.eq_nil_iff_forall_not_mem.mpr fun i hi => ?_
    have hregistered : t.1.books.registeredAt i = 1 := hbalanced.pending i hi
    have hinward := hbalanced.inward i
    have hactive := hbalanced.activeAt i
    by_cases hlt : i < t.1.tasks.length
    · have hzero : t.1.books.activeAt i = 0 := hs.strikes_over (hall i hlt)
      omega
    · rw [if_neg fun hand => hlt hand.1] at hactive
      omega
  · exact hbalanced.active.trans
      (tally_eq_zero.mpr fun i hi => (hover i (hall i (hi.trans_le hbalanced.order.2))).2)
  · exact hbalanced.queued.trans (tally_eq_zero.mpr fun i hi =>
      (hover i (hall i (hi.trans_le (hbalanced.order.1.trans hbalanced.order.2)))).1)

/-- A task that runs and one that `shutdown_now` cancels while the other runs: both are over
in the end, each was taken out of each counter, and nothing is left. -/
theorem accounts_of_reach_two : ∃ t : Service Unit Unit Unit × List Entry,
    t.2 = [.unqueued 0, .unqueued 1, .left 1, .left 0] ∧ t.1.tasks.length = 2 ∧
      Accounts t.1 t.2 := by
  obtain ⟨t, ht, hp⟩ := Machine.exists_reachVia_of_exec (M := audited Unit Unit Unit)
    (fun _ _ => True) (fun _ _ => true) (fun _ _ _ => trivial) (s := (.new, [])) ⟨rfl, rfl⟩
    [.submit, .holderNext [], .holderNext [], .holderNext [], .holderNext [], .holderNext [],
      .holderNext [], .spawn 0, .submit, .holderNext [], .holderNext [], .holderNext [],
      .holderNext [], .holderNext [], .holderNext [], .spawn 1, .runNext 0, .runNext 0,
      .runNext 0, .shutdownNow, .holderNext [], .holderNext [], .holderNext [],
      .holderNext [1], .holderNext [], .sweepNext 0, .sweepNext 0, .sweepNext 0, .sweepNext 0,
      .sweepNext 0, .runNext 1, .callReturns 0 (.value ()), .runNext 0]
    (fun t => decide (t.2 = [.unqueued 0, .unqueued 1, .left 1, .left 0]) &&
      t.1.tasks.length == 2) (by decide)
  rw [Bool.and_eq_true, decide_eq_true_eq, beq_iff_eq] at hp
  exact ⟨t, hp.1, hp.2, accounts_of_reach ht⟩

end Rayon

end QubitConcurrent
