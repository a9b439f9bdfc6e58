import QubitConcurrent.Services.RayonEnd
import QubitConcurrent.Services.RayonRace

/-!
# What `shutdown_now` of a Rayon service settles

A `shutdown_now` sets the flag, drains the map under the submission lock and cancels what it
has drained after it has released the lock. Meanwhile closures start tasks it has drained,
handles cancel them, and another `shutdown_now` finds the map empty. Who wins a task is said
in `QubitConcurrent.Rayon.Raced`.

Two things are added here. The first is how an open task is found: as long as nobody has won
it, it is in the map, or on the way into it, or in the hands of a `shutdown_now`
(`QubitConcurrent.Rayon.Service.InReach`). So nothing is open once the map is empty for good
and every `shutdown_now` has returned. The second is what the numbers of a report come to.
-/

namespace QubitConcurrent

namespace Rayon

open Services

open TaskHandle (TaskHandleInner Outcome)

open ThreadPool (ShutdownReport)

variable {R E W : Type} {s s' : Service R E W} {i k : ℕ}

/-! ### Where an open task is -/

/-- Whether the task of a number is open. -/
def openAt (tasks : List (Task R E W)) (i : ℕ) : Bool := (tasks[i]?).any Task.isOpen

/-- Whether a holder of the submission lock has a task in its hands: one that it is going to
put into the map, or one that it has drained from it. -/
def Holder.has (h : Holder) (i : ℕ) : Prop :=
  (h.task = some i ∧ h ≠ .submitReleasing i) ∨ i ∈ h.drained

/-- Whether a `shutdown_now` has a task in its hands, and has not tried to cancel it yet. -/
def Sweep.has (w : Sweep) (i : ℕ) : Prop :=
  i ∈ w.pending ∨ w.current = some ⟨i, .publishing⟩

/-- **Where a task is found that nobody has won**: in the map, or in the hands of the holder of
the submission lock, or in those of a `shutdown_now`. -/
def Service.InReach (s : Service R E W) (i : ℕ) : Prop :=
  i ∈ s.pendingTasks ∨ (∃ h, s.submissionLock = some h ∧ h.has i) ∨ ∃ w ∈ s.sweeps, w.has i

/-- Every open task is found. -/
def Found (s : Service R E W) : Prop := ∀ i, openAt s.tasks i = true → s.InReach i

/-- A task that was started or completed is not open. -/
theorem openAt_eq_false {t : Task R E W} (hi : s.tasks[i]? = some t)
    (h : t.cell.started = true ∨ t.cell.completed = true) : openAt s.tasks i = false := by
  rw [openAt, hi, Option.any_some, Task.isOpen]
  rcases h with h | h
  · rw [h]
    rfl
  · rw [h, Bool.not_true, Bool.and_false]

/-- A task moves, and is not open unless it was. -/
theorem openAt_set {t t' : Task R E W} {j : ℕ} (hi : s.tasks[i]? = some t)
    (ht : t'.isOpen = true → t.isOpen = true) (hopen : openAt (s.tasks.set i t') j = true) :
    openAt s.tasks j = true := by
  have hset := congrFun (any_getElem?_set hi Task.isOpen t') j
  rw [openAt, show _ = _ from hset] at hopen
  rcases eq_or_ne j i with rfl | hne
  · rw [Function.update_self] at hopen
    rw [openAt, hi, Option.any_some]
    exact ht hopen
  · rwa [Function.update_of_ne hne] at hopen

namespace Found

/-- A step that opens no task, and loses none that is open. -/
theorem keep (h : Found s) (hopen : ∀ i, openAt s'.tasks i = true → openAt s.tasks i = true)
    (hpending : ∀ i ∈ s.pendingTasks, openAt s'.tasks i = true → s'.InReach i)
    (hlock : ∀ g, s.submissionLock = some g → ∀ i, g.has i → s'.InReach i)
    (hsweeps : ∀ w ∈ s.sweeps, ∀ i, w.has i → openAt s'.tasks i = true → s'.InReach i) :
    Found s' := by
  intro i hi
  rcases h i (hopen i hi) with hmap | ⟨g, hg, hhas⟩ | ⟨w, hw, hhas⟩
  · exact hpending i hmap hi
  · exact hlock g hg i hhas
  · exact hsweeps w hw i hhas hi

/-- A step beside the submission lock, of no `shutdown_now`. -/
theorem beside (h : Found s) (hlock : s'.submissionLock = s.submissionLock)
    (hsweeps : s'.sweeps = s.sweeps)
    (hopen : ∀ i, openAt s'.tasks i = true → openAt s.tasks i = true)
    (hpending : ∀ i ∈ s.pendingTasks, openAt s'.tasks i = true → i ∈ s'.pendingTasks) :
    Found s' :=
  h.keep hopen (fun i hi hi' => Or.inl (hpending i hi hi'))
    (fun g hg _ hi => Or.inr (Or.inl ⟨g, hlock.trans hg, hi⟩))
    fun w hw _ hi _ => Or.inr (Or.inr ⟨w, hsweeps ▸ hw, hi⟩)

/-- A step that touches neither the tasks nor the map. -/
theorem idle (h : Found s) (htasks : s'.tasks = s.tasks)
    (hpending : s'.pendingTasks = s.pendingTasks)
    (hlock : s'.submissionLock = s.submissionLock) (hsweeps : s'.sweeps = s.sweeps) : Found s' :=
  h.beside hlock hsweeps (fun i hi => by rwa [htasks] at hi) fun i hi _ => by rwa [hpending]

/-- The closure of a task loses no task that is open. -/
theorem runNext (h : Found s) (hs : Sound s) (hstep : s.runNext i = some s') : Found s' := by
  cases runNext_move hstep with
  | skips cell hi hcompleted =>
    exact h.beside rfl rfl (fun j => openAt_set hi id) fun j hj _ => hj
  | starts cell hi hcompleted =>
    refine h.beside rfl rfl (fun j => openAt_set hi fun hopen => ?_) fun j hj _ => hj
    simp [Task.isOpen] at hopen
  | unregisters cell hi =>
    refine h.beside rfl rfl (fun j => openAt_set hi id) fun j hj hopen => ?_
    -- the task that is removed was started
    have hstarted : cell.started = true := (hs.agrees _ (List.mem_of_getElem? hi)).2.1
    have hne : j ≠ i := by
      rintro rfl
      have hold : openAt s.tasks j = true := by
        refine openAt_set hi ?_ hopen
        exact id
      rw [openAt_eq_false hi (Or.inl hstarted)] at hold
      exact Bool.false_ne_true hold
    exact List.mem_filter.mpr ⟨hj, by simpa using hne⟩
  | unqueues cell hi => exact h.beside rfl rfl (fun j => openAt_set hi id) fun j hj _ => hj
  | leaves cell hi => exact h.beside rfl rfl (fun j => openAt_set hi id) fun j hj _ => hj
  | announces cell a hi => exact h.beside rfl rfl (fun j => openAt_set hi id) fun j hj _ => hj

/-- The call that spawns the closure of a task loses no task. -/
theorem spawn (h : Found s) (hstep : s.spawn i = some s') : Found s' := by
  rw [Service.spawn] at hstep
  split at hstep
  · next cell hi =>
    obtain rfl := Option.some.inj hstep
    exact h.beside rfl rfl (fun j => openAt_set hi id) fun j hj _ => hj
  · exact absurd hstep (by simp)

/-- A callable that ends opens no task. -/
theorem callReturns (h : Found s) (hs : Sound s) {outcome : Outcome R E}
    (hstep : s.callReturns i outcome = some s') : Found s' := by
  rw [Service.callReturns] at hstep
  split at hstep
  · next cell hi =>
    obtain rfl := Option.some.inj hstep
    refine h.beside rfl rfl (fun j => openAt_set hi fun hopen => ?_) fun j hj _ => hj
    obtain ⟨-, -, hcompleted⟩ := hs.agrees _ (List.mem_of_getElem? hi)
    simp only at hcompleted
    simp [Task.isOpen, TaskHandleInner.complete, TaskHandleInner.finish, hcompleted] at hopen
  · exact absurd hstep (by simp)

/-- Who has won a task has cancelled it, and it is not open. -/
theorem not_open_of_won {log : List (ℕ × ℕ)} (hraced : Raced s log) {c : Cancel}
    (hc : c ∈ s.cancelCalls) (hwon : c.phase.won = true) : openAt s.tasks c.task = false := by
  have hpos : 0 < wins s.cancelCalls c.task :=
    List.countP_pos_iff.mpr ⟨c, hc, by simp [hwon]⟩
  have hwinner := hraced.winner c.task
  have hcancelled : cancelledAt s.tasks c.task = true := by
    cases h : cancelledAt s.tasks c.task with
    | true => rfl
    | false =>
      rw [h, Bool.toNat_false] at hwinner
      omega
  rw [cancelledAt] at hcancelled
  cases ht : s.tasks[c.task]? with
  | none => simp [ht] at hcancelled
  | some t =>
    rw [ht, Option.any_some, Task.isCancelled, Bool.and_eq_true] at hcancelled
    exact openAt_eq_false ht (Or.inr hcancelled.1)

/-- **A call that cancels loses no task that is open**, and leaves none open that it has
tried to cancel. -/
theorem cancelNext {log : List (ℕ × ℕ)} (hraced : Raced s log) {c : Cancel}
    {r : Cancel × Service R E W} (hc : c ∈ s.cancelCalls) (hstep : s.cancelNext c = some r) :
    (∀ j, openAt r.2.tasks j = true → openAt s.tasks j = true) ∧
      (∀ j ∈ s.pendingTasks, openAt r.2.tasks j = true → j ∈ r.2.pendingTasks) ∧
      (c.phase = .publishing → openAt r.2.tasks c.task = false) := by
  cases cancelNext_move hstep with
  | publishes i t hi hopen =>
    refine ⟨fun j => openAt_set hi fun _ => hopen, fun j hj _ => hj, fun _ => ?_⟩
    refine openAt_eq_false (s := s.setTask i { t with cell := t.cell.cancel.2 })
      (getElem?_set_of_some hi _) (Or.inr ?_)
    rw [Task.cancel_of_open hopen]
  | loses i t hi hopen =>
    refine ⟨fun j => id, fun j hj _ => hj, fun _ => ?_⟩
    rw [openAt, hi, Option.any_some, hopen]
  | unregisters i =>
    refine ⟨fun j => id, fun j hj hopen => ?_, fun h => absurd h (by simp)⟩
    have hne : j ≠ i := by
      rintro rfl
      exact Bool.false_ne_true ((not_open_of_won hraced hc rfl).symm.trans hopen)
    exact List.mem_filter.mpr ⟨hj, by simpa using hne⟩
  | unqueues i => exact ⟨fun j => id, fun j hj _ => hj, fun h => absurd h (by simp)⟩
  | leaves i => exact ⟨fun j => id, fun j hj _ => hj, fun h => absurd h (by simp)⟩
  | announces i a => exact ⟨fun j => id, fun j hj _ => hj, fun h => absurd h (by simp)⟩

/-- A call of a handle loses no task that is open. -/
theorem handleNext {log : List (ℕ × ℕ)} (h : Found s) (hraced : Raced s log)
    (hstep : s.handleNext k = some s') : Found s' := by
  rw [Service.handleNext] at hstep
  split at hstep
  · next c hk =>
    obtain ⟨r, hr, rfl⟩ := Option.map_eq_some_iff.mp hstep
    obtain ⟨⟨hlock, -⟩, ⟨-, -, hsweeps⟩, -⟩ := cancelNext_spec hr
    have hc : c ∈ s.cancelCalls := List.mem_append_left _ (List.mem_of_getElem? hk)
    obtain ⟨hopen, hpending, -⟩ := cancelNext hraced hc hr
    exact h.beside hlock hsweeps hopen hpending
  · exact absurd hstep (by simp)

/-- A `shutdown_now` moves, and has in its hands what it had, unless that is not open. -/
theorem setSweep (h : Found s) {w u : Sweep} (hk : s.sweeps[k]? = some w)
    (hlock : s'.submissionLock = s.submissionLock) (hsweeps : s'.sweeps = s.sweeps.set k u)
    (hopen : ∀ i, openAt s'.tasks i = true → openAt s.tasks i = true)
    (hpending : ∀ i ∈ s.pendingTasks, openAt s'.tasks i = true → i ∈ s'.pendingTasks)
    (hhas : ∀ i, w.has i → openAt s'.tasks i = true → u.has i) : Found s' := by
  refine h.keep hopen (fun i hi hi' => Or.inl (hpending i hi hi'))
    (fun g hg i hi => Or.inr (Or.inl ⟨g, hlock.trans hg, hi⟩)) fun z hv i hi hi' => ?_
  obtain ⟨l₁, l₂, hsplit, rfl⟩ := exists_split_of_getElem? hk
  have hset : s'.sweeps = l₁ ++ u :: l₂ := by rw [hsweeps, hsplit]; simp
  rw [hsplit, List.mem_append, List.mem_cons] at hv
  refine Or.inr (Or.inr ?_)
  rcases hv with hv | rfl | hv
  · exact ⟨z, by simp [hset, hv], hi⟩
  · exact ⟨u, by simp [hset], hhas i hi hi'⟩
  · exact ⟨z, by simp [hset, hv], hi⟩

/-- A `shutdown_now` that has released the submission lock loses no task that is open. -/
theorem sweepNext {log : List (ℕ × ℕ)} (h : Found s) (hraced : Raced s log)
    (hstep : s.sweepNext k = some s') : Found s' := by
  cases sweepNext_move hstep with
  | counts pending i answer report hk =>
    refine h.setSweep hk rfl rfl (fun j => id) (fun j hj _ => hj) fun j hj _ => ?_
    rcases hj with hj | hj
    · exact Or.inl hj
    · exact absurd hj (by simp [Sweep.current])
  | cancels pending c report hk r hr =>
    obtain ⟨⟨hlock, -⟩, ⟨-, -, hsweeps⟩, -⟩ := cancelNext_spec hr
    have hc : c ∈ s.cancelCalls :=
      List.mem_append_right _ (List.mem_filterMap.mpr ⟨_, List.mem_of_getElem? hk, rfl⟩)
    obtain ⟨hopen, hpending, htried⟩ := cancelNext hraced hc hr
    refine h.setSweep (u := .cancelling pending (some r.1) report) hk hlock
      (congrArg (List.set · k _) hsweeps) hopen hpending fun j hj hj' => ?_
    rcases hj with hj | hj
    · exact Or.inl hj
    · -- the task it has just tried to cancel
      obtain rfl := Option.some.inj hj
      exact absurd ((htried rfl).symm.trans hj') Bool.false_ne_true
  | picks i pending report hk =>
    refine h.setSweep hk rfl rfl (fun j => id) (fun j hj _ => hj) fun j hj _ => ?_
    rcases hj with hj | hj
    · rcases List.mem_cons.mp hj with rfl | hj
      · exact Or.inr rfl
      · exact Or.inl hj
    · exact absurd hj (by simp [Sweep.current])
  | ends report hk =>
    refine h.setSweep hk rfl rfl (fun j => id) (fun j hj _ => hj) fun j hj _ => ?_
    exact absurd hj (by simp [Sweep.has, Sweep.pending, Sweep.current])
  | announces a report hk =>
    refine h.setSweep hk rfl rfl (fun j => id) (fun j hj _ => hj) fun j hj _ => ?_
    exact absurd hj (by simp [Sweep.has, Sweep.pending, Sweep.current])

/-- The holder of the submission lock passes on the task in its hands. -/
theorem holderNext (h : Found s) {holder : Holder} {order : List ℕ}
    (hlock : s.submissionLock = some holder) (hstep : s.holderNext order holder = some s') :
    Found s' := by
  -- who has nothing in its hands may do what it likes with the lock
  have hpass : ∀ {u : Service R E W}, (∀ i, ¬ holder.has i) → u.tasks = s.tasks →
      u.pendingTasks = s.pendingTasks → u.sweeps = s.sweeps → Found u := by
    intro u hnone htasks hpending hsweeps
    refine h.keep (fun i hi => by rwa [htasks] at hi) (fun i hi _ => Or.inl (hpending ▸ hi))
      (fun g hg i hi => ?_) fun w hw i hi _ => Or.inr (Or.inr ⟨w, hsweeps ▸ hw, hi⟩)
    obtain rfl := Option.some.inj (hlock.symm.trans hg)
    exact absurd hi (hnone i)
  -- who has a task in its hands keeps it there
  have hcarry : ∀ {u : Service R E W} (g : Holder), (∀ i, holder.has i → g.has i) →
      u.submissionLock = some g → u.tasks = s.tasks → u.pendingTasks = s.pendingTasks →
      u.sweeps = s.sweeps → Found u := by
    intro u g hhas hu htasks hpending hsweeps
    refine h.keep (fun i hi => by rwa [htasks] at hi) (fun i hi _ => Or.inl (hpending ▸ hi))
      (fun f hf i hi => ?_) fun w hw i hi _ => Or.inr (Or.inr ⟨w, hsweeps ▸ hw, hi⟩)
    obtain rfl := Option.some.inj (hlock.symm.trans hf)
    exact Or.inr (Or.inl ⟨g, hu, hhas i hi⟩)
  cases holder with
  | submitChecking =>
    obtain rfl := Option.some.inj hstep
    split_ifs
    · exact hpass (by simp [Holder.has, Holder.task, Holder.drained]) rfl rfl rfl
    · exact hpass (by simp [Holder.has, Holder.task, Holder.drained]) rfl rfl rfl
  | submitNumbering =>
    obtain rfl := Option.some.inj hstep
    intro i hi
    rcases eq_or_ne i s.tasks.length with rfl | hne
    · exact Or.inr (Or.inl ⟨_, rfl, Or.inl ⟨rfl, by simp⟩⟩)
    · have hold : openAt s.tasks i = true := by
        rwa [openAt, Service.hold, getElem?_concat_of_ne hne] at hi
      rcases h i hold with hmap | ⟨g, hg, hhas⟩ | hsweep
      · exact Or.inl hmap
      · obtain rfl := Option.some.inj (hlock.symm.trans hg)
        exact absurd hhas (by simp [Holder.has, Holder.task, Holder.drained])
      · exact Or.inr (Or.inr hsweep)
  | submitCounting i | submitQueueing i =>
    obtain rfl := Option.some.inj hstep
    exact hcarry _ (by simp [Holder.has, Holder.task, Holder.drained]) rfl rfl rfl rfl
  | submitRegistering i =>
    obtain rfl := Option.some.inj hstep
    refine h.keep (fun j => id) (fun j hj _ => Or.inl (List.mem_append_left _ hj))
      (fun g hg j hj => ?_) fun w hw j hj _ => Or.inr (Or.inr ⟨w, hw, hj⟩)
    obtain rfl := Option.some.inj (hlock.symm.trans hg)
    obtain rfl : i = j := by simpa [Holder.has, Holder.task, Holder.drained] using hj
    exact Or.inl (List.mem_append_right _ (List.mem_singleton_self i))
  | submitReleasing i =>
    obtain ⟨cell, hi, rfl⟩ := holderNext_submitReleasing hstep
    refine h.keep (fun j => openAt_set hi id) (fun j hj _ => Or.inl hj) (fun g hg j hj => ?_)
      fun w hw j hj _ => Or.inr (Or.inr ⟨w, hw, hj⟩)
    obtain rfl := Option.some.inj (hlock.symm.trans hg)
    exfalso
    simp [Holder.has, Holder.task, Holder.drained] at hj
  | shutdownAnnouncing a =>
    obtain rfl := holderNext_shutdownAnnouncing hstep
    exact hpass (by simp [Holder.has, Holder.task, Holder.drained]) rfl rfl rfl
  | shutdownNowDraining queued running =>
    obtain ⟨horder, rfl⟩ := holderNext_shutdownNowDraining hstep
    refine h.keep (fun j => id) (fun j hj _ => ?_) (fun g hg j hj => ?_)
      fun w hw j hj _ => Or.inr (Or.inr ⟨w, hw, hj⟩)
    · exact Or.inr (Or.inl ⟨_, rfl, Or.inr (horder.mem_iff.mpr hj)⟩)
    · obtain rfl := Option.some.inj (hlock.symm.trans hg)
      exact absurd hj (by simp [Holder.has, Holder.task, Holder.drained])
  | shutdownNowReleasing pending queued running =>
    obtain rfl := Option.some.inj hstep
    refine h.keep (fun j => id) (fun j hj _ => Or.inl hj) (fun g hg j hj => ?_)
      fun w hw j hj _ => Or.inr (Or.inr ⟨w, List.mem_append_left _ hw, hj⟩)
    obtain rfl := Option.some.inj (hlock.symm.trans hg)
    have hdrained : j ∈ pending := by simpa [Holder.has, Holder.task, Holder.drained] using hj
    exact Or.inr (Or.inr ⟨_, List.mem_append_right _ (List.mem_singleton_self _),
      Or.inl hdrained⟩)
  | _ =>
    obtain rfl := Option.some.inj hstep
    exact hpass (by simp [Holder.has, Holder.task, Holder.drained]) rfl rfl rfl

/-- **No step loses a task that is open.** -/
theorem step {log : List (ℕ × ℕ)} (h : Found s) (hs : Sound s) (hraced : Raced s log)
    {a : Action R E} (hstep : s.step a = some s') : Found s' := by
  cases a with
  | submit | shutdown | shutdownNow =>
    simp only [Service.step, Service.acquire] at hstep
    split_ifs at hstep with hlock
    obtain rfl := Option.some.inj hstep
    refine h.keep (fun i => id) (fun i hi _ => Or.inl hi) (fun g hg => ?_)
      fun w hw i hi _ => Or.inr (Or.inr ⟨w, hw, hi⟩)
    exact absurd (hlock.symm.trans hg) (by simp)
  | holderNext order =>
    obtain ⟨holder, hlock, hnext⟩ := Option.bind_eq_some_iff.mp hstep
    exact h.holderNext hlock hnext
  | spawn i => exact h.spawn hstep
  | runNext i => exact h.runNext hs hstep
  | callReturns i outcome => exact h.callReturns hs hstep
  | cancel i =>
    simp only [Service.step, Service.cancel] at hstep
    split_ifs at hstep
    obtain rfl := Option.some.inj hstep
    exact h.idle rfl rfl rfl rfl
  | handleNext k => exact h.handleNext hraced hstep
  | sweepNext k => exact h.sweepNext hraced hstep
  | await | awaitNext k | awaitDrop k | isTerminated | queryNext k =>
    obtain ⟨c, -, rfl⟩ := step_turn rfl hstep
    exact h.idle rfl rfl rfl rfl

end Found

/-! ### What the reports come to -/

/-- What a holder of the submission lock knows of the flag. -/
def Holder.flag : Holder → Option Bool
  | submitChecking | shutdownStoring | shutdownNowStoring => none
  | submitNumbering | submitCounting _ | submitQueueing _ | submitRegistering _
  | submitReleasing _ => some false
  | shutdownAnnouncing _ | shutdownNowCounting | shutdownNowReading _ | shutdownNowDraining _ _
  | shutdownNowReleasing _ _ _ => some true

/-- What a holder of the submission lock has read of `queued_tasks` is enough for the `n` tasks
in the map, or for those it has drained from it. -/
def Holder.Within (n : ℕ) : Holder → Prop
  | shutdownNowReading queued | shutdownNowDraining queued _ => n ≤ queued
  | shutdownNowReleasing pending queued _ => pending.length ≤ queued
  | _ => True

/-- The report of a `shutdown_now`, as far as it has come. -/
def Sweep.report : Sweep → ShutdownReport
  | cancelling _ _ report | announcing _ report | returned report => report

/-- How many tasks a `shutdown_now` may still count. -/
def Sweep.left (w : Sweep) : ℕ := w.pending.length + w.current.toList.length

/-- **What the reports rest on**, given what was counted so far. -/
structure Reporting (s : Service R E W) (log : List (ℕ × ℕ)) : Prop where
  /-- The holder of the submission lock is right about the flag. -/
  flag : ∀ h, s.submissionLock = some h → ∀ b, h.flag = some b → s.shutdown = b
  /-- The map is empty for good once a `shutdown_now` has drained it. -/
  empty : (s.sweeps ≠ [] ∨ ∃ p q r, s.submissionLock = some (.shutdownNowReleasing p q r)) →
    s.shutdown = true ∧ s.pendingTasks = []
  /-- No task is in the map twice. -/
  nodup : s.pendingTasks.Nodup
  /-- A `shutdown_now` has read enough of `queued_tasks`. -/
  read : ∀ h, s.submissionLock = some h → h.Within s.pendingTasks.length
  /-- No `shutdown_now` counts more than it has read. -/
  within : ∀ w ∈ s.sweeps, w.left + w.report.cancelled ≤ w.report.queued
  /-- What a `shutdown_now` reports is what it has counted. -/
  counted : ∀ k, (s.sweeps[k]?).elim 0 (fun w => w.report.cancelled) = (log.map Prod.fst).count k

/-- Fewer tasks in the map are within what was read, too. -/
theorem Holder.Within.mono {h : Holder} {m n : ℕ} (hle : m ≤ n) (hn : h.Within n) :
    h.Within m := by
  cases h with
  | shutdownNowReading queued | shutdownNowDraining queued running => exact hle.trans hn
  | shutdownNowReleasing pending queued running => exact hn
  | _ => trivial

/-- **The map holds no more tasks than `queued_tasks` says**, once no submission is under
way. -/
theorem length_pendingTasks_le (hs : (machine R E W).Reach s) (hnodup : s.pendingTasks.Nodup)
    (hknown : ∀ i, s.submissionLock ≠ some (.submitReleasing i)) :
    s.pendingTasks.length ≤ s.queuedTasks := by
  obtain ⟨log, hlog⟩ := Machine.exists_observe (fun s a _ => s.struck a) hs
  obtain ⟨hsound, hbalanced⟩ := audited_of_reach hlog
  have hqueued : s.queuedTasks = tally s.enqueued (unqueuedOf log) := hbalanced.queued
  have hsubset : s.pendingTasks.toFinset ⊆
      (Finset.range s.enqueued).filter (· ∉ unqueuedOf log) := by
    intro i hi
    rw [List.mem_toFinset] at hi
    have hlt : i < s.enqueued :=
      hsound.lt_enqueued ((hsound.pending i hi).resolve_right (hknown i))
    exact Finset.mem_filter.mpr
      ⟨Finset.mem_range.mpr hlt, (hbalanced.of_mem_pending (b := s.books) hi).1⟩
  calc s.pendingTasks.length
      = s.pendingTasks.toFinset.card := (List.toFinset_card_of_nodup hnodup).symm
    _ ≤ tally s.enqueued (unqueuedOf log) := Finset.card_le_card hsubset
    _ = s.queuedTasks := hqueued.symm

namespace Reporting

variable {log : List (ℕ × ℕ)}

/-- A step beside the submission lock, of no `shutdown_now`. -/
theorem beside (h : Reporting s log) (hlock : s'.submissionLock = s.submissionLock)
    (hshutdown : s'.shutdown = s.shutdown)
    (hpending : s'.pendingTasks.Sublist s.pendingTasks) (hsweeps : s'.sweeps = s.sweeps) :
    Reporting s' log where
  flag g hg b hb := hshutdown.trans (h.flag g (hlock.symm.trans hg) b hb)
  empty hdrained := by
    rw [hsweeps, hlock] at hdrained
    obtain ⟨hflag, hempty⟩ := h.empty hdrained
    rw [hempty] at hpending
    exact ⟨hshutdown.trans hflag, List.sublist_nil.mp hpending⟩
  nodup := h.nodup.sublist hpending
  read g hg := .mono hpending.length_le (h.read g (hlock.symm.trans hg))
  within := hsweeps ▸ h.within
  counted := hsweeps ▸ h.counted

/-- A `shutdown_now` that has released the submission lock moves, and counts what it says. -/
theorem setSweep (h : Reporting s log) {w u : Sweep} (hk : s.sweeps[k]? = some w)
    {notes : List (ℕ × ℕ)} (hlock : s'.submissionLock = s.submissionLock)
    (hshutdown : s'.shutdown = s.shutdown)
    (hpending : s'.pendingTasks.Sublist s.pendingTasks) (hsweeps : s'.sweeps = s.sweeps.set k u)
    (hqueued : u.report.queued = w.report.queued)
    (hleft : u.left + u.report.cancelled ≤ w.left + w.report.cancelled)
    (hcount : u.report.cancelled = w.report.cancelled + (notes.map Prod.fst).count k)
    (hnotes : ∀ n ∈ notes, n.1 = k) : Reporting s' (log ++ notes) := by
  have hsome : s.sweeps ≠ [] := List.ne_nil_of_mem (List.mem_of_getElem? hk)
  obtain ⟨hflag, hempty⟩ := h.empty (Or.inl hsome)
  refine
    { flag := fun g hg b hb => hshutdown.trans (h.flag g (hlock.symm.trans hg) b hb)
      empty := fun _ => ⟨hshutdown.trans hflag, List.sublist_nil.mp (hempty ▸ hpending)⟩
      nodup := h.nodup.sublist hpending
      read := fun g hg => .mono hpending.length_le (h.read g (hlock.symm.trans hg))
      within := fun z hv => ?_
      counted := fun j => ?_ }
  · rw [hsweeps] at hv
    rcases List.mem_or_eq_of_mem_set hv with hold | rfl
    · exact h.within z hold
    · have hw := h.within w (List.mem_of_getElem? hk)
      omega
  · have hold := h.counted j
    rw [List.map_append, List.count_append, ← hold, hsweeps]
    rcases eq_or_ne k j with rfl | hne
    · rw [getElem?_set_of_some hk, hk]
      exact hcount
    · have hzero : (notes.map Prod.fst).count j = 0 := by
        refine List.count_eq_zero.mpr fun hmem => ?_
        obtain ⟨n, hn, rfl⟩ := List.mem_map.mp hmem
        exact hne (hnotes n hn).symm
      rw [List.getElem?_set_ne hne, hzero, Nat.add_zero]

/-- The closure of a task takes nothing but itself out of the map. -/
theorem runNext (h : Reporting s log) (hstep : s.runNext i = some s') : Reporting s' log := by
  cases runNext_move hstep with
  | skips | starts | unqueues | leaves => exact h.beside rfl rfl (List.Sublist.refl _) rfl
  | unregisters => exact h.beside rfl rfl List.filter_sublist rfl
  | announces => exact h.beside rfl (Core.shutdown_announce ..) (List.Sublist.refl _) rfl

/-- A call that cancels takes nothing but its task out of the map. -/
theorem cancelNext {c : Cancel} {r : Cancel × Service R E W} (hstep : s.cancelNext c = some r) :
    r.2.pendingTasks.Sublist s.pendingTasks := by
  cases cancelNext_move hstep with
  | unregisters => exact List.filter_sublist
  | _ => exact List.Sublist.refl _

/-- A call of a handle keeps the reports. -/
theorem handleNext (h : Reporting s log) (hstep : s.handleNext k = some s') :
    Reporting s' log := by
  rw [Service.handleNext] at hstep
  split at hstep
  · next c hk =>
    obtain ⟨r, hr, rfl⟩ := Option.map_eq_some_iff.mp hstep
    obtain ⟨⟨hlock, hshutdown⟩, ⟨-, -, hsweeps⟩, -⟩ := cancelNext_spec hr
    exact h.beside hlock hshutdown (cancelNext hr) hsweeps
  · exact absurd hstep (by simp)

/-- A `shutdown_now` that has released the submission lock counts what it says. -/
theorem sweepNext (h : Reporting s log) (hstep : s.sweepNext k = some s') :
    Reporting s' (log ++ s.claims (.sweepNext k : Action R E)) := by
  have hrefl := List.Sublist.refl s.pendingTasks
  cases sweepNext_move hstep with
  | counts pending i answer report hk =>
    cases answer with
    | false =>
      have hclaims : s.claims (.sweepNext k : Action R E) = [] := by simp [Service.claims, hk]
      rw [hclaims]
      exact h.setSweep hk rfl rfl hrefl rfl rfl (by simp [Sweep.left, Sweep.pending,
        Sweep.current, Sweep.report]) rfl (by simp)
    | true =>
      have hclaims : s.claims (.sweepNext k : Action R E) = [(k, i)] := by
        simp [Service.claims, hk]
      rw [hclaims]
      refine h.setSweep hk rfl rfl hrefl rfl rfl ?_ ?_ (by simp)
      · simp [Sweep.left, Sweep.pending, Sweep.current, Sweep.report, Service.count]
        omega
      · simp [Sweep.report, Service.count]
  | cancels pending c report hk r hr =>
    obtain ⟨⟨hlock, hshutdown⟩, ⟨-, -, hsweeps⟩, -⟩ := cancelNext_spec hr
    rw [claims_cancels hk hr]
    exact h.setSweep (u := .cancelling pending (some r.1) report) hk hlock hshutdown
      (cancelNext hr) (congrArg (List.set · k _) hsweeps) rfl le_rfl rfl (by simp)
  | picks i pending report hk =>
    have hclaims : s.claims (.sweepNext k : Action R E) = [] := by simp [Service.claims, hk]
    rw [hclaims]
    exact h.setSweep hk rfl rfl hrefl rfl rfl (by simp [Sweep.left, Sweep.pending,
      Sweep.current, Sweep.report]) rfl (by simp)
  | ends report hk =>
    have hclaims : s.claims (.sweepNext k : Action R E) = [] := by simp [Service.claims, hk]
    rw [hclaims]
    exact h.setSweep hk rfl rfl hrefl rfl rfl le_rfl rfl (by simp)
  | announces a report hk =>
    have hclaims : s.claims (.sweepNext k : Action R E) = [] := by simp [Service.claims, hk]
    have hreport : (Service.sweepAfter report (s.announce a).1).report = report := by
      cases (s.announce a).1 <;> rfl
    rw [hclaims]
    refine h.setSweep hk rfl (Core.shutdown_announce ..) hrefl rfl ?_ ?_ ?_ (by simp)
    · rw [hreport]
      rfl
    · rw [Sweep.left, current_sweepAfter, pending_sweepAfter, hreport]
      simp [Sweep.left, Sweep.report]
    · rw [hreport]
      rfl

/-- Who holds the submission lock passes it on: what there is to be seen to. -/
theorem pass (h : Reporting s log) {lock : Option Holder} (hlock : s'.submissionLock = lock)
    (hpending : s'.pendingTasks.Sublist s.pendingTasks) (hsweeps : s'.sweeps = s.sweeps)
    (hflag : ∀ g ∈ lock, ∀ b, g.flag = some b → s'.shutdown = b)
    (hread : ∀ g ∈ lock, g.Within s'.pendingTasks.length)
    (hshutdown : s.sweeps ≠ [] → s'.shutdown = true)
    (hdrained : ∀ p q r, lock = some (.shutdownNowReleasing p q r) →
      s'.shutdown = true ∧ s'.pendingTasks = []) : Reporting s' log where
  flag g hg b hb := hflag g (hlock ▸ hg) b hb
  empty hempty := by
    rw [hsweeps, hlock] at hempty
    rcases hempty with hsome | ⟨p, q, r, hg⟩
    · obtain ⟨-, hnone⟩ := h.empty (Or.inl hsome)
      rw [hnone] at hpending
      exact ⟨hshutdown hsome, List.sublist_nil.mp hpending⟩
    · exact hdrained p q r hg
  nodup := h.nodup.sublist hpending
  read g hg := hread g (hlock ▸ hg)
  within := hsweeps ▸ h.within
  counted := hsweeps ▸ h.counted

/-- The submission lock goes to a holder that has not drained the map. -/
theorem passTo (h : Reporting s log) (g : Holder) (hlock : s'.submissionLock = some g)
    (hpending : s'.pendingTasks.Sublist s.pendingTasks) (hsweeps : s'.sweeps = s.sweeps)
    (hflag : ∀ b, g.flag = some b → s'.shutdown = b) (hread : g.Within s'.pendingTasks.length)
    (hshutdown : s.sweeps ≠ [] → s'.shutdown = true)
    (hdrained : ∀ p q r, g ≠ .shutdownNowReleasing p q r) : Reporting s' log := by
  refine h.pass hlock hpending hsweeps ?_ ?_ hshutdown ?_
  · rintro f hf b hb
    obtain rfl := Option.some.inj hf
    exact hflag b hb
  · rintro f hf
    obtain rfl := Option.some.inj hf
    exact hread
  · intro p q r hf
    exact absurd (Option.some.inj hf) (hdrained p q r)

/-- The holder of the submission lock keeps the reports. -/
theorem holderNext (h : Reporting s log) (hs : (machine R E W).Reach s) {holder : Holder}
    {order : List ℕ} (hlock : s.submissionLock = some holder)
    (hstep : s.holderNext order holder = some s') : Reporting s' log := by
  have hsound := sound_of_reach hs
  have hrefl := List.Sublist.refl s.pendingTasks
  have hset : s.sweeps ≠ [] → s.shutdown = true := fun hsome => (h.empty (Or.inl hsome)).1
  have hflag := h.flag holder hlock
  have hread := h.read holder hlock
  cases holder with
  | submitChecking =>
    obtain rfl := Option.some.inj hstep
    split_ifs with hshutdown
    · exact h.pass (show _ = none from rfl) hrefl rfl (by simp) (by simp) hset (by simp)
    · rw [Bool.not_eq_true] at hshutdown
      exact h.passTo _ rfl hrefl rfl (fun b hb => Option.some.inj hb ▸ hshutdown) trivial hset
        (by simp)
  | submitNumbering | submitCounting i | submitQueueing i =>
    obtain rfl := Option.some.inj hstep
    have hopen : s.shutdown = false := hflag false rfl
    exact h.passTo _ rfl hrefl rfl (fun b hb => Option.some.inj hb ▸ hopen) trivial hset
      (by simp)
  | submitRegistering i =>
    obtain rfl := Option.some.inj hstep
    have hopen : s.shutdown = false := hflag false rfl
    -- as long as tasks are admitted, no `shutdown_now` has drained the map
    have hnone : s.sweeps = [] := by
      by_contra hsome
      exact Bool.false_ne_true (hopen.symm.trans (hset hsome))
    have hnew : i ∉ s.pendingTasks := by
      intro hmem
      refine hsound.not_known hlock rfl ((hsound.pending i hmem).resolve_right fun hreleasing => ?_)
      exact absurd (hlock.symm.trans hreleasing) (by simp)
    refine
      { flag := by simpa [Service.hold, Holder.flag] using hopen
        empty := by simp [Service.hold, hnone]
        nodup := ?_
        read := by simp [Service.hold, Holder.Within]
        within := h.within
        counted := h.counted }
    exact List.nodup_append.mpr ⟨h.nodup, List.nodup_singleton i, by
      rintro j hj k hk rfl
      exact hnew (List.mem_singleton.mp hk ▸ hj)⟩
  | submitReleasing i =>
    obtain ⟨cell, -, rfl⟩ := holderNext_submitReleasing hstep
    exact h.pass (show _ = none from rfl) hrefl rfl (by simp) (by simp) hset (by simp)
  | shutdownStoring | shutdownNowStoring =>
    obtain rfl := Option.some.inj hstep
    exact h.passTo _ rfl hrefl rfl (fun b hb => Option.some.inj hb ▸ rfl) trivial (fun _ => rfl)
      (by simp)
  | shutdownAnnouncing a =>
    obtain rfl := holderNext_shutdownAnnouncing hstep
    have hclosed : s.shutdown = true := hflag true rfl
    have hsame : (s.announce a).2.shutdown = true := (Core.shutdown_announce ..).trans hclosed
    refine h.pass rfl hrefl rfl (fun g hg b hb => ?_) (fun g hg => ?_) (fun _ => hsame) (by simp)
    · obtain ⟨a', -, rfl⟩ := Option.mem_map.mp hg
      obtain rfl := Option.some.inj hb
      exact hsame
    · obtain ⟨a', -, rfl⟩ := Option.mem_map.mp hg
      trivial
  | shutdownNowCounting =>
    -- no submission is under way, so every task in the map is counted as queued
    obtain rfl := Option.some.inj hstep
    have hclosed : s.shutdown = true := hflag true rfl
    have hle := length_pendingTasks_le hs h.nodup (by simp [hlock])
    exact h.passTo _ rfl hrefl rfl (fun b hb => Option.some.inj hb ▸ hclosed) hle hset
      (by simp)
  | shutdownNowReading queued =>
    obtain rfl := Option.some.inj hstep
    have hclosed : s.shutdown = true := hflag true rfl
    exact h.passTo _ rfl hrefl rfl (fun b hb => Option.some.inj hb ▸ hclosed) hread hset
      (by simp)
  | shutdownNowDraining queued running =>
    obtain ⟨horder, rfl⟩ := holderNext_shutdownNowDraining hstep
    have hclosed : s.shutdown = true := hflag true rfl
    have hle : order.length ≤ queued := horder.length_eq.trans_le hread
    refine h.pass rfl (List.nil_sublist _) rfl ?_ ?_ hset fun _ _ _ _ => ⟨hclosed, rfl⟩
    · rintro g hg b hb
      obtain rfl := Option.some.inj hg
      exact Option.some.inj hb ▸ hclosed
    · rintro g hg
      obtain rfl := Option.some.inj hg
      exact hle
  | shutdownNowReleasing pending queued running =>
    obtain rfl := Option.some.inj hstep
    obtain ⟨hclosed, hempty⟩ := h.empty (Or.inr ⟨_, _, _, hlock⟩)
    refine
      { flag := by simp [Service.release]
        empty := fun _ => ⟨hclosed, hempty⟩
        nodup := h.nodup
        read := by simp [Service.release]
        within := fun w hw => ?_
        counted := fun j => ?_ }
    · rcases List.mem_append.mp hw with hold | hnew
      · exact h.within w hold
      · rw [List.mem_singleton.mp hnew]
        have hle : pending.length ≤ queued := hread
        simpa [Sweep.left, Sweep.pending, Sweep.current, Sweep.report] using hle
    · rw [← h.counted j]
      rcases eq_or_ne j s.sweeps.length with rfl | hne
      · simp [Sweep.report]
      · rw [getElem?_concat_of_ne hne]

/-- **Every step keeps the reports.** -/
theorem step (h : Reporting s log) (hs : (machine R E W).Reach s) {a : Action R E}
    (hstep : s.step a = some s') : Reporting s' (log ++ s.claims a) := by
  have hrefl := List.Sublist.refl s.pendingTasks
  cases a with
  | sweepNext k => exact h.sweepNext hstep
  | submit | shutdown | shutdownNow =>
    simp only [Service.step, Service.acquire] at hstep
    split_ifs at hstep
    obtain rfl := Option.some.inj hstep
    rw [Service.claims, List.append_nil]
    · exact h.passTo _ rfl hrefl rfl (by simp [Holder.flag]) trivial
        (fun hsome => (h.empty (Or.inl hsome)).1) (by simp)
    · simp
  | holderNext order =>
    obtain ⟨holder, hlock, hnext⟩ := Option.bind_eq_some_iff.mp hstep
    exact (List.append_nil log).symm ▸ h.holderNext hs hlock hnext
  | spawn i =>
    simp only [Service.step, Service.spawn] at hstep
    split at hstep
    · obtain rfl := Option.some.inj hstep
      exact (List.append_nil log).symm ▸ h.beside rfl rfl hrefl rfl
    · exact absurd hstep (by simp)
  | runNext i => exact (List.append_nil log).symm ▸ h.runNext hstep
  | callReturns i outcome =>
    simp only [Service.step, Service.callReturns] at hstep
    split at hstep
    · obtain rfl := Option.some.inj hstep
      exact (List.append_nil log).symm ▸ h.beside rfl rfl hrefl rfl
    · exact absurd hstep (by simp)
  | cancel i =>
    simp only [Service.step, Service.cancel] at hstep
    split_ifs at hstep
    obtain rfl := Option.some.inj hstep
    exact (List.append_nil log).symm ▸ h.beside rfl rfl hrefl rfl
  | handleNext k => exact (List.append_nil log).symm ▸ h.handleNext hstep
  | await | awaitNext k | awaitDrop k | isTerminated | queryNext k =>
    obtain ⟨c, hturn, rfl⟩ := step_turn rfl hstep
    exact (List.append_nil log).symm ▸ h.beside rfl hturn.shutdown hrefl rfl

end Reporting

/-! ### What becomes of a task that is not open -/

/-- What may become of a task: it is not opened again, and who does not find it open does not
start it. -/
structure Task.Evolves (t t' : Task R E W) : Prop where
  /-- It is not opened again. -/
  isOpen : t'.isOpen = true → t.isOpen = true
  /-- It is started only if it is open. -/
  started : t.isOpen = false → t'.cell.started = t.cell.started

/-- Every task is still there, and has become what it may. -/
def Evolved (s s' : Service R E W) : Prop :=
  ∀ (i : ℕ) (t : Task R E W), s.tasks[i]? = some t →
    ∃ t', s'.tasks[i]? = some t' ∧ t.Evolves t'

namespace Evolved

/-- No task moves. -/
theorem of_eq (h : s'.tasks = s.tasks) : Evolved s s' :=
  fun _ t ht => ⟨t, by rw [h, ht], id, fun _ => rfl⟩

/-- One task moves. -/
theorem set {t t' : Task R E W} (hi : s.tasks[i]? = some t)
    (htasks : s'.tasks = s.tasks.set i t') (ht : t.Evolves t') : Evolved s s' := by
  intro j u hu
  rcases getElem?_set_kept hi hu t' with ⟨rfl, rfl⟩ | ⟨-, hstill⟩
  · exact ⟨t', htasks ▸ getElem?_set_of_some hi t', ht⟩
  · exact ⟨u, htasks ▸ hstill, id, fun _ => rfl⟩

/-- The closure of a task starts it only if it is open. -/
theorem runNext (hs : Sound s) (hstep : s.runNext i = some s') : Evolved s s' := by
  cases runNext_move hstep with
  | skips cell hi => exact set hi rfl ⟨id, fun _ => rfl⟩
  | starts cell hi hcompleted =>
    have hstarted : cell.started = false := (hs.agrees _ (List.mem_of_getElem? hi)).2
    refine set hi rfl ⟨fun hopen => ?_, fun hopen => ?_⟩
    · simp [Task.isOpen] at hopen
    · simp [Task.isOpen, hstarted, hcompleted] at hopen
  | unregisters cell hi => exact set hi rfl ⟨id, fun _ => rfl⟩
  | unqueues cell hi => exact set hi rfl ⟨id, fun _ => rfl⟩
  | leaves cell hi => exact set hi rfl ⟨id, fun _ => rfl⟩
  | announces cell a hi => exact set hi rfl ⟨id, fun _ => rfl⟩

/-- A call that cancels starts nothing. -/
theorem cancelNext {c : Cancel} {r : Cancel × Service R E W} (hstep : s.cancelNext c = some r) :
    Evolved s r.2 := by
  cases cancelNext_move hstep with
  | publishes i t hi hopen =>
    refine set hi rfl ⟨fun _ => hopen, fun hclosed => ?_⟩
    exact absurd (hclosed.symm.trans hopen) Bool.false_ne_true
  | _ => exact of_eq rfl

/-- A holder of the submission lock starts nothing. -/
theorem holderNext {holder : Holder} {order : List ℕ}
    (hstep : s.holderNext order holder = some s') : Evolved s s' := by
  cases holder with
  | submitChecking =>
    obtain rfl := Option.some.inj hstep
    split_ifs
    · exact of_eq rfl
    · exact of_eq rfl
  | submitNumbering =>
    obtain rfl := Option.some.inj hstep
    intro i t hi
    obtain ⟨hlt, -⟩ := List.getElem?_eq_some_iff.mp hi
    exact ⟨t, (List.getElem?_append_left hlt).trans hi, id, fun _ => rfl⟩
  | submitReleasing i =>
    obtain ⟨cell, hi, rfl⟩ := holderNext_submitReleasing hstep
    exact set hi rfl ⟨id, fun _ => rfl⟩
  | shutdownAnnouncing a =>
    obtain rfl := holderNext_shutdownAnnouncing hstep
    exact of_eq rfl
  | shutdownNowDraining queued running =>
    obtain ⟨-, rfl⟩ := holderNext_shutdownNowDraining hstep
    exact of_eq rfl
  | _ =>
    obtain rfl := Option.some.inj hstep
    exact of_eq rfl

/-- **Over every step, tasks become what they may.** -/
theorem step (hs : Sound s) {a : Action R E} (hstep : s.step a = some s') : Evolved s s' := by
  cases a with
  | submit | shutdown | shutdownNow =>
    simp only [Service.step, Service.acquire] at hstep
    split_ifs at hstep
    obtain rfl := Option.some.inj hstep
    exact of_eq rfl
  | holderNext order =>
    obtain ⟨holder, -, hnext⟩ := Option.bind_eq_some_iff.mp hstep
    exact holderNext hnext
  | spawn i =>
    simp only [Service.step, Service.spawn] at hstep
    split at hstep
    · next cell hi =>
      obtain rfl := Option.some.inj hstep
      exact set hi rfl ⟨id, fun _ => rfl⟩
    · exact absurd hstep (by simp)
  | runNext i => exact runNext hs hstep
  | callReturns i outcome =>
    simp only [Service.step, Service.callReturns] at hstep
    split at hstep
    · next cell hi =>
      obtain rfl := Option.some.inj hstep
      obtain ⟨-, hstarted, hcompleted⟩ := hs.agrees _ (List.mem_of_getElem? hi)
      simp only at hstarted hcompleted
      refine set hi rfl ⟨fun hopen => ?_, fun _ => ?_⟩
      · simp [Task.isOpen, TaskHandleInner.complete, TaskHandleInner.finish, hstarted,
          hcompleted] at hopen
      · simp [TaskHandleInner.complete, TaskHandleInner.finish, hcompleted]
    · exact absurd hstep (by simp)
  | cancel i =>
    simp only [Service.step, Service.cancel] at hstep
    split_ifs at hstep
    obtain rfl := Option.some.inj hstep
    exact of_eq rfl
  | handleNext k =>
    simp only [Service.step, Service.handleNext] at hstep
    split at hstep
    · obtain ⟨r, hr, rfl⟩ := Option.map_eq_some_iff.mp hstep
      exact cancelNext hr
    · exact absurd hstep (by simp)
  | sweepNext k =>
    cases sweepNext_move hstep with
    | counts | picks | ends | announces => exact of_eq rfl
    | cancels pending c report hk r hr => exact cancelNext hr
  | await | awaitNext k | awaitDrop k | isTerminated | queryNext k =>
    obtain ⟨c, -, rfl⟩ := step_turn rfl hstep
    exact of_eq rfl

end Evolved

/-- **Where nothing is open and the flag is set, nothing is started any more.** -/
theorem started_of_later {u : Service R E W} (hs : (machine R E W).Reach s)
    (hshutdown : s.shutdown = true) (hclosed : ∀ i, openAt s.tasks i = false)
    (hu : (machine R E W).Later s u) :
    u.tasks.map (fun t => t.cell.started) = s.tasks.map fun t => t.cell.started := by
  refine (hu.invariant (I := fun u => u.shutdown = true ∧ (∀ i, openAt u.tasks i = false) ∧
    u.tasks.map (fun t => t.cell.started) = s.tasks.map fun t => t.cell.started) hs
    ?_ ⟨hshutdown, hclosed, rfl⟩).2.2
  rintro v a v' hv ⟨hset, hnone, hsame⟩ hstep
  have hending := step_ending (admitting_of_reach hv) hstep
  have hevolved := Evolved.step (sound_of_reach hv) hstep
  have hlength := hending.frozen hset
  refine ⟨hending.advance.shutdown hset, fun i => ?_, ?_⟩
  · cases hi : v.tasks[i]? with
    | none =>
      have hnone' : v'.tasks[i]? = none := by
        rw [List.getElem?_eq_none_iff] at hi ⊢
        omega
      simp [openAt, hnone']
    | some t =>
      obtain ⟨t', ht', hmay⟩ := hevolved i t hi
      have hold := hnone i
      rw [openAt, hi, Option.any_some] at hold
      rw [openAt, ht', Option.any_some]
      by_contra hopen
      rw [Bool.not_eq_false] at hopen
      exact Bool.false_ne_true (hold.symm.trans (hmay.isOpen hopen))
  · rw [← hsame]
    refine List.ext_getElem? fun i => ?_
    rw [List.getElem?_map, List.getElem?_map]
    cases hi : v.tasks[i]? with
    | none =>
      have hnone' : v'.tasks[i]? = none := by
        rw [List.getElem?_eq_none_iff] at hi ⊢
        omega
      rw [hnone']
    | some t =>
      obtain ⟨t', ht', hmay⟩ := hevolved i t hi
      have hold := hnone i
      rw [openAt, hi, Option.any_some] at hold
      rw [ht', Option.map_some, Option.map_some, hmay.started hold]

/-! ### What `shutdown_now` settles -/

/-- Whether a holder of the submission lock is a `shutdown_now`. -/
def Holder.isShutdownNow : Holder → Bool
  | shutdownNowStoring | shutdownNowCounting | shutdownNowReading _ | shutdownNowDraining _ _
  | shutdownNowReleasing _ _ _ => true
  | _ => false

/-- Some `shutdown_now` has returned, and none is in progress. -/
structure Service.Quiet (s : Service R E W) : Prop where
  /-- There was one. -/
  any : s.sweeps ≠ []
  /-- All that have released the submission lock have returned. -/
  all : ∀ w ∈ s.sweeps, ∃ report, w = .returned report
  /-- None holds the submission lock. -/
  lock : ∀ h, s.submissionLock = some h → h.isShutdownNow = false

/-- **What `shutdown_now` has settled**, given the tasks counted so far, each with the call
that has counted it. -/
structure Settled (s : Service R E W) (log : List (ℕ × ℕ)) : Prop where
  /-- A report does not say that more tasks were cancelled than were queued. -/
  within : ∀ report, .returned report ∈ s.sweeps → report.cancelled ≤ report.queued
  /-- What a report says was cancelled is the number of tasks the call has counted. -/
  counted : ∀ (k : ℕ) report, s.sweeps[k]? = some (.returned report) →
    report.cancelled = (log.map Prod.fst).count k
  /-- A task that was counted delivers that it was cancelled, and its closure has not come to
  the callable, nor ever will. -/
  cancelled : ∀ k i, (k, i) ∈ log → ∃ t, s.tasks[i]? = some t ∧
    t.cell.take.1 = .result (.error .cancelled) ∧
      (t.run = .unspawned ∨ t.run = .spawned ∨ t.run = .skipped) ∧ t.cell.completed = true
  /-- No task is counted twice. -/
  once : (log.map Prod.snd).Nodup
  /-- No task is counted that a handle was told to have cancelled. -/
  exclusive : ∀ k i, (k, i) ∈ log → ⟨i, .returned true⟩ ∉ s.cancels
  /-- Once no `shutdown_now` is in progress any more, each task was started or delivers that it
  was cancelled. -/
  settled : s.Quiet → ∀ t ∈ s.tasks,
    t.cell.started = true ∨ t.cell.take.1 = .result (.error .cancelled)

/-- A task that was cancelled delivers that it was, to whoever takes its result. -/
theorem Raced.take {log : List (ℕ × ℕ)} (h : Raced s log) {t : Task R E W} (ht : t ∈ s.tasks)
    (hcancelled : t.isCancelled = true) : t.cell.take.1 = .result (.error .cancelled) := by
  have hresult := h.delivers t ht hcancelled
  rw [Task.isCancelled, Bool.and_eq_true] at hcancelled
  rw [TaskHandleInner.take, if_pos hcancelled.1, hresult]

/-- Where no `shutdown_now` is in progress any more, no task is open. -/
theorem not_open_of_quiet {log : List (ℕ × ℕ)} (hfound : Found s) (hreporting : Reporting s log)
    (hquiet : s.Quiet) (i : ℕ) : openAt s.tasks i = false := by
  obtain ⟨hshutdown, hempty⟩ := hreporting.empty (Or.inl hquiet.any)
  by_contra hopen
  rw [Bool.not_eq_false] at hopen
  rcases hfound i hopen with hmap | ⟨h, hlock, hhas⟩ | ⟨w, hw, hhas⟩
  · rw [hempty] at hmap
    exact absurd hmap (by simp)
  · have hnot := hquiet.lock h hlock
    have hflag := hreporting.flag h hlock
    -- a submission past its number has found the flag unset
    rcases hhas with ⟨htask, -⟩ | hdrained
    · have hunset : h.flag = some false := by
        cases h <;> first | rfl | exact absurd htask (by simp [Holder.task])
      exact Bool.false_ne_true ((hflag false hunset).symm.trans hshutdown)
    · cases h with
      | shutdownNowReleasing pending queued running => exact Bool.false_ne_true hnot.symm
      | _ => exact absurd hdrained (by simp [Holder.drained])
  · obtain ⟨report, rfl⟩ := hquiet.all w hw
    exact absurd hhas (by simp [Sweep.has, Sweep.pending, Sweep.current])

/-- Over every run, open tasks are found and the reports are right. -/
theorem reporting_of_reach {t : Service R E W × List (ℕ × ℕ)} (ht : (counted R E W).Reach t) :
    Raced t.1 t.2 ∧ Found t.1 ∧ Reporting t.1 t.2 := by
  refine (Machine.observe_invariant (M := machine R E W) (p := fun _ _ => True)
    (I := fun s log => Raced s log ∧ Found s ∧ Reporting s log) ?_ ?_ ht).2
  · rintro s rfl
    refine ⟨⟨fun i => rfl, by simp [Service.new]⟩, fun i hi => ?_, ?_⟩
    · simp [openAt, Service.new] at hi
    · exact
        { flag := by simp [Service.new]
          empty := by simp [Service.new]
          nodup := List.nodup_nil
          read := by simp [Service.new]
          within := by simp [Service.new]
          counted := fun k => rfl }
  · rintro s a s' log hs ⟨hraced, hfound, hreporting⟩ - hstep
    have hsound := sound_of_reach hs
    exact ⟨hraced.step hsound hstep, hfound.step hsound hraced hstep, hreporting.step hs hstep⟩

/-- **`shutdown_now` settles every task**, in every run, with any number of calls of it and of
handles that cancel: a report never says that more tasks were cancelled than were queued, each
task is counted by one call at most and by none if a handle has cancelled it, and what was
counted stays counted. Once no call is in progress any more, every task was started or delivers
that it was cancelled, and nothing is started after that. -/
theorem settled_of_reach {t : Service R E W × List (ℕ × ℕ)} (ht : (counted R E W).Reach t) :
    Settled t.1 t.2 ∧ (∀ u, (counted R E W).Later t u → t.2 <+: u.2) ∧
      (t.1.Quiet → ∀ u, (counted R E W).Later t u →
        u.1.tasks.map (fun t => t.cell.started) = t.1.tasks.map fun t => t.cell.started) := by
  obtain ⟨hs, -⟩ := raced_of_reach ht
  obtain ⟨hraced, hfound, hreporting⟩ := reporting_of_reach ht
  have hsound := sound_of_reach hs
  have hcount : ∀ k i, (k, i) ∈ t.2 → 0 < (t.2.map Prod.snd).count i :=
    fun k i hmem => List.count_pos_iff.mpr (List.mem_map.mpr ⟨_, hmem, rfl⟩)
  refine ⟨?_, fun u hu => (Machine.observe_later hu).2, fun hquiet u hu => ?_⟩
  · refine
      { within := fun report hreport => ?_
        counted := fun k report hk => ?_
        cancelled := fun k i hmem => ?_
        once := List.nodup_iff_count_le_one.mpr fun i => ?_
        exclusive := fun k i hmem hhandle => ?_
        settled := fun hquiet u hu => ?_ }
    · have hle := hreporting.within _ hreport
      simp only [Sweep.report] at hle
      omega
    · have hcounted := hreporting.counted k
      rw [hk, Option.elim_some] at hcounted
      exact hcounted
    · -- who counts a task has won it, and nobody wins a task that is not cancelled by that
      have hwinner := hraced.winner i
      have hpos := hcount k i hmem
      cases hi : t.1.tasks[i]? with
      | none =>
        simp only [cancelledAt, hi, Option.any_none, Bool.toNat_false] at hwinner
        omega
      | some u =>
        have hcancelled : u.isCancelled = true := by
          by_contra hnot
          rw [Bool.not_eq_true] at hnot
          simp only [cancelledAt, hi, Option.any_some, hnot, Bool.toNat_false] at hwinner
          omega
        have hmem : u ∈ t.1.tasks := List.mem_of_getElem? hi
        refine ⟨u, rfl, hraced.take hmem hcancelled, ?_⟩
        rw [Task.isCancelled, Bool.and_eq_true, Bool.not_eq_true'] at hcancelled
        obtain ⟨-, hcell⟩ := hsound.agrees u hmem
        refine ⟨?_, hcancelled.1⟩
        generalize u.run = run at hcell
        cases run <;> simp_all
    · have hwinner := hraced.winner i
      have hle := Bool.toNat_le (cancelledAt t.1.tasks i)
      omega
    · -- the handle and the call would both have won
      have hwinner := hraced.winner i
      have hpos := hcount k i hmem
      have hwins : 0 < wins t.1.cancelCalls i :=
        List.countP_pos_iff.mpr ⟨_, List.mem_append_left _ hhandle, by simp [CancelPhase.won]⟩
      have hle := Bool.toNat_le (cancelledAt t.1.tasks i)
      omega
    · -- no task is open any more: it was started, or it was cancelled
      obtain ⟨i, hi⟩ := List.mem_iff_getElem?.mp hu
      have hclosed := not_open_of_quiet hfound hreporting hquiet i
      rw [openAt, hi, Option.any_some] at hclosed
      cases hstarted : u.cell.started with
      | true => exact Or.inl rfl
      | false =>
        refine Or.inr (hraced.take hu ?_)
        cases hcompleted : u.cell.completed with
        | true => rw [Task.isCancelled, hstarted, hcompleted]; rfl
        | false =>
          have hopen := Task.isOpen_iff.mpr ⟨hstarted, hcompleted⟩
          exact absurd (hclosed.symm.trans hopen) Bool.false_ne_true
  · exact started_of_later hs (hreporting.empty (Or.inl hquiet.any)).1
      (not_open_of_quiet hfound hreporting hquiet) (Machine.observe_later hu).1

/-- Two tasks, and two calls of `shutdown_now`: the first has drained both tasks when the handle
of the one cancels it, so it counts the other only, and the second call finds nothing. -/
theorem settled_of_reach_two : ∃ t : Service Unit Unit Unit × List (ℕ × ℕ),
    t.2 = [(0, 1)] ∧ t.1.sweeps = [.returned ⟨2, 0, 1⟩, .returned ⟨1, 0, 0⟩] ∧
      t.1.cancels = [⟨0, .returned true⟩] ∧ Settled t.1 t.2 := by
  obtain ⟨t, ht, hp⟩ := Machine.exists_reachVia_of_exec (M := counted Unit Unit Unit)
    (fun _ _ => True) (fun _ _ => true) (fun _ _ _ => trivial) (s := (.new, [])) ⟨rfl, rfl⟩
    (List.flatten [[.submit], List.replicate 6 (.holderNext []), [.spawn 0, .submit],
      List.replicate 6 (.holderNext []), [.spawn 1, .shutdownNow],
      List.replicate 3 (.holderNext []), [.holderNext [1, 0], .holderNext [], .cancel 0],
      List.replicate 4 (.handleNext 0), [.shutdownNow], List.replicate 5 (.holderNext []),
      List.replicate 16 (.sweepNext 0), List.replicate 4 (.sweepNext 1)])
    (fun t => decide (t.2 = [(0, 1)]) &&
      decide (t.1.sweeps = [.returned ⟨2, 0, 1⟩, .returned ⟨1, 0, 0⟩]) &&
      decide (t.1.cancels = [⟨0, .returned true⟩])) (by decide)
  simp only [Bool.and_eq_true, decide_eq_true_eq] at hp
  exact ⟨t, hp.1.1, hp.1.2, hp.2, (settled_of_reach ht).1⟩

end Rayon

end QubitConcurrent
