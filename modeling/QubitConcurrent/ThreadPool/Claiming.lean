import QubitConcurrent.ThreadPool.Decomposition

/-!
# Looking for work finds it

A worker looks into its own queue, then into those of the others, one after the other from where
the cursor points, and last into the global queue. Whatever the cursor says, the round of probes
visits every place (`QubitConcurrent.exists_offset`), so that `None` means that there is no work.

`QubitConcurrent.ThreadPool.tryTakeQueuedJobLocked` does not panic where the code would: it
computes a remainder by zero, and it passes over a place that is not there. Here are the same
functions with these panics in them – and with the loop of `steal_one`, which goes on as long as
the injector answers `Retry`. They compute the same, from any pool at all, so that no index is out
of range and no remainder is by zero.
-/

namespace QubitConcurrent

namespace ThreadPool

variable {Job : Type}

/-! ### With panics -/

/-- `a % b`. -/
def checkedRem (a b : ℕ) : PoolM Job ℕ :=
  if b = 0 then throw "attempt to calculate the remainder with a divisor of zero" else pure (a % b)

/-- `queues[slot]`. -/
def indexQueue (queues : List (WorkerQueue Job)) (slot : ℕ) : PoolM Job (WorkerQueue Job) :=
  match queues[slot]? with
  | some queue => pure queue
  | none => throw "index out of bounds"

/-- An answer of `Injector::steal`. -/
inductive Steal (Job : Type)
  /-- The oldest job, and the queue without it. -/
  | success (job : Job) (queue : WorkerQueue Job)
  /-- There is no job. -/
  | empty
  /-- Another thread was faster; the answer is to be asked for again. -/
  | retry

namespace WorkerQueue

/-- The answers of an injector that answers `Retry` so many times. -/
def answers (retries : ℕ) (q : WorkerQueue Job) : List (Steal Job) :=
  List.replicate retries .retry ++
    [match q.jobs with
      | [] => .empty
      | job :: jobs => .success job { q with jobs := jobs }]

/-- The loop of `steal_one`. -/
def stealLoop : List (Steal Job) → Option (Job × WorkerQueue Job)
  | [] => none
  | .success job queue :: _ => some (job, queue)
  | .empty :: _ => none
  | .retry :: answers => stealLoop answers

/-- However often the injector answers `Retry`, `steal_one` gets the oldest job. -/
theorem stealLoop_answers (retries : ℕ) (q : WorkerQueue Job) :
    stealLoop (q.answers retries) = q.stealOne := by
  induction retries with
  | zero =>
    obtain ⟨i, jobs⟩ := q
    cases jobs <;> rfl
  | succ n ih =>
    rw [answers, List.replicate_succ, List.cons_append, stealLoop]
    exact ih

end WorkerQueue

/-- `try_enqueue_worker_job_locked`. -/
def tryEnqueueWorkerJobPanicking (job : Job) : PoolM Job Bool := do
  if (← get).workerQueues.isEmpty then
    return false
  let start ← fetchAddCursor
  let queues := (← get).workerQueues
  let slot ← checkedRem start queues.length
  let queue ← indexQueue queues slot
  modify fun s => { s with workerQueues := queues.set slot (queue.pushBack job) }
  return true

/-- `worker_queue.pop_front()`. -/
def popOwnRetrying (retries : ℕ) (workerIndex : ℕ) :
    List (WorkerQueue Job) → Option (Job × List (WorkerQueue Job))
  | [] => none
  | q :: queues =>
    if q.workerIndex = workerIndex then
      (WorkerQueue.stealLoop (q.answers retries)).map fun (job, q') => (job, q' :: queues)
    else
      (popOwnRetrying retries workerIndex queues).map fun (job, queues') => (job, q :: queues')

/-- The probing loop of `try_steal_job_locked`. -/
def probeVictimsPanicking (retries : ℕ → ℕ) (workerIndex start queueCount : ℕ) :
    List ℕ → PoolM Job (Option Job)
  | [] => return none
  | offset :: offsets => do
    let queues := (← get).workerQueues
    let slot ← checkedRem (start + offset) queueCount
    let victim ← indexQueue queues slot
    if victim.workerIndex = workerIndex then
      probeVictimsPanicking retries workerIndex start queueCount offsets
    else
      match WorkerQueue.stealLoop (victim.answers (retries slot)) with
      | some (job, victim') =>
        modify fun s => { s with workerQueues := queues.set slot victim' }
        return some job
      | none => probeVictimsPanicking retries workerIndex start queueCount offsets

/-- `try_steal_job_locked`. -/
def tryStealJobPanicking (retries : ℕ → ℕ) (workerIndex : ℕ) : PoolM Job (Option Job) := do
  let queueCount := (← get).workerQueues.length
  if queueCount ≤ 1 then
    return none
  let start ← checkedRem (← fetchAddCursor) queueCount
  probeVictimsPanicking retries workerIndex start queueCount (List.range queueCount)

/-- `try_take_queued_job_locked`; the injectors answer `Retry` so many times to the owner, and to
whoever probes a slot. -/
def tryTakeQueuedJobPanicking (own : ℕ) (retries : ℕ → ℕ) (workerIndex : ℕ) :
    PoolM Job (Option Job) := do
  if (← get).state.queueCapacity.isSome then
    match popOwnRetrying own workerIndex (← get).workerQueues with
    | some (job, queues) =>
      modify fun s => { s with workerQueues := queues }
      accountClaim
      return some job
    | none =>
      if let some job ← tryStealJobPanicking retries workerIndex then
        accountClaim
        return some job
  match (← get).state.queue with
  | job :: queue =>
    modifyState fun st => { st with queue := queue }
    accountClaim
    return some job
  | [] => return none

/-! ### No panic happens -/

@[simp] theorem checkedRem_run {a b : ℕ} (h : 0 < b) (s : Pool Job) :
    (checkedRem a b).run s = .ok (a % b) s := by
  rw [checkedRem, if_neg h.ne']
  rfl

/-- A place that is there is found there. -/
theorem indexQueue_run {queues : List (WorkerQueue Job)} {slot : ℕ} {queue : WorkerQueue Job}
    (h : queues[slot]? = some queue) (s : Pool Job) :
    (indexQueue queues slot).run s = .ok queue s := by
  rw [indexQueue, h]
  rfl

/-- The remainder of a division by the number of queues is the place of one. -/
theorem exists_index (a : ℕ) {queues : List (WorkerQueue Job)} (h : 0 < queues.length) :
    ∃ queue, queues[a % queues.length]? = some queue :=
  ⟨_, List.getElem?_eq_getElem (Nat.mod_lt a h)⟩

/-- **Enqueueing does not panic.** -/
theorem tryEnqueueWorkerJobPanicking_run (job : Job) (s : Pool Job) :
    (tryEnqueueWorkerJobPanicking job).run s = (tryEnqueueWorkerJobLocked job).run s := by
  by_cases hempty : s.workerQueues = []
  · simp [tryEnqueueWorkerJobPanicking, tryEnqueueWorkerJobLocked, hempty]
  · have hpos : 0 < s.workerQueues.length := List.length_pos_iff.mpr hempty
    obtain ⟨queue, hqueue⟩ := exists_index s.nextEnqueueWorker hpos
    have hmodify : s.workerQueues.modify (s.nextEnqueueWorker % s.workerQueues.length)
        (·.pushBack job) =
        s.workerQueues.set (s.nextEnqueueWorker % s.workerQueues.length) (queue.pushBack job) := by
      rw [List.modify_eq_set_getElem?, hqueue]
      rfl
    simp [tryEnqueueWorkerJobPanicking, tryEnqueueWorkerJobLocked, hempty, fetchAddCursor, hpos,
      indexQueue_run hqueue, hmodify]

/-- The owner gets its oldest job. -/
theorem popOwnRetrying_eq (retries workerIndex : ℕ) (queues : List (WorkerQueue Job)) :
    popOwnRetrying retries workerIndex queues = popOwn workerIndex queues := by
  induction queues with
  | nil => rfl
  | cons q queues ih => rw [popOwnRetrying, popOwn, WorkerQueue.stealLoop_answers, ih]

/-- **Probing does not panic.** -/
theorem probeVictimsPanicking_run (retries : ℕ → ℕ) (workerIndex start : ℕ) {s : Pool Job}
    (hpos : 0 < s.workerQueues.length) (offsets : List ℕ) :
    (probeVictimsPanicking retries workerIndex start s.workerQueues.length offsets).run s =
      match probeVictims workerIndex start s.workerQueues offsets with
      | none => .ok none s
      | some (job, queues) => .ok (some job) { s with workerQueues := queues } := by
  induction offsets with
  | nil => rfl
  | cons offset offsets ih =>
    obtain ⟨victim, hvictim⟩ := exists_index (start + offset) hpos
    by_cases hown : victim.workerIndex = workerIndex
    · simp [probeVictimsPanicking, probeVictims, hpos, indexQueue_run hvictim, hvictim, hown, ih]
    · cases hsteal : victim.stealOne with
      | none =>
        simp [probeVictimsPanicking, probeVictims, hpos, indexQueue_run hvictim, hvictim, hown,
          WorkerQueue.stealLoop_answers, hsteal, ih]
      | some taken =>
        simp [probeVictimsPanicking, probeVictims, hpos, indexQueue_run hvictim, hvictim, hown,
          WorkerQueue.stealLoop_answers, hsteal]

/-- **Stealing does not panic.** -/
theorem tryStealJobPanicking_run (retries : ℕ → ℕ) (workerIndex : ℕ) (s : Pool Job) :
    (tryStealJobPanicking retries workerIndex).run s = (tryStealJobLocked workerIndex).run s := by
  by_cases hlen : s.workerQueues.length ≤ 1
  · simp [tryStealJobPanicking, tryStealJobLocked, hlen]
  · have hpos : 0 < s.workerQueues.length := by omega
    have hprobe := probeVictimsPanicking_run retries workerIndex
      (s.nextEnqueueWorker % s.workerQueues.length)
      (s := { s with nextEnqueueWorker := (s.nextEnqueueWorker + 1) % usizeModulus }) hpos
      (List.range s.workerQueues.length)
    cases hvictims : probeVictims workerIndex (s.nextEnqueueWorker % s.workerQueues.length)
        s.workerQueues (List.range s.workerQueues.length) with
    | none =>
      simp only [hvictims] at hprobe
      simp [tryStealJobPanicking, tryStealJobLocked, hlen, fetchAddCursor, hpos, hvictims, hprobe]
    | some taken =>
      simp only [hvictims] at hprobe
      simp [tryStealJobPanicking, tryStealJobLocked, hlen, fetchAddCursor, hpos, hvictims, hprobe]

/-- **Looking for work does not panic**, but where the counter of queued jobs would underflow. -/
theorem tryTakeQueuedJobPanicking_run (own : ℕ) (retries : ℕ → ℕ) (workerIndex : ℕ)
    (s : Pool Job) :
    (tryTakeQueuedJobPanicking own retries workerIndex).run s =
      (tryTakeQueuedJobLocked workerIndex).run s := by
  have hsteal : tryStealJobPanicking retries workerIndex =
      (tryStealJobLocked workerIndex : PoolM Job (Option Job)) :=
    funext fun s => tryStealJobPanicking_run retries workerIndex s
  simp only [tryTakeQueuedJobPanicking, popOwnRetrying_eq, hsteal]
  rfl

/-! ### What looking for work finds -/

section Machine

variable [DecidableEq Job] {s : Pool Job}

/-- **Claiming finds work whenever there is work.** Take any reachable pool, any worker that has
not left, any value of the cursor, and any numbers of `Retry` answers. Looking for a job finds none
exactly if no queue has one, and then only the cursor has moved. If it finds one, that was the
oldest of exactly one queue and is taken out there, the rest stays where it is, one job less is
counted as queued and one more as running. And it panics nowhere: neither here, nor where a
submission puts a job into a local queue, is an index out of range or a remainder by zero. -/
theorem claiming_finds_work (hs : (machine Job).Reach s) {w : Worker Job} (hw : w ∈ s.workers)
    (hlive : w.phase.isLive = true) (cursor own : ℕ) (retries : ℕ → ℕ) :
    (∃ found s',
      (tryTakeQueuedJobPanicking own retries w.index).run { s with nextEnqueueWorker := cursor } =
        .ok found s' ∧
      (found = none ↔ s.state.queue = [] ∧ ∀ q ∈ s.workerQueues, q.jobs = []) ∧
      (found = none → ∃ c, s' = { s with nextEnqueueWorker := c }) ∧
      ∀ job, found = some job →
        0 < s.state.queuedTasks ∧
        ((∃ c js, s.state.queue = job :: js ∧ s' = { s with
            state := { s.state with queue := js, queuedTasks := s.state.queuedTasks - 1
                                    runningTasks := s.state.runningTasks + 1 }
            nextEnqueueWorker := c }) ∨
          ∃ c q₁ q₂ v js, s.workerQueues = q₁ ++ ⟨v, job :: js⟩ :: q₂ ∧ s' = { s with
            state := { s.state with queuedTasks := s.state.queuedTasks - 1
                                    runningTasks := s.state.runningTasks + 1 }
            workerQueues := q₁ ++ ⟨v, js⟩ :: q₂
            nextEnqueueWorker := c })) ∧
    ∀ job, ∃ accepted s',
      (tryEnqueueWorkerJobPanicking job).run { s with nextEnqueueWorker := cursor } =
        .ok accepted s' := by
  have hok := ((wf_of_reach hs).queuesOk hw hlive).moveCursor cursor
  have hqueued : s.state.queuedTasks = s.queuedJobs.length := hok.queued
  have hnil : s.queuedJobs = [] ↔ s.state.queue = [] ∧ ∀ q ∈ s.workerQueues, q.jobs = [] := by
    rw [Pool.queuedJobs, List.append_eq_nil_iff, List.flatMap_eq_nil_iff]
  constructor
  · rw [tryTakeQueuedJobPanicking_run]
    rcases tryTakeQueuedJobLocked_run hok with ⟨c, hrun, hnone⟩ | ⟨c, j, js, hrun, hqueue⟩ |
      ⟨c, q₁, v, j, js, q₂, hrun, hqueues⟩
    · exact ⟨none, _, hrun, iff_of_true rfl (hnil.mp hnone), fun _ => ⟨c, rfl⟩, by simp⟩
    · have hqueue' : s.state.queue = j :: js := hqueue
      refine ⟨some j, _, hrun, iff_of_false (by simp) ?_, by simp, ?_⟩
      · rintro ⟨hempty, -⟩
        rw [hqueue'] at hempty
        cases hempty
      · rintro job ⟨⟩
        refine ⟨?_, Or.inl ⟨c, js, hqueue', rfl⟩⟩
        rw [hqueued, Pool.queuedJobs, hqueue']
        exact Nat.succ_pos _
    · have hqueues' : s.workerQueues = q₁ ++ ⟨v, j :: js⟩ :: q₂ := hqueues
      have hmem : (⟨v, j :: js⟩ : WorkerQueue Job) ∈ s.workerQueues := by
        rw [hqueues']
        exact List.mem_append_right _ (List.mem_cons_self ..)
      refine ⟨some j, _, hrun, iff_of_false (by simp) ?_, by simp, ?_⟩
      · rintro ⟨-, hempty⟩
        cases hempty _ hmem
      · rintro job ⟨⟩
        refine ⟨?_, Or.inr ⟨c, q₁, q₂, v, js, hqueues', rfl⟩⟩
        rw [hqueued]
        refine List.length_pos_of_mem (a := j) ?_
        exact List.mem_append_right _ (List.mem_flatMap.mpr ⟨_, hmem, List.mem_cons_self ..⟩)
  · intro job
    rw [tryEnqueueWorkerJobPanicking_run, tryEnqueueWorkerJobLocked]
    by_cases hempty : s.workerQueues = []
    · exact ⟨false, _, by simp [hempty]; rfl⟩
    · exact ⟨true, _, by simp [hempty, fetchAddCursor]; rfl⟩

end Machine

/-- A bounded pool of two workers. -/
def boundedBuilder : ThreadPoolBuilder :=
  { (ThreadPoolBuilder.default none).poolSize 2 with queueCapacity := some 2 }

/-- A worker with nothing of its own to do steals, with the cursor at its largest value. -/
theorem claiming_finds_work_stolen :
    ∃ s : Pool ℕ, s.state.queue = [] ∧ ∃ s',
      (tryTakeQueuedJobPanicking 0 (fun _ => 3) 1).run
        { s with nextEnqueueWorker := 2 ^ 64 - 1 } = .ok (some 2) s' := by
  obtain ⟨s, hs, hp⟩ := Machine.exists_reachVia_of_exec (M := machine ℕ) (fun _ _ => True)
    (fun _ _ => true) (fun _ _ _ => trivial) ⟨boundedBuilder, rfl⟩
    [.submit 0 .ok, .submit 1 .ok, .submit 2 .ok, .invokeRun 1, .runReturns 1,
      .finishRunningJob 1]
    (fun s => decide (s.state.queue = [] ∧ s.workerQueues = [⟨0, [2]⟩, ⟨1, []⟩]) &&
      (s.workers[1]?).any fun w : Worker ℕ => decide (w.index = 1) && w.phase.isLive) (by decide)
  simp only [Bool.and_eq_true, decide_eq_true_eq, Option.any_eq_true] at hp
  obtain ⟨⟨hqueue, hqueues⟩, w, hw, hindex, hlive⟩ := hp
  obtain ⟨⟨found, s', hrun, hnone, -, hsome⟩, -⟩ :=
    claiming_finds_work hs (List.mem_of_getElem? hw) hlive (2 ^ 64 - 1) 0 fun _ => 3
  rw [hindex] at hrun
  refine ⟨s, hqueue, s', ?_⟩
  cases found with
  | none => simpa [hqueues] using (hnone.mp rfl).2
  | some job =>
    obtain ⟨-, ⟨c, js, hglobal, -⟩ | ⟨c, q₁, q₂, v, js, hlocal, -⟩⟩ := hsome job rfl
    · rw [hqueue] at hglobal
      cases hglobal
    · have hmem : (⟨v, job :: js⟩ : WorkerQueue ℕ) ∈ s.workerQueues := by
        rw [hlocal]
        exact List.mem_append_right _ (List.mem_cons_self ..)
      have hjob : job = 2 := by
        rw [hqueues] at hmem
        simp only [List.mem_cons, WorkerQueue.mk.injEq, List.cons.injEq, List.not_mem_nil,
          reduceCtorEq, and_false, or_false] at hmem
        exact hmem.2.1
      rw [hrun, hjob]

end ThreadPool

end QubitConcurrent
