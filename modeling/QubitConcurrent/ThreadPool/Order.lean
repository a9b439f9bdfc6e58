import QubitConcurrent.ThreadPool.Jobs
import QubitConcurrent.ThreadPool.Sizing

/-!
# In which order jobs are taken

A job that is accepted is handed to a new worker, put into the global queue, or put into the
local queue of some worker. What is in a queue is taken by workers or withdrawn by a
`shutdown_now`, and the order in which that happens is the subject here.

* Without a capacity the local queues stay empty, and whatever was put into the global queue
  comes out of it in the same order: the jobs taken so far, those still queued and those
  withdrawn are, read one after the other, the jobs that were queued
  (`QubitConcurrent.ThreadPool.unbounded_fifo`).
* With a capacity the queue a job goes to depends on whether some worker is parked, and a
  worker looks at local queues before the global one. A job in the global queue is then
  overtaken by those that went to a local queue after it
  (`QubitConcurrent.ThreadPool.single_worker_order`), any number of times unless there is
  room for one job only (`QubitConcurrent.ThreadPool.overtaking_bounded_iff`).

What an effect that accepts nothing can do to the order of jobs is little
(`QubitConcurrent.ThreadPool.Passage`), and it is said once for all of these.
-/

namespace QubitConcurrent

namespace ThreadPool

variable {Job : Type} {m : Mode} {s s' : Pool Job}

/-! ### Withdrawn jobs -/

/-- The jobs that were taken out of the queues to be cancelled, in that order. -/
def Pool.withdrawnJobs (s : Pool Job) : List Job := s.ledger.cancelReturned ++ s.drainedJobs

/-- The jobs waiting in local queues. -/
def Pool.localJobs (s : Pool Job) : List Job := s.workerQueues.flatMap WorkerQueue.jobs

/-- The job the worker is about to run. -/
def WorkerPhase.upcoming : WorkerPhase Job → List Job
  | holding job => [job]
  | _ => []

/-- The jobs workers are about to run. -/
def Pool.upcomingJobs (s : Pool Job) : List Job := s.workers.flatMap fun w => w.phase.upcoming

@[simp] theorem WorkerPhase.upcoming_wake (p : WorkerPhase Job) :
    p.wake.upcoming = p.upcoming := by
  cases p with
  | waiting timeout wake => cases wake <;> rfl
  | _ => rfl

@[simp] theorem Pool.upcomingJobs_wakeAll (s : Pool Job) :
    s.wakeAll.upcomingJobs = s.upcomingJobs := by
  simp [upcomingJobs, List.flatMap_map]

@[simp] theorem Pool.withdrawnJobs_wakeAll (s : Pool Job) :
    s.wakeAll.withdrawnJobs = s.withdrawnJobs := by
  simp [withdrawnJobs]

/-- A new worker is about to run its first task. -/
theorem Pool.upcomingJobs_spawned (firstTask : Option Job) (s : Pool Job) :
    (s.spawned firstTask).upcomingJobs = s.upcomingJobs ++ firstTask.toList := by
  cases firstTask <;> simp [spawned, upcomingJobs, WorkerPhase.upcoming]

/-- A worker whose creation has panicked runs nothing. -/
@[simp] theorem Pool.upcomingJobs_stillborn (firstTask : Option Job) (s : Pool Job) :
    (s.stillborn firstTask).upcomingJobs = s.upcomingJobs := by
  simp [stillborn, upcomingJobs, WorkerPhase.upcoming]

/-- A new worker starts with an empty queue. -/
@[simp] theorem Pool.localJobs_spawned (firstTask : Option Job) (s : Pool Job) :
    (s.spawned firstTask).localJobs = s.localJobs := by
  simp [spawned, localJobs]

/-- A worker moves on and is about to run what it was about to run. -/
theorem Pool.upcomingJobs_replace {t : Pool Job} {l₁ l₂ : List (Worker Job)} {w : Worker Job}
    {p : WorkerPhase Job} (hw : s.workers = l₁ ++ w :: l₂)
    (ht : t.workers = l₁ ++ { w with phase := p } :: l₂) (hp : p.upcoming = w.phase.upcoming) :
    t.upcomingJobs = s.upcomingJobs := by
  simp [upcomingJobs, hw, ht, hp]

/-- A call is made that has drained nothing. -/
theorem Pool.withdrawnJobs_append {t : Pool Job} {c : Call Job}
    (hcancelled : t.ledger.cancelReturned = s.ledger.cancelReturned)
    (ht : t.calls = s.calls ++ [c]) (hc : c.drained = []) :
    t.withdrawnJobs = s.withdrawnJobs := by
  rw [withdrawnJobs, hcancelled, drainedJobs_append ht hc]
  rfl

/-- A call moves on and keeps what it has drained. -/
theorem Pool.withdrawnJobs_replace {t : Pool Job} {c₁ c₂ : List (Call Job)} {c c' : Call Job}
    (hcancelled : t.ledger.cancelReturned = s.ledger.cancelReturned)
    (hs : s.calls = c₁ ++ c :: c₂) (ht : t.calls = c₁ ++ c' :: c₂)
    (hc : c'.drained = c.drained) : t.withdrawnJobs = s.withdrawnJobs := by
  rw [withdrawnJobs, hcancelled, drainedJobs_replace hs ht hc]
  rfl

/-- **Jobs are withdrawn once**: not before the pool is stopping, and by one call only. -/
structure WithdrawnOnce (s : Pool Job) : Prop where
  /-- Nothing is withdrawn from a pool that is not stopping. -/
  early : s.state.lifecycle ≠ .stopping → s.withdrawnJobs = []
  /-- At most one call has drained anything. -/
  single : s.calls.Pairwise fun c d => c.drained = [] ∨ d.drained = []

namespace WithdrawnOnce

/-- The calls in progress change, and nothing is withdrawn. -/
theorem of_kept (h : WithdrawnOnce s) {t : Pool Job}
    (hlife : s.state.lifecycle = .stopping → t.state.lifecycle = .stopping)
    (hwithdrawn : t.withdrawnJobs = s.withdrawnJobs)
    (hsingle : t.calls.Pairwise fun c d => c.drained = [] ∨ d.drained = []) :
    WithdrawnOnce t where
  early hnot := by
    rw [hwithdrawn]
    exact h.early fun hstop => hnot (hlife hstop)
  single := hsingle

/-- A call is made that has drained nothing. -/
theorem of_append (h : WithdrawnOnce s) {t : Pool Job} {c : Call Job}
    (hlife : s.state.lifecycle = .stopping → t.state.lifecycle = .stopping)
    (hcancelled : t.ledger.cancelReturned = s.ledger.cancelReturned)
    (ht : t.calls = s.calls ++ [c]) (hc : c.drained = []) : WithdrawnOnce t := by
  refine h.of_kept hlife (Pool.withdrawnJobs_append hcancelled ht hc) ?_
  rw [ht, List.pairwise_append]
  refine ⟨h.single, List.pairwise_singleton _ _, fun d _ e he => Or.inr ?_⟩
  rw [List.mem_singleton.mp he, hc]

/-- A call moves on with the jobs it has drained, and nobody else has drained any if it has. -/
theorem pairwise_replace (h : WithdrawnOnce s) {c₁ c₂ : List (Call Job)} {c c' : Call Job}
    (hs : s.calls = c₁ ++ c :: c₂) (hc : c.drained = [] → c'.drained = []) :
    (c₁ ++ c' :: c₂).Pairwise fun c d => c.drained = [] ∨ d.drained = [] := by
  have hsingle := h.single
  rw [hs, List.pairwise_append, List.pairwise_cons] at hsingle
  obtain ⟨h₁, ⟨hright, h₂⟩, hacross⟩ := hsingle
  rw [List.pairwise_append, List.pairwise_cons]
  refine ⟨h₁, ⟨fun d hd => (hright d hd).imp_left hc, h₂⟩, fun d hd e he => ?_⟩
  rcases List.mem_cons.mp he with rfl | hmem
  · exact (hacross d hd c (List.mem_cons_self ..)).imp_right hc
  · exact hacross d hd e (List.mem_cons_of_mem _ hmem)

/-- A call moves on and keeps what it has drained. -/
theorem of_replace (h : WithdrawnOnce s) {t : Pool Job} {c₁ c₂ : List (Call Job)}
    {c c' : Call Job} (hlife : t.state.lifecycle = s.state.lifecycle)
    (hcancelled : t.ledger.cancelReturned = s.ledger.cancelReturned)
    (hs : s.calls = c₁ ++ c :: c₂) (ht : t.calls = c₁ ++ c' :: c₂)
    (hc : c'.drained = c.drained) : WithdrawnOnce t := by
  refine h.of_kept (fun hstop => hlife ▸ hstop)
    (Pool.withdrawnJobs_replace hcancelled hs ht hc) ?_
  rw [ht]
  exact h.pairwise_replace hs fun hnil => hc ▸ hnil

/-- Where one call has drained something, what is drained is what that call has drained. -/
theorem drainedJobs_eq (h : WithdrawnOnce s) {c₁ c₂ : List (Call Job)} {c : Call Job}
    (hs : s.calls = c₁ ++ c :: c₂) (hc : c.drained ≠ []) :
    c₁.flatMap Call.drained = [] ∧ c₂.flatMap Call.drained = [] := by
  have hsingle := h.single
  rw [hs, List.pairwise_append, List.pairwise_cons] at hsingle
  obtain ⟨-, ⟨hright, -⟩, hacross⟩ := hsingle
  constructor
  · refine List.flatMap_eq_nil_iff.mpr fun d hd => ?_
    exact (hacross d hd c (List.mem_cons_self ..)).resolve_right hc
  · exact List.flatMap_eq_nil_iff.mpr fun d hd => (hright d hd).resolve_left hc

/-- **A cancel callback that returns leaves the withdrawn jobs in their order.** -/
theorem withdrawnJobs_cancelReturned (h : WithdrawnOnce s) {c₁ c₂ : List (Call Job)} {job : Job}
    {jobs : List Job} {report : ShutdownReport}
    (hs : s.calls = c₁ ++ .shutdownNow jobs (some job) report :: c₂) {t : Pool Job}
    (ht : t.calls = c₁ ++ .shutdownNow jobs none report :: c₂)
    (hcancelled : t.ledger.cancelReturned = s.ledger.cancelReturned ++ [job]) :
    t.withdrawnJobs = s.withdrawnJobs := by
  obtain ⟨hleft, hright⟩ := h.drainedJobs_eq hs (by simp [Call.drained])
  simp [Pool.withdrawnJobs, Pool.drainedJobs, hs, ht, hcancelled, hleft, hright, Call.drained]

/-- Waking everybody up withdraws nothing. -/
theorem wakeAll (h : WithdrawnOnce s) : WithdrawnOnce s.wakeAll := by
  refine h.of_kept id (Pool.withdrawnJobs_wakeAll s) ?_
  rw [Pool.wakeAll_calls, List.pairwise_map]
  simpa using h.single

/-- No call has drained anything from a pool that is not stopping. -/
theorem drained_eq_nil (h : WithdrawnOnce s) (hlife : s.state.lifecycle ≠ .stopping) {c : Call Job}
    (hc : c ∈ s.calls) : c.drained = [] := by
  have hnil := (List.append_eq_nil_iff.mp (h.early hlife)).2
  exact List.flatMap_eq_nil_iff.mp hnil c hc

/-- The queues are drained: for the first time, or there is nothing left to drain. -/
theorem drain (h : WithdrawnOnce s) (hwf : Wf s) {t : Pool Job} {c : Call Job}
    (ht : t.calls = s.calls ++ [c]) (hc : c.drained = s.queuedJobs)
    (hlife : t.state.lifecycle = .stopping) : WithdrawnOnce t := by
  refine ⟨fun hnot => absurd hlife hnot, ?_⟩
  rw [ht, List.pairwise_append]
  refine ⟨h.single, List.pairwise_singleton _ _, fun d hd e he => ?_⟩
  rw [List.mem_singleton.mp he, hc]
  by_cases hstop : s.state.lifecycle = .stopping
  · exact Or.inr (hwf.stopped hstop)
  · exact Or.inl (h.drained_eq_nil hstop hd)

/-- **Effects withdraw jobs once.** -/
theorem effect (h : WithdrawnOnce s) (hwf : Wf s) (he : Effect m s s') : WithdrawnOnce s' := by
  cases he with
  | call c hc => exact h.of_append id rfl rfl (Call.drained_of_isQuiet hc)
  | callMoves c₁ c₂ c c' hcalls hc hc' =>
    refine h.of_replace rfl rfl hcalls rfl ?_
    rw [Call.drained_of_isQuiet hc, Call.drained_of_isQuiet hc']
  | configure | rollback | spawnFor | parkCaller => exact h.of_append id rfl rfl rfl
  | reject job c hc => exact h.of_append id rfl rfl (Call.drained_of_isQuiet hc)
  | enqueueGlobal job c hc => exact h.of_append id rfl rfl (Call.drained_of_enqueued hc)
  | enqueueLocal => exact h.of_append id rfl rfl (Call.drained_enqueueCall _)
  | setterDone c₁ c₂ hcalls | rollbackInvoked c₁ c₂ job error hcalls
  | rollbackReturned c₁ c₂ job error hcalls | rollbackUnwound c₁ c₂ job error message hcalls
  | notifyDone c₁ c₂ hcalls | wakeCaller c₁ c₂ hcalls
  | cancelInvoked c₁ c₂ job jobs report hcalls | shutdownNowReturned c₁ c₂ report hcalls
  | cancelUnwound c₁ c₂ job jobs report message hcalls
  | reparkCaller c₁ c₂ hcalls | callerReturns c₁ c₂ hcalls =>
    exact h.of_replace rfl rfl hcalls rfl rfl
  | wakeAll => exact h.wakeAll
  | exit =>
    refine Pool.notifyTerminated_of (I := WithdrawnOnce) (fun _ => wakeAll) ?_
    exact ⟨h.early, h.single⟩
  | finish =>
    refine Pool.notifyTerminated_of (I := WithdrawnOnce) (fun _ => wakeAll) ?_
    exact ⟨h.early, h.single⟩
  | shutdown =>
    refine h.of_append (fun hstop => ?_) rfl rfl rfl
    simp [hstop]
  | drain => exact h.drain hwf rfl rfl (by simp [Pool.drain])
  | cancelReturned c₁ c₂ job jobs report hcalls =>
    refine h.of_kept id (h.withdrawnJobs_cancelReturned hcalls rfl rfl) ?_
    exact h.pairwise_replace hcalls (by simp [Call.drained])
  | _ =>
    -- the rest makes no call and moves none
    exact ⟨h.early, h.single⟩

/-- Nothing was withdrawn from a pool that was just built. -/
theorem of_build {b : ThreadPoolBuilder} (hb : build b = .ok s) : WithdrawnOnce s := by
  obtain ⟨-, rfl | rfl⟩ := build_eq_ok hb
  · exact ⟨fun _ => rfl, List.Pairwise.nil⟩
  · exact ⟨fun _ => rfl, List.pairwise_singleton _ _⟩

end WithdrawnOnce

/-! ### What moves jobs -/

/-- **What an effect that accepts nothing does to the order of jobs.** -/
inductive Passage (s : Pool Job) : Pool Job → Prop
  /-- No job moves. -/
  | still (s' : Pool Job) (hclaimed : s'.ledger.claimed = s.ledger.claimed)
      (hinvoked : s'.ledger.runInvoked = s.ledger.runInvoked)
      (hupcoming : s'.upcomingJobs = s.upcomingJobs) (hqueue : s'.state.queue = s.state.queue)
      (hlocal : s'.localJobs = s.localJobs) (hwithdrawn : s'.withdrawnJobs = s.withdrawnJobs) :
      Passage s s'
  /-- A worker takes the oldest job of the global queue. -/
  | takeGlobal (l₁ l₂ : List (Worker Job)) (w : Worker Job) (hw : s.workers = l₁ ++ w :: l₂)
      (hp : w.phase = .ready) (j : Job) (js : List Job) (hq : s.state.queue = j :: js) :
      Passage s { s with
        state := { s.state.claim with queue := js }
        workers := l₁ ++ { w with phase := .holding j } :: l₂
        ledger := { s.ledger with claimed := s.ledger.claimed ++ [j] } }
  /-- A worker takes the oldest job of a local queue. -/
  | takeLocal (l₁ l₂ : List (Worker Job)) (w : Worker Job) (hw : s.workers = l₁ ++ w :: l₂)
      (hp : w.phase = .ready) (q₁ q₂ : List (WorkerQueue Job)) (v : ℕ) (j : Job) (js : List Job)
      (hqs : s.workerQueues = q₁ ++ ⟨v, j :: js⟩ :: q₂) :
      Passage s { s with
        state := s.state.claim
        workerQueues := q₁ ++ ⟨v, js⟩ :: q₂
        workers := l₁ ++ { w with phase := .holding j } :: l₂
        ledger := { s.ledger with claimed := s.ledger.claimed ++ [j] } }
  /-- A worker starts the job it holds. -/
  | start (l₁ l₂ : List (Worker Job)) (w : Worker Job) (hw : s.workers = l₁ ++ w :: l₂)
      (j : Job) (hp : w.phase = .holding j) :
      Passage s { s with
        workers := l₁ ++ { w with phase := .running j } :: l₂
        ledger := { s.ledger with runInvoked := s.ledger.runInvoked ++ [j] } }
  /-- Whatever is queued is withdrawn. -/
  | withdraw (s' : Pool Job) (hclaimed : s'.ledger.claimed = s.ledger.claimed)
      (hinvoked : s'.ledger.runInvoked = s.ledger.runInvoked)
      (hupcoming : s'.upcomingJobs = s.upcomingJobs) (hqueue : s'.state.queue = [])
      (hlocal : s'.localJobs = [])
      (hwithdrawn : s'.withdrawnJobs = s.withdrawnJobs ++ (s.state.queue ++ s.localJobs)) :
      Passage s s'

/-- Waking everybody up moves no job. -/
theorem Passage.notifyTerminated {t : Pool Job} (hclaimed : t.ledger.claimed = s.ledger.claimed)
    (hinvoked : t.ledger.runInvoked = s.ledger.runInvoked)
    (hupcoming : t.upcomingJobs = s.upcomingJobs) (hqueue : t.state.queue = s.state.queue)
    (hlocal : t.localJobs = s.localJobs) (hwithdrawn : t.withdrawnJobs = s.withdrawnJobs) :
    Passage s t.notifyTerminated := by
  rw [Pool.notifyTerminated]
  split_ifs
  · exact .still _ hclaimed hinvoked (by simpa using hupcoming) hqueue hlocal
      (by simpa using hwithdrawn)
  · exact .still _ hclaimed hinvoked hupcoming hqueue hlocal hwithdrawn

/-- **Every effect that accepts nothing is a passage.** -/
theorem Effect.passage (h : WithdrawnOnce s) (he : Effect m s s')
    (hkept : s'.ledger.accepted = s.ledger.accepted) : Passage s s' := by
  cases he with
  | call c hc =>
    exact .still _ rfl rfl rfl rfl rfl
      (Pool.withdrawnJobs_append rfl rfl (Call.drained_of_isQuiet hc))
  | callMoves c₁ c₂ c c' hcalls hc hc' =>
    have hdrained : c'.drained = c.drained := by
      rw [Call.drained_of_isQuiet hc, Call.drained_of_isQuiet hc']
    exact .still _ rfl rfl rfl rfl rfl (Pool.withdrawnJobs_replace rfl hcalls rfl hdrained)
  | configure | rollback | shutdown | parkCaller =>
    exact .still _ rfl rfl rfl rfl rfl (Pool.withdrawnJobs_append rfl rfl rfl)
  | reject job c hc =>
    exact .still _ rfl rfl rfl rfl rfl
      (Pool.withdrawnJobs_append rfl rfl (Call.drained_of_isQuiet hc))
  | setterDone c₁ c₂ hcalls | rollbackInvoked c₁ c₂ job error hcalls
  | rollbackReturned c₁ c₂ job error hcalls | rollbackUnwound c₁ c₂ job error message hcalls
  | notifyDone c₁ c₂ hcalls | wakeCaller c₁ c₂ hcalls
  | cancelInvoked c₁ c₂ job jobs report hcalls | shutdownNowReturned c₁ c₂ report hcalls
  | cancelUnwound c₁ c₂ job jobs report message hcalls
  | reparkCaller c₁ c₂ hcalls | callerReturns c₁ c₂ hcalls =>
    exact .still _ rfl rfl rfl rfl rfl (Pool.withdrawnJobs_replace rfl hcalls rfl rfl)
  | spawnIdle =>
    refine .still _ rfl rfl ?_ rfl (Pool.localJobs_spawned none s) rfl
    rw [Pool.upcomingJobs_spawned]
    exact List.append_nil _
  | spawnPanics firstTask =>
    exact .still _ rfl rfl (Pool.upcomingJobs_stillborn firstTask s) rfl
      (Pool.localJobs_spawned firstTask s) rfl
  | spawnFor | enqueueGlobal | enqueueLocal => simp [Ledger.accept] at hkept
  | wakeWorker l₁ l₂ w hw timeout status hp | unpark l₁ l₂ w hw timeout status hp
  | park l₁ l₂ w hw hp | runReturns l₁ l₂ w hw j hp | unwind l₁ l₂ w hw j hp
  | finishPanics l₁ l₂ w hw j hp =>
    exact .still _ rfl rfl (Pool.upcomingJobs_replace hw rfl (by rw [hp]; rfl)) rfl rfl rfl
  | wakeAll => exact .still _ rfl rfl (by simp) rfl rfl (by simp)
  | claimGlobal l₁ l₂ w hw hp j js hlife hq => exact .takeGlobal l₁ l₂ w hw hp j js hq
  | claimLocal l₁ l₂ w hw hp q₁ q₂ v j js hlife hqs =>
    exact .takeLocal l₁ l₂ w hw hp q₁ q₂ v j js hqs
  | exit hm l₁ l₂ w hw hp hnil hwhy q₁ q₂ hqs =>
    refine Passage.notifyTerminated rfl rfl ?_ rfl ?_ rfl
    · exact Pool.upcomingJobs_replace hw rfl (by rw [hp]; rfl)
    · simp [Pool.unregistered, Pool.localJobs, hqs]
  | invokeRun l₁ l₂ w hw j hp => exact .start l₁ l₂ w hw j hp
  | finish l₁ l₂ w hw j hp =>
    exact Passage.notifyTerminated rfl rfl
      (Pool.upcomingJobs_replace hw rfl (by rw [hp]; rfl)) rfl rfl rfl
  | drain =>
    refine .withdraw _ rfl rfl rfl rfl ?_ ?_
    · simp [Pool.drain, Pool.localJobs, List.flatMap_map]
    · simp [Pool.withdrawnJobs, Pool.drainedJobs, Pool.drain, Pool.queuedJobs, Pool.localJobs,
        Call.drained]
  | cancelReturned c₁ c₂ job jobs report hcalls =>
    exact .still _ rfl rfl rfl rfl rfl (h.withdrawnJobs_cancelReturned hcalls rfl rfl)
  | skipIndex | moveCursor | dropRunning => exact .still _ rfl rfl rfl rfl rfl rfl

/-- No effect takes an acceptance back. -/
theorem Effect.accepted_prefix (he : Effect m s s') :
    s.ledger.accepted <+: s'.ledger.accepted := by
  cases he with
  | spawnFor | enqueueGlobal | enqueueLocal => exact List.prefix_append _ _
  | exit | finish =>
    exact Pool.notifyTerminated_of (I := fun t => s.ledger.accepted <+: t.ledger.accepted)
      (fun _ h => h) (List.prefix_rfl)
  | _ => exact List.prefix_rfl

/-- The capacity of a pool never changes. -/
theorem Effect.queueCapacity_eq (he : Effect m s s') :
    s'.state.queueCapacity = s.state.queueCapacity := by
  cases he with
  | exit | finish =>
    exact Pool.notifyTerminated_of
      (I := fun t => t.state.queueCapacity = s.state.queueCapacity) (fun _ h => h) rfl
  | _ => rfl

/-- No effect takes a thread back. -/
theorem Effect.length_workers_le (he : Effect m s s') : s.workers.length ≤ s'.workers.length := by
  cases he with
  | spawnIdle | spawnFor => simp [Pool.spawned]
  | spawnPanics => simp [Pool.stillborn]
  | wakeWorker l₁ l₂ w hw | claimGlobal l₁ l₂ w hw | claimLocal l₁ l₂ w hw | park l₁ l₂ w hw
  | unpark l₁ l₂ w hw | invokeRun l₁ l₂ w hw | runReturns l₁ l₂ w hw | unwind l₁ l₂ w hw
  | finishPanics l₁ l₂ w hw => simp [hw]
  | wakeAll => simp
  | exit hm l₁ l₂ w hw | finish l₁ l₂ w hw => simp [hw]
  | _ => exact le_rfl

/-- An effect that creates no worker makes none live. -/
theorem Effect.live_le_of_kept (he : Effect m s s')
    (hkept : s'.workers.length = s.workers.length) :
    s'.state.liveWorkers ≤ s.state.liveWorkers := by
  cases he with
  | spawnIdle | spawnFor => simp [Pool.spawned] at hkept
  | spawnPanics => simp [Pool.stillborn] at hkept
  | exit =>
    rw [Pool.notifyTerminated_state]
    exact Nat.sub_le _ _
  | finish => rw [Pool.notifyTerminated_state]
  | _ => exact le_rfl

/-- **An effect of a step that accepts nothing and creates no worker.** -/
structure Flow (s s' : Pool Job) : Prop where
  /-- The pool it happens to is well-formed. -/
  wf : Wf s
  /-- Jobs are withdrawn from it once. -/
  once : WithdrawnOnce s
  /-- What it does to the order of jobs. -/
  passage : Passage s s'
  /-- Nothing is accepted. -/
  accepted : s'.ledger.accepted = s.ledger.accepted
  /-- The capacity is what it was. -/
  capacity : s'.state.queueCapacity = s.state.queueCapacity
  /-- No worker more is live. -/
  live : s'.state.liveWorkers ≤ s.state.liveWorkers

/-- Whether an action is a `submit`. -/
def Action.isSubmit : Action Job → Bool
  | .submit _ _ => true
  | _ => false

/-- What is not a submission accepts nothing, and what is not a prestart either creates no
worker. -/
theorem Move.kept_or {a : Action Job} (h : Move s a s') (ha : a.isSubmit = false) :
    (s'.ledger.accepted = s.ledger.accepted ∧ s'.workers.length = s.workers.length) ∨
    ∃ spawned t, Prestarted s spawned t ∧ ∃ calls : List (Call Job),
      calls.flatMap Call.drained = s.drainedJobs ∧ s' = { t with calls := calls } := by
  cases h with
  | submit => exact absurd ha (by simp [Action.isSubmit])
  | prestart a hp spawned t h calls hreported hdrained =>
    exact Or.inr ⟨spawned, t, h, calls, hdrained, rfl⟩
  | configure a ha c t h =>
    cases h with
    | refused | written => exact Or.inl ⟨rfl, rfl⟩
  | shutdown | shutdownNow => exact Or.inl ⟨rfl, List.length_map _⟩
  | wait a k w hk hlive u hu o t h =>
    have hboth : t.ledger.accepted = s.ledger.accepted ∧
        t.workers.length = s.workers.length := by
      have hsame : u.ledger = s.ledger ∧ u.workers = s.workers := by
        rcases hu with rfl | rfl <;> exact ⟨rfl, rfl⟩
      cases h with
      | takeGlobal | takeLocal | park => exact ⟨by rw [hsame.1], by rw [hsame.2]⟩
      | exit =>
        refine ⟨?_, ?_⟩
        · exact Pool.notifyTerminated_of (I := fun t => t.ledger.accepted = s.ledger.accepted)
            (fun _ h => h) (congrArg Ledger.accepted hsame.1)
        · rw [Pool.length_workers_notifyTerminated]
          exact congrArg List.length hsame.2
    refine Or.inl ⟨?_, by rw [Pool.length_workers_settleWait, hboth.2]⟩
    rw [← hboth.1]
    cases o <;> rfl
  | finish a k j hpos =>
    refine Or.inl ⟨?_, by simp [Pool.record, Pool.setPhase]⟩
    exact Pool.notifyTerminated_of (I := fun t => t.ledger.accepted = s.ledger.accepted)
      (fun _ h => h) rfl
  | beside a s' hstate hqueues hworkers haccepted => exact Or.inl ⟨haccepted, hworkers⟩

section Step

variable [DecidableEq Job]

/-- **What a step is**, seen from the order of jobs: a submission, a prestart, or a flow of
jobs out of the queues. -/
inductive Course (s : Pool Job) (a : Action Job) (s' : Pool Job) : Prop
  /-- A `submit`. -/
  | submit (job : Job) (spawned : SpawnOutcome) (ha : a = .submit job spawned)
      (hnew : job ∉ s.ledger.presented) (c : Call Job) (t : Pool Job) (h : Submitted s job c t)
      (hs' : s' = s.recordSubmit job c t)
  /-- A prestart of one core worker. -/
  | prestart (ha : a.isSubmit = false) (spawned : SpawnOutcome) (t : Pool Job)
      (h : Prestarted s spawned t) (calls : List (Call Job))
      (hdrained : calls.flatMap Call.drained = s.drainedJobs)
      (hs' : s' = { t with calls := calls })
  /-- Anything else. -/
  | flow (ha : a.isSubmit = false) (haccepted : s'.ledger.accepted = s.ledger.accepted)
      (h : Relation.ReflTransGen Flow s s')

/-- Where nothing is accepted and no worker is created, jobs flow out of the queues. -/
theorem step_flow (hwf : Wf s) (hw : WithdrawnOnce s) {a : Action Job}
    (hstep : step s a = some s') (haccepted : s'.ledger.accepted = s.ledger.accepted)
    (hworkers : s'.workers.length = s.workers.length) : Relation.ReflTransGen Flow s s' := by
  have hchain := Machine.chain_of_measure
    (f := fun t : Pool Job => t.ledger.accepted.length + t.workers.length)
    (fun t t' he => Nat.add_le_add he.accepted_prefix.length_le he.length_workers_le)
    (step_effects hwf Permitted.any hstep) (by simp only [haccepted, hworkers])
  clear haccepted hworkers hstep
  have hall : Relation.ReflTransGen Flow s s' ∧ Wf s' ∧ WithdrawnOnce s' := by
    induction hchain with
    | refl => exact ⟨.refl, hwf, hw⟩
    | @tail t t' _ hlast ih =>
      obtain ⟨hflow, hwf', hw'⟩ := ih
      obtain ⟨he, hsame⟩ := hlast
      have hle := he.accepted_prefix.length_le
      have hle' := he.length_workers_le
      have hkept : t.ledger.accepted = t'.ledger.accepted :=
        he.accepted_prefix.eq_of_length (by omega)
      refine ⟨hflow.tail ⟨hwf', hw', he.passage hw' hkept.symm, hkept.symm, he.queueCapacity_eq,
        he.live_le_of_kept (by omega)⟩, hwf'.effect he, hw'.effect hwf' he⟩
  exact hall.1

/-- **Every step takes one of the courses.** -/
theorem step_course (hwf : Wf s) (hw : WithdrawnOnce s) {a : Action Job}
    (hstep : step s a = some s') : Course s a s' := by
  by_cases ha : a.isSubmit = true
  · cases a with
    | submit job spawned =>
      obtain ⟨hnew, c, t, hsubmitted, hs'⟩ := callerStep_submit hwf hstep
      exact .submit job spawned rfl hnew c t hsubmitted hs'
    | _ => exact absurd ha (by simp [Action.isSubmit])
  · have hnot : a.isSubmit = false := by simpa using ha
    rcases (step_move hwf hstep).kept_or hnot with
      ⟨haccepted, hworkers⟩ | ⟨spawned, t, h, calls, hdrained, hs'⟩
    · exact .flow hnot haccepted (step_flow hwf hw hstep haccepted hworkers)
    · exact .prestart hnot spawned t h calls hdrained hs'

/-- Every run withdraws jobs once. -/
theorem withdrawnOnce_of_reach {ok : Pool Job → Action Job → Prop}
    (hs : (machine Job).ReachVia ok s) : WithdrawnOnce s :=
  reach_invariant (fun _ _ _ _ => Permitted.any) (fun _ _ => WithdrawnOnce.of_build)
    (fun _ _ hwf h he => h.effect hwf he) hs

end Step

/-! ### Without a capacity -/

/-- Nothing is in a local queue of a pool without a capacity. -/
theorem Wf.localJobs_eq_nil (h : Wf s) (hcap : s.state.queueCapacity = none) :
    s.localJobs = [] :=
  List.flatMap_eq_nil_iff.mpr (h.unbounded hcap)

/-- Where jobs were withdrawn nothing is queued. -/
theorem WithdrawnOnce.queuedJobs_or (h : WithdrawnOnce s) (hwf : Wf s) :
    s.queuedJobs = [] ∨ s.withdrawnJobs = [] := by
  by_cases hstop : s.state.lifecycle = .stopping
  · exact Or.inl (hwf.stopped hstop)
  · exact Or.inr (h.early hstop)

/-- A flow takes jobs out of the line at its front, and leaves their order as it is. -/
theorem Flow.parts_eq {log : List Job} (h : Flow s s') (hcap : s.state.queueCapacity = none)
    (hparts : log = s.ledger.claimed ++ s.state.queue ++ s.withdrawnJobs) :
    log = s'.ledger.claimed ++ s'.state.queue ++ s'.withdrawnJobs := by
  cases h.passage with
  | still s' hclaimed hinvoked hupcoming hqueue hlocal hwithdrawn =>
    rw [hclaimed, hqueue, hwithdrawn, hparts]
  | takeGlobal l₁ l₂ w hw hp j js hq =>
    have hsame : Pool.withdrawnJobs { s with
        state := { s.state.claim with queue := js }
        workers := l₁ ++ { w with phase := .holding j } :: l₂
        ledger := { s.ledger with claimed := s.ledger.claimed ++ [j] } } = s.withdrawnJobs := rfl
    rw [hparts, hq, hsame]
    simp
  | takeLocal l₁ l₂ w hw hp q₁ q₂ v j js hqs =>
    have hnil := h.wf.unbounded hcap ⟨v, j :: js⟩ (by rw [hqs]; simp)
    exact absurd hnil (by simp)
  | start l₁ l₂ w hw j hp => exact hparts
  | withdraw s' hclaimed hinvoked hupcoming hqueue hlocal hwithdrawn =>
    rw [hclaimed, hqueue, hwithdrawn, h.wf.localJobs_eq_nil hcap, hparts]
    -- what was withdrawn before was withdrawn from a pool in which nothing is queued now
    rcases h.once.queuedJobs_or h.wf with hnil | hnil
    · rw [(List.append_eq_nil_iff.mp hnil).1]
      simp
    · simp [hnil]

/-- A `submit` withdraws nothing. -/
theorem Submitted.withdrawnJobs_eq {job : Job} {c : Call Job} (h : Submitted s job c s') :
    (s.recordSubmit job c s').withdrawnJobs = s.withdrawnJobs := by
  cases h with
  | refused | notSpawned | takenBack | lost | leftBehind | handed =>
    exact Pool.withdrawnJobs_append rfl rfl rfl
  | queuedFirst | queuedGlobal | queuedLocal =>
    exact Pool.withdrawnJobs_append rfl rfl (Call.drained_enqueueCall _)

/-- What `submit` leaves behind where it has queued its job accepts it. -/
@[simp] theorem Call.accepts_enqueueCall (counted : Bool) (st : ThreadPoolState Job) :
    (st.enqueueCall).accepts counted = true := by
  rw [ThreadPoolState.enqueueCall]
  split_ifs <;> rfl

/-- What is written down of a submission only adds to what was accepted. -/
theorem Ledger.sublist_recordSubmit (job : Job) (counted : Bool) (c : Call Job)
    (l : Ledger Job) : l.accepted.Sublist (l.recordSubmit job counted c).accepted := by
  rw [recordSubmit]
  split_ifs
  · exact List.sublist_append_left _ _
  · exact List.Sublist.refl _

section Step

variable [DecidableEq Job]

/-- What a step has put into a queue: the job that was submitted, if it is in one. -/
def queuedBy (_s : Pool Job) (a : Action Job) (s' : Pool Job) : List Job :=
  match a with
  | .submit job _ => if job ∈ s'.queuedJobs then [job] else []
  | _ => []

/-- Only a submission puts a job into a queue. -/
theorem queuedBy_of_not_submit {a : Action Job} (ha : a.isSubmit = false) :
    queuedBy s a s' = [] := by
  cases a with
  | submit job spawned => exact absurd ha (by simp [Action.isSubmit])
  | _ => rfl

/-- **The jobs that were queued are those taken, those still queued and those withdrawn, in
this order**, and they were accepted in this order. -/
structure Lined (s : Pool Job) (log : List Job) : Prop where
  /-- Where the queued jobs are. -/
  parts : log = s.ledger.claimed ++ s.state.queue ++ s.withdrawnJobs
  /-- The order they were accepted in. -/
  accepted : log.Sublist s.ledger.accepted

variable {log : List Job}

/-- What waits in a queue was handed over at some time. -/
theorem Placed.mem_presented (h : Placed s) {j : Job} (hj : j ∈ s.queuedJobs) :
    j ∈ s.ledger.presented := by
  have hplaces := h.places j
  have hpos := List.count_pos_iff.mpr hj
  exact h.accepted.subset (List.count_pos_iff.mp (by omega))

namespace Lined

/-- A job is handed over and not queued. -/
theorem of_not_queued (h : Lined s log) (hplaced : Placed s) {job : Job}
    (hnew : job ∉ s.ledger.presented) {spawned : SpawnOutcome} {t : Pool Job}
    (hclaimed : t.ledger.claimed = s.ledger.claimed) (hqueue : t.state.queue = s.state.queue)
    (hqueued : t.queuedJobs = s.queuedJobs) (hwithdrawn : t.withdrawnJobs = s.withdrawnJobs)
    (haccepted : s.ledger.accepted.Sublist t.ledger.accepted) :
    Lined t (log ++ queuedBy s (.submit job spawned) t) := by
  have hnot : job ∉ t.queuedJobs := by
    rw [hqueued]
    exact fun hmem => hnew (hplaced.mem_presented hmem)
  have hnil : queuedBy s (.submit job spawned) t = [] := if_neg hnot
  rw [hnil, List.append_nil]
  refine ⟨?_, h.accepted.trans haccepted⟩
  rw [hclaimed, hqueue, hwithdrawn]
  exact h.parts

/-- A job is accepted and put at the end of the global queue of a running pool. -/
theorem of_queued (h : Lined s log) (hw : WithdrawnOnce s) (hrun : s.state.lifecycle = .running)
    {job : Job} {spawned : SpawnOutcome} {t : Pool Job}
    (hclaimed : t.ledger.claimed = s.ledger.claimed)
    (hqueue : t.state.queue = s.state.queue ++ [job])
    (hwithdrawn : t.withdrawnJobs = s.withdrawnJobs)
    (haccepted : t.ledger.accepted = s.ledger.accepted ++ [job]) :
    Lined t (log ++ queuedBy s (.submit job spawned) t) := by
  have hmem : job ∈ t.queuedJobs := by simp [Pool.queuedJobs, hqueue]
  have hone : queuedBy s (.submit job spawned) t = [job] := if_pos hmem
  rw [hone]
  refine ⟨?_, ?_⟩
  · rw [h.parts, hclaimed, hqueue, hwithdrawn, hw.early (by simp [hrun])]
    simp
  · rw [haccepted]
    exact h.accepted.append (List.Sublist.refl _)

/-- A submission keeps the line, and may add to its end. -/
theorem submit (h : Lined s log) (hplaced : Placed s) (hw : WithdrawnOnce s)
    (hcap : s.state.queueCapacity = none) {job : Job} (hnew : job ∉ s.ledger.presented)
    {spawned : SpawnOutcome} {c : Call Job} {t : Pool Job} (hsub : Submitted s job c t) :
    Lined (s.recordSubmit job c t)
      (log ++ queuedBy s (.submit job spawned)
        (s.recordSubmit job c t)) := by
  have hwithdrawn := hsub.withdrawnJobs_eq
  cases hsub with
  | refused | notSpawned | takenBack =>
    exact h.of_not_queued hplaced hnew rfl rfl rfl hwithdrawn (Ledger.sublist_recordSubmit ..)
  | handed hrun =>
    refine h.of_not_queued hplaced hnew rfl rfl ?_ hwithdrawn (Ledger.sublist_recordSubmit ..)
    simp [Pool.spawned, Pool.queuedJobs, Pool.recordSubmit, Pool.addCall, Pool.record]
  | lost message hrun =>
    refine h.of_not_queued hplaced hnew rfl rfl ?_ hwithdrawn (Ledger.sublist_recordSubmit ..)
    simp [Pool.stillborn, Pool.spawned, Pool.queuedJobs, Pool.recordSubmit, Pool.addCall,
      Pool.record]
  | leftBehind message hrun =>
    refine h.of_queued hw hrun rfl rfl hwithdrawn ?_
    simp [Pool.recordSubmit, Pool.record, Ledger.recordSubmit, Pool.addCall, Pool.stillborn,
      Pool.spawned, Call.accepts, ThreadPoolState.enqueue]
  | queuedFirst hrun | queuedGlobal hrun =>
    refine h.of_queued hw hrun rfl rfl hwithdrawn ?_
    simp [Pool.recordSubmit, Pool.record, Ledger.recordSubmit, Pool.addCall, Pool.spawned]
  | queuedLocal hrun hcore hsat hlive hbounded => simp [hcap] at hbounded

/-- **A step keeps the line.** -/
theorem step (h : Lined s log) (hs : (machine Job).Reach s) (hcap : s.state.queueCapacity = none)
    {a : Action Job} (hstep : ThreadPool.step s a = some s') :
    Lined s' (log ++ queuedBy s a s') := by
  have hwf := wf_of_reach hs
  have hw := withdrawnOnce_of_reach hs
  cases step_course hwf hw hstep with
  | submit job spawned ha hnew c t hsubmitted hs' =>
    subst ha hs'
    exact h.submit (placed_of_reach hs) hw hcap hnew hsubmitted
  | prestart ha spawned t hprestarted calls hdrained hs' =>
    subst hs'
    rw [queuedBy_of_not_submit ha, List.append_nil]
    have hparts : s.ledger.cancelReturned ++ calls.flatMap Call.drained = s.withdrawnJobs := by
      rw [hdrained]
      rfl
    cases hprestarted with
    | refused | started | notStarted | panicked =>
      refine ⟨?_, h.accepted⟩
      rw [h.parts, ← hparts]
      rfl
  | flow ha haccepted hflow =>
    rw [queuedBy_of_not_submit ha, List.append_nil]
    have hboth : s'.state.queueCapacity = none ∧
        log = s'.ledger.claimed ++ s'.state.queue ++ s'.withdrawnJobs :=
      Machine.invariant_of_chain (I := fun t => t.state.queueCapacity = none ∧
          log = t.ledger.claimed ++ t.state.queue ++ t.withdrawnJobs)
        (fun _ _ hI hf => ⟨hf.capacity.trans hI.1, hf.parts_eq hI.1 hI.2⟩) hflow ⟨hcap, h.parts⟩
    refine ⟨hboth.2, ?_⟩
    rw [haccepted]
    exact h.accepted

end Lined

/-- No step changes the capacity. -/
theorem queueCapacity_step (hwf : Wf s) {a : Action Job} (hstep : step s a = some s') :
    s'.state.queueCapacity = s.state.queueCapacity :=
  Machine.invariant_of_chain (I := fun t => t.state.queueCapacity = s.state.queueCapacity)
    (fun _ _ h he => he.queueCapacity_eq.trans h) (step_effects hwf Permitted.any hstep) rfl

/-- The jobs queued in a run of a pool without a capacity are lined up. -/
theorem lined_of_observed {log : List Job} (hs : ((machine Job).observe queuedBy).Reach (s, log))
    (hcap : s.state.queueCapacity = none) : (machine Job).Reach s ∧ Lined s log := by
  have hboth := Machine.observe_invariant (p := fun _ _ => True)
    (I := fun s log => s.state.queueCapacity = none → Lined s log)
    (by
      rintro s ⟨b, hb⟩ -
      obtain ⟨-, rfl | rfl⟩ := build_eq_ok hb
      · exact ⟨rfl, List.Sublist.refl _⟩
      · exact ⟨rfl, List.Sublist.refl _⟩)
    (by
      intro s a s' log hr hI _ hstep hcap'
      have hsame := queueCapacity_step (wf_of_reach hr) hstep
      exact (hI (hsame ▸ hcap')).step hr (hsame ▸ hcap') hstep) hs
  exact ⟨hboth.1, hboth.2 hcap⟩

/-- What a `shutdown_now` does, read off its step. -/
theorem step_shutdownNow (hstep : step s .shutdownNow = some s') :
    s' = s.drain.wakeAll.addCall (.shutdownNow s.queuedJobs none
      ⟨s.state.queuedTasks, s.state.runningTasks, s.state.queuedTasks⟩) := by
  have hrun : callerStep s .shutdownNow = some s' := hstep
  rw [callerStep, critical, shutdownNow_run] at hrun
  exact (Option.some.inj hrun).symm

/-- What a `shutdown_now` drains is withdrawn. -/
theorem withdrawnJobs_shutdownNow (hstep : step s .shutdownNow = some s') :
    s'.withdrawnJobs = s.withdrawnJobs ++ s.queuedJobs := by
  have hcall : ∀ report, (Call.shutdownNow s.queuedJobs none report).drained = s.queuedJobs :=
    fun _ => rfl
  rw [step_shutdownNow hstep]
  simp [Pool.withdrawnJobs, Pool.drainedJobs, Pool.addCall, Pool.drain, hcall, List.flatMap_map]

/-- **A pool without a capacity is first-in first-out.** Beside any run of it, write down each
job that is accepted and put into a queue, when it is. At every moment the jobs workers have
taken from a queue are, in the order in which they took them, a prefix of that list, and the
list is in the order of acceptance; the local queues are empty; what follows the prefix is the
queue, as long as no `shutdown_now` was called; and whenever one is called, what follows the
jobs taken and the jobs that were withdrawn before is exactly what it drains. -/
theorem unbounded_fifo {log : List Job}
    (hs : ((machine Job).observe queuedBy).Reach (s, log))
    (hcap : s.state.queueCapacity = none) :
    s.ledger.claimed <+: log ∧ log.Sublist s.ledger.accepted ∧
    (∀ q ∈ s.workerQueues, q.jobs = []) ∧
    (s.state.lifecycle ≠ .stopping → log = s.ledger.claimed ++ s.state.queue) ∧
    (∀ s', step s .shutdownNow = some s' → ∃ jobs report,
      s'.calls = s.calls.map Call.wake ++ [.shutdownNow jobs none report] ∧
      log = s.ledger.claimed ++ s.withdrawnJobs ++ jobs ∧
      (s.state.lifecycle ≠ .stopping → s.withdrawnJobs = []) ∧
      log = s'.ledger.claimed ++ s'.withdrawnJobs) := by
  obtain ⟨hreach, hline⟩ := lined_of_observed hs hcap
  have hwf := wf_of_reach hreach
  have hw := withdrawnOnce_of_reach hreach
  have hqueued : s.queuedJobs = s.state.queue := by
    rw [Pool.queuedJobs]
    exact (congrArg _ (hwf.localJobs_eq_nil hcap)).trans (List.append_nil _)
  refine ⟨?_, hline.accepted, hwf.unbounded hcap, fun hlife => ?_, fun s' hstep => ?_⟩
  · rw [hline.parts, List.append_assoc]
    exact List.prefix_append _ _
  · rw [hline.parts, hw.early hlife, List.append_nil]
  · have hparts : log = s.ledger.claimed ++ s.withdrawnJobs ++ s.queuedJobs := by
      rw [hline.parts, hqueued]
      rcases hw.queuedJobs_or hwf with hnil | hnil
      · rw [← hqueued, hnil]
        simp
      · simp [hnil]
    refine ⟨s.queuedJobs, ⟨s.state.queuedTasks, s.state.runningTasks, s.state.queuedTasks⟩, ?_,
      hparts, hw.early, ?_⟩
    · rw [step_shutdownNow hstep]
      rfl
    · rw [hparts, withdrawnJobs_shutdownNow hstep, step_shutdownNow hstep, List.append_assoc]
      rfl

end Step

/-- A pool of one, without a capacity: of three jobs the first was handed to the worker, the
second was queued and taken, and the third is what a `shutdown_now` drains. -/
theorem unbounded_fifo_one_left :
    ∃ (s : Pool ℕ) (log : List ℕ), log = [1, 2] ∧ s.ledger.claimed = [1] ∧
      s.ledger.claimed <+: log ∧ log.Sublist s.ledger.accepted ∧
      ∀ s', step s .shutdownNow = some s' → ∃ jobs, log = s.ledger.claimed ++ jobs := by
  obtain ⟨⟨s, log⟩, hs, hp⟩ := Machine.exists_reachVia_of_exec (fun _ _ => True) (fun _ _ => true)
    (fun _ _ _ => trivial) (M := (machine ℕ).observe queuedBy) (s := (Pool.ofSize 1, []))
    ⟨machine_init_ofSize ℕ 0, rfl⟩
    [.submit 0 .ok, .submit 1 .ok, .submit 2 .ok, .invokeRun 0, .runReturns 0,
      .finishRunningJob 0, .waitForJob 0]
    (fun t => t.1.state.queueCapacity == none && t.1.state.lifecycle.isRunning &&
      t.1.ledger.claimed == [1] && t.2 == [1, 2])
    (by decide)
  simp only [Bool.and_eq_true, beq_iff_eq, ThreadPoolLifecycle.isRunning_eq_true] at hp
  obtain ⟨⟨⟨hcap, hrun⟩, hclaimed⟩, hlog⟩ := hp
  obtain ⟨hinitial, hsub, -, -, hdrain⟩ := unbounded_fifo hs hcap
  refine ⟨s, log, hlog, hclaimed, hinitial, hsub, fun s' hstep => ?_⟩
  obtain ⟨jobs, report, -, hparts, hnone, -⟩ := hdrain s' hstep
  refine ⟨jobs, ?_⟩
  rw [hparts, hnone (by simp [hrun]), List.append_nil]

end ThreadPool

end QubitConcurrent
