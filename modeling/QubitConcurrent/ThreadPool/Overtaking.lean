import Mathlib.Data.Fintype.EquivFin
import QubitConcurrent.ThreadPool.Order

/-!
# Jobs that overtake others

In a pool with a capacity a submission that finds no worker parked goes to a local queue, and
one that finds a worker parked goes to the global queue. Workers look at local queues first.
So a job in the global queue can be overtaken by jobs that were accepted after it, and that
has two consequences.

* **One worker is not enough for order.** A pool of one worker runs jobs in the order of
  their acceptance as long as no submission goes to a local queue while a job is in the global
  one (`QubitConcurrent.ThreadPool.single_worker_order`). When one does, its job runs first.
* **Overtaking is not bounded.** A job in the global queue waits for as long as submissions
  find the worker busy. The number of jobs that overtake a waiting one has a bound exactly
  when there is room for one job only
  (`QubitConcurrent.ThreadPool.overtaking_bounded_iff`).
-/

namespace QubitConcurrent

namespace ThreadPool

variable {Job : Type} {m : Mode} {s s' : Pool Job}

/-! ### While a worker is parked the local queues are empty -/

/-- Nobody is parked while something is in a local queue. -/
def IdleEmpty (s : Pool Job) : Prop := 0 < s.state.idleWorkers → s.localJobs = []

/-- No effect puts a job into a local queue while a worker is parked, or parks a worker while
a job is there. -/
theorem IdleEmpty.effect (h : IdleEmpty s) (hwf : Wf s) (he : Effect m s s') : IdleEmpty s' := by
  cases he with
  | spawnIdle => exact fun hidle => (Pool.localJobs_spawned none s).trans (h hidle)
  | spawnFor job => exact fun hidle => (Pool.localJobs_spawned (some job) s).trans (h hidle)
  | spawnPanics firstTask =>
    exact fun hidle => (Pool.localJobs_spawned firstTask s).trans (h hidle)
  | enqueueLocal job hnew hrun hlive hcap hidle => exact fun hpos => absurd hidle hpos.ne'
  | claimLocal l₁ l₂ w hw hp q₁ q₂ v j js hlife hqs =>
    intro hidle
    have hnil := h hidle
    rw [Pool.localJobs, hqs] at hnil
    exact absurd hnil (by simp)
  | park l₁ l₂ w hw hp hrun hnil => exact fun _ => (List.append_eq_nil_iff.mp hnil).2
  | unpark l₁ l₂ w hw timeout status hp =>
    intro _
    refine h (hwf.idle_pos (w := w) ?_ ?_)
    · simp [hw]
    · rw [hp]
      rfl
  | exit hm l₁ l₂ w hw hp hnil hwhy q₁ q₂ hqs =>
    refine Pool.notifyTerminated_of (I := IdleEmpty) (fun _ h => h) fun hidle => ?_
    have hlocal := h hidle
    simpa [Pool.localJobs, Pool.unregistered, hqs] using hlocal
  | finish => exact Pool.notifyTerminated_of (I := IdleEmpty) (fun _ h => h) h
  | drain => exact fun _ => by simp [Pool.drain, Pool.localJobs, List.flatMap_map]
  | _ => exact h

/-- In no run is something in a local queue while a worker is parked. -/
theorem idleEmpty_of_reach [DecidableEq Job] {ok : Pool Job → Action Job → Prop}
    (hs : (machine Job).ReachVia ok s) : IdleEmpty s := by
  refine reach_invariant (m := Mode.any) (fun _ _ _ _ => Permitted.any) ?_
    (fun _ _ hwf h he => h.effect hwf he) hs
  intro b s hb hidle
  obtain ⟨-, rfl | rfl⟩ := build_eq_ok hb
  · exact absurd hidle (Nat.lt_irrefl 0)
  · exact absurd hidle (Nat.lt_irrefl 0)

/-! ### One worker -/

/-- A worker that has left is about to run nothing. -/
theorem upcoming_of_not_live {p : WorkerPhase Job} (h : p.isLive = false) : p.upcoming = [] := by
  cases p with
  | exited => rfl
  | _ => exact absurd h (by simp [WorkerPhase.isLive])

/-- Without a live worker nobody is about to run anything. -/
theorem Wf.upcomingJobs_eq_nil (h : Wf s) (hlive : s.state.liveWorkers = 0) :
    s.upcomingJobs = [] := by
  rw [h.live, Pool.countWorkers, List.countP_eq_zero] at hlive
  refine List.flatMap_eq_nil_iff.mpr fun w hw => ?_
  exact upcoming_of_not_live (by simpa using hlive w hw)

/-- Without a live worker nothing waits either. -/
theorem Wf.nothing_waits (h : Wf s) (hlive : s.state.liveWorkers = 0) :
    s.localJobs = [] ∧ s.state.queue = [] := by
  have hqueued : s.queuedJobs = [] := by
    by_contra hne
    exact absurd (h.staffed hne) (by omega)
  exact (List.append_eq_nil_iff.mp hqueued).symm

/-- Where at most one worker is live, nobody but that one is about to run anything, whatever
it does next. -/
theorem Wf.upcomingJobs_one (h : Wf s) (hone : s.state.liveWorkers ≤ 1)
    {l₁ l₂ : List (Worker Job)} {w : Worker Job} (hw : s.workers = l₁ ++ w :: l₂)
    (hp : w.phase.isLive = true) {t : Pool Job} {v : Worker Job}
    (ht : t.workers = l₁ ++ v :: l₂) : t.upcomingJobs = v.phase.upcoming := by
  rw [h.live, Pool.countWorkers, hw, List.countP_append, List.countP_cons, if_pos hp] at hone
  have hleft : l₁.countP (fun w => w.phase.isLive) = 0 := by omega
  have hright : l₂.countP (fun w => w.phase.isLive) = 0 := by omega
  rw [List.countP_eq_zero] at hleft hright
  have hnil₁ : (l₁.flatMap fun w => w.phase.upcoming) = [] :=
    List.flatMap_eq_nil_iff.mpr fun u hu => upcoming_of_not_live (by simpa using hleft u hu)
  have hnil₂ : (l₂.flatMap fun w => w.phase.upcoming) = [] :=
    List.flatMap_eq_nil_iff.mpr fun u hu => upcoming_of_not_live (by simpa using hright u hu)
  rw [Pool.upcomingJobs, ht, List.flatMap_append, List.flatMap_cons, hnil₁, hnil₂,
    List.nil_append, List.append_nil]

/-- Where at most one worker is live, there is at most one local queue. -/
theorem Wf.queue_beside (h : Wf s) (hone : s.state.liveWorkers ≤ 1)
    {q₁ q₂ : List (WorkerQueue Job)} {q : WorkerQueue Job} (hqs : s.workerQueues = q₁ ++ q :: q₂) :
    q₁ = [] ∧ q₂ = [] := by
  have hlength : s.workerQueues.length = s.state.liveWorkers := by
    rw [← List.length_map WorkerQueue.workerIndex, h.registered, List.length_map, h.live,
      Pool.countWorkers, List.countP_eq_length_filter]
  rw [hqs, List.length_append, List.length_cons] at hlength
  exact ⟨List.eq_nil_of_length_eq_zero (by omega), List.eq_nil_of_length_eq_zero (by omega)⟩

/-- **A single file**: at most one worker, jobs in one kind of queue only, and the jobs
accepted are those started, the one about to be, those that wait, and those withdrawn. -/
structure SingleFile (s : Pool Job) : Prop where
  /-- At most one worker is live. -/
  live : s.state.liveWorkers ≤ 1
  /-- Jobs wait in local queues or in the global one. -/
  apart : s.localJobs = [] ∨ s.state.queue = []
  /-- Where the accepted jobs are. -/
  parts : s.ledger.accepted =
    s.ledger.runInvoked ++ s.upcomingJobs ++ s.localJobs ++ s.state.queue ++ s.withdrawnJobs

namespace SingleFile

/-- The parts of the file, one by one. -/
theorem of_parts {t : Pool Job} {r u l q w : List Job} (hlive : t.state.liveWorkers ≤ 1)
    (hapart : l = [] ∨ q = []) (haccepted : t.ledger.accepted = r ++ u ++ l ++ q ++ w)
    (hstarted : t.ledger.runInvoked = r) (hupcoming : t.upcomingJobs = u)
    (hlocals : t.localJobs = l) (hqueue : t.state.queue = q) (hwithdrawn : t.withdrawnJobs = w) :
    SingleFile t where
  live := hlive
  apart := by rwa [hlocals, hqueue]
  parts := by rw [haccepted, hstarted, hupcoming, hlocals, hqueue, hwithdrawn]

/-- A flow keeps the file. -/
theorem flow (h : SingleFile s) (hf : Flow s s') : SingleFile s' := by
  have hlive := hf.live.trans h.live
  have haccepted := hf.accepted
  cases hf.passage with
  | still s' hclaimed hinvoked hupcoming hqueue hlocal hwithdrawn =>
    refine of_parts hlive h.apart ?_ hinvoked hupcoming hlocal hqueue hwithdrawn
    rw [haccepted]
    exact h.parts
  | takeGlobal l₁ l₂ w hw hp j js hq =>
    have hlocal : s.localJobs = [] := h.apart.resolve_right (by simp [hq])
    have hready : w.phase.isLive = true := by rw [hp]; rfl
    have hnone : s.upcomingJobs = [] := by
      rw [hf.wf.upcomingJobs_one h.live hw hready hw, hp]
      rfl
    refine of_parts hlive (Or.inl rfl) ?_ rfl (hf.wf.upcomingJobs_one h.live hw hready rfl) hlocal
      rfl rfl
    rw [haccepted, h.parts, hnone, hlocal, hq]
    simp [WorkerPhase.upcoming, Pool.withdrawnJobs, Pool.drainedJobs]
  | takeLocal l₁ l₂ w hw hp q₁ q₂ v j js hqs =>
    obtain ⟨rfl, rfl⟩ := hf.wf.queue_beside h.live hqs
    have hlocal : s.localJobs = j :: js := by simp [Pool.localJobs, hqs]
    have hqueue : s.state.queue = [] := h.apart.resolve_left (by simp [hlocal])
    have hready : w.phase.isLive = true := by rw [hp]; rfl
    have hnone : s.upcomingJobs = [] := by
      rw [hf.wf.upcomingJobs_one h.live hw hready hw, hp]
      rfl
    refine of_parts hlive (Or.inr rfl) ?_ rfl (hf.wf.upcomingJobs_one h.live hw hready rfl) rfl
      hqueue rfl
    rw [haccepted, h.parts, hnone, hlocal, hqueue]
    simp [WorkerPhase.upcoming, Pool.withdrawnJobs, Pool.drainedJobs, Pool.localJobs]
  | start l₁ l₂ w hw j hp =>
    have hholds : w.phase.isLive = true := by rw [hp]; rfl
    have hone : s.upcomingJobs = [j] := by
      rw [hf.wf.upcomingJobs_one h.live hw hholds hw, hp]
      rfl
    refine of_parts hlive h.apart ?_ rfl (hf.wf.upcomingJobs_one h.live hw hholds rfl) rfl rfl rfl
    rw [haccepted, h.parts, hone]
    simp [WorkerPhase.upcoming, Pool.withdrawnJobs, Pool.drainedJobs]
  | withdraw s' hclaimed hinvoked hupcoming hqueue hlocal hwithdrawn =>
    refine of_parts hlive (Or.inl rfl) ?_ hinvoked hupcoming hlocal hqueue hwithdrawn
    rw [haccepted, h.parts]
    rcases hf.once.queuedJobs_or hf.wf with hnil | hnil
    · obtain ⟨hglobal, hlocals⟩ := List.append_eq_nil_iff.mp hnil
      have hlocals' : s.localJobs = [] := hlocals
      simp [hglobal, hlocals']
    · rcases h.apart with hone | hone
      · simp [hnil, hone]
      · simp [hnil, hone]

end SingleFile

/-- Whether a submission would go to a local queue while a job is in the global one. -/
def Action.overtakes (s : Pool Job) : Action Job → Bool
  | .submit _ _ => s.state.queueCapacity.isSome && s.state.lifecycle.isRunning &&
    !s.state.isSaturated && s.state.idleWorkers == 0 && !s.state.queue.isEmpty
  | _ => false

namespace SingleFile

/-- A submission that does not overtake keeps the file, and joins it at its end. -/
theorem submit (h : SingleFile s) (hwf : Wf s) (hw : WithdrawnOnce s) (hidle : IdleEmpty s)
    (hmax : s.state.maximumPoolSize = 1) {job : Job} {spawned : SpawnOutcome}
    (hline : (Action.submit job spawned).overtakes s = false) {c : Call Job} {t : Pool Job}
    (hsub : Submitted s job c t) :
    SingleFile (s.recordSubmit job c t) := by
  have hcore := hwf.sizes.core_le
  have hwithdrawn := hsub.withdrawnJobs_eq
  have hnothing : s.state.lifecycle = .running → s.withdrawnJobs = [] :=
    fun hrun => hw.early (by simp [hrun])
  cases hsub with
  | refused | notSpawned | takenBack =>
    exact of_parts h.live h.apart h.parts rfl rfl rfl rfl hwithdrawn
  | handed hrun hroom =>
    have hnone : s.state.liveWorkers = 0 := by omega
    obtain ⟨hlocal, hqueue⟩ := hwf.nothing_waits hnone
    have hupcoming := hwf.upcomingJobs_eq_nil hnone
    refine of_parts (u := [job]) ?_ (Or.inl hlocal) ?_ rfl ?_
      (Pool.localJobs_spawned (some job) s) rfl hwithdrawn
    · simp [Pool.spawned, Pool.recordSubmit, Pool.record, Pool.addCall, hnone]
    · simp [Pool.recordSubmit, Pool.record, Ledger.recordSubmit, Call.accepts, Pool.addCall,
        Pool.spawned, h.parts, hupcoming, hlocal, hqueue, hnothing hrun]
    · refine (Pool.upcomingJobs_spawned (some job) s).trans ?_
      rw [hupcoming]
      rfl
  | queuedFirst hrun hsat hlive =>
    obtain ⟨hlocal, hqueue⟩ := hwf.nothing_waits hlive
    refine of_parts ?_ (Or.inl hlocal) ?_ rfl (Pool.upcomingJobs_spawned none s)
      (Pool.localJobs_spawned none s) rfl hwithdrawn
    · simp [Pool.spawned, ThreadPoolState.enqueue, Pool.recordSubmit, Pool.record, Pool.addCall,
        hlive]
    · simp [Pool.recordSubmit, Pool.record, Ledger.recordSubmit, Pool.addCall, Pool.spawned,
        h.parts, hlocal, hqueue, hnothing hrun]
  | lost message hrun hroom =>
    -- the job was not accepted
    have hnone : s.state.liveWorkers = 0 := by omega
    refine of_parts ?_ h.apart ?_ rfl (Pool.upcomingJobs_stillborn (some job) s)
      (Pool.localJobs_spawned (some job) s) rfl hwithdrawn
    · simp [Pool.stillborn, Pool.spawned, Pool.recordSubmit, Pool.record, Pool.addCall, hnone]
    · simp [Pool.recordSubmit, Pool.record, Ledger.recordSubmit, Call.accepts, Pool.addCall,
        Pool.stillborn, Pool.spawned, h.parts]
  | leftBehind message hrun hsat hlive =>
    obtain ⟨hlocal, hqueue⟩ := hwf.nothing_waits hlive
    refine of_parts ?_ (Or.inl hlocal) ?_ rfl (Pool.upcomingJobs_stillborn none s)
      (Pool.localJobs_spawned none s) rfl hwithdrawn
    · simp [Pool.stillborn, Pool.spawned, ThreadPoolState.enqueue, Pool.recordSubmit,
        Pool.record, Pool.addCall, hlive]
    · simp [Pool.recordSubmit, Pool.record, Ledger.recordSubmit, Call.accepts, Pool.addCall,
        Pool.stillborn, Pool.spawned, ThreadPoolState.enqueue, h.parts, hlocal, hqueue,
        hnothing hrun]
  | queuedGlobal hrun hsat hlive hglobal =>
    have hlocal : s.localJobs = [] := hglobal.elim hwf.localJobs_eq_nil hidle
    refine of_parts (u := s.upcomingJobs) (l := s.localJobs) h.live (Or.inl hlocal) ?_ rfl rfl rfl
      rfl hwithdrawn
    simp [Pool.recordSubmit, Pool.record, Ledger.recordSubmit, Pool.addCall, h.parts, hlocal,
      hnothing hrun]
  | queuedLocal hrun hcore' hsat hlive hcap hidle' q₁ q₂ q hqs =>
    -- a submission that does not overtake finds the global queue empty
    have hqueue : s.state.queue = [] := by
      by_contra hne
      simp [Action.overtakes, hcap, hrun, hsat, hidle', hne] at hline
    obtain ⟨rfl, rfl⟩ := hwf.queue_beside h.live hqs
    refine of_parts (u := s.upcomingJobs) (l := s.localJobs ++ [job]) h.live (Or.inr hqueue) ?_ rfl
      rfl ?_ rfl hwithdrawn
    · simp [Pool.recordSubmit, Pool.record, Ledger.recordSubmit, Pool.addCall,
        ThreadPoolState.enqueue, h.parts, hqueue, hnothing hrun]
    · simp [Pool.localJobs, hqs, Pool.recordSubmit, Pool.record, Pool.addCall,
        WorkerQueue.pushBack]

/-- A prestart keeps the file. -/
theorem prestart (h : SingleFile s) (hwf : Wf s) (hmax : s.state.maximumPoolSize = 1)
    {spawned : SpawnOutcome} {t : Pool Job} (hp : Prestarted s spawned t) {calls : List (Call Job)}
    (hdrained : calls.flatMap Call.drained = s.drainedJobs) :
    SingleFile { t with calls := calls } := by
  have hcore := hwf.sizes.core_le
  have hwithdrawn : s.ledger.cancelReturned ++ calls.flatMap Call.drained = s.withdrawnJobs := by
    rw [hdrained]
    rfl
  cases hp with
  | refused | notStarted => exact of_parts h.live h.apart h.parts rfl rfl rfl rfl hwithdrawn
  | started hrun hroom =>
    have hnone : s.state.liveWorkers = 0 := by omega
    refine of_parts ?_ h.apart ?_ rfl (Pool.upcomingJobs_spawned none s)
      (Pool.localJobs_spawned none s) rfl hwithdrawn
    · simp [Pool.spawned, hnone]
    · simpa [Pool.spawned] using h.parts
  | panicked message hrun hroom =>
    have hnone : s.state.liveWorkers = 0 := by omega
    refine of_parts ?_ h.apart ?_ rfl (Pool.upcomingJobs_stillborn none s)
      (Pool.localJobs_spawned none s) rfl hwithdrawn
    · simp [Pool.stillborn, Pool.spawned, hnone]
    · simpa [Pool.stillborn, Pool.spawned] using h.parts

end SingleFile

/-- A builder of pools that keep no worker: `core_pool_size` is zero, `maximum_pool_size` and
`queue_capacity` are as asked, and everything else is left as it is. -/
def ThreadPoolBuilder.coreless (maximum capacity : ℕ) : ThreadPoolBuilder :=
  { ThreadPoolBuilder.default none with
    corePoolSize := 0, maximumPoolSize := maximum, queueCapacity := some capacity }

/-- Such a pool can be built. -/
theorem build_coreless (maximum capacity : ℕ) (hmax : 0 < maximum) (hcap : 0 < capacity) :
    build (.coreless maximum capacity) =
      .ok (Pool.new (ThreadPoolBuilder.coreless maximum capacity).config : Pool Job) := by
  have hvalid : (ThreadPoolBuilder.coreless maximum capacity).validate = .ok () :=
    ThreadPoolBuilder.validate_eq_ok.mpr ⟨hmax.ne', Nat.zero_le _,
      by simp [ThreadPoolBuilder.coreless, hcap.ne'],
      by simp [ThreadPoolBuilder.coreless, ThreadPoolBuilder.default],
      by simp [ThreadPoolBuilder.coreless, ThreadPoolBuilder.default,
        ThreadPoolBuilder.defaultKeepAlive]⟩
  rw [build, hvalid]
  rfl

section Step

variable [DecidableEq Job]

/-- In a pool of at most one worker in which no submission overtakes another, jobs are in a
single file. -/
theorem singleFile_of_reach (hs : (machine Job).ReachVia
    (fun s a => s.state.maximumPoolSize = 1 ∧ a.overtakes s = false) s) : SingleFile s := by
  refine hs.invariant (I := SingleFile) ?_ ?_
  · rintro s ⟨b, hb⟩
    obtain ⟨-, rfl | rfl⟩ := build_eq_ok hb
    · exact ⟨Nat.zero_le _, Or.inl rfl, rfl⟩
    · exact ⟨Nat.zero_le _, Or.inl rfl, rfl⟩
  · rintro s a s' hr h ⟨hmax, hline⟩ hstep
    have hwf := wf_of_reach hr
    have hw := withdrawnOnce_of_reach hr
    cases step_course hwf hw hstep with
    | submit job spawned ha hnew c t hsubmitted hs' =>
      subst ha hs'
      exact h.submit hwf hw (idleEmpty_of_reach hr) hmax hline hsubmitted
    | prestart ha spawned t hp calls hdrained hs' =>
      subst hs'
      exact h.prestart hwf hmax hp hdrained
    | flow ha haccepted hflow =>
      exact Machine.invariant_of_chain (fun _ _ h hf => h.flow hf) hflow h

/-- **A pool of one worker runs jobs in the order of their acceptance** – in every run of it in
which no submission goes to a local queue while a job is in the global one: the jobs started so
far are a prefix of the jobs accepted so far. -/
theorem single_worker_order (hs : (machine Job).ReachVia
    (fun s a => s.state.maximumPoolSize = 1 ∧ a.overtakes s = false) s) :
    s.ledger.runInvoked <+: s.ledger.accepted := by
  rw [(singleFile_of_reach hs).parts, List.append_assoc, List.append_assoc, List.append_assoc]
  exact List.prefix_append _ _

end Step

/-- A worker has taken its first job from the global queue before the second was submitted, and
runs one after the other. -/
theorem single_worker_order_in_turn :
    ∃ s : Pool ℕ, s.ledger.accepted = [0, 1] ∧ s.ledger.runInvoked = [0, 1] ∧
      s.ledger.runInvoked <+: s.ledger.accepted := by
  obtain ⟨s, hs, hp⟩ := Machine.exists_reachVia_of_exec (M := machine ℕ)
    (fun s a => s.state.maximumPoolSize = 1 ∧ a.overtakes s = false)
    (fun s a => s.state.maximumPoolSize == 1 && !a.overtakes s) (fun _ _ h => by simpa using h)
    ⟨_, build_coreless 1 2 (by decide) (by decide)⟩
    [.submit 0 .ok, .waitForJob 0, .submit 1 .ok, .invokeRun 0, .runReturns 0,
      .finishRunningJob 0, .waitForJob 0, .invokeRun 0]
    (fun s => s.ledger.accepted == [0, 1] && s.ledger.runInvoked == [0, 1])
    (by decide)
  simp only [Bool.and_eq_true, beq_iff_eq] at hp
  exact ⟨s, hp.1, hp.2, single_worker_order hs⟩

/-- The first job is put into the global queue and a worker is created for it. Before that
worker has looked for a job, the second goes to its local queue – and runs first. -/
theorem single_worker_order_fails :
    ¬∀ s : Pool ℕ, (machine ℕ).ReachVia (fun s _ => s.state.maximumPoolSize = 1) s →
      s.state.maximumPoolSize = 1 → s.state.queueCapacity.isSome = true →
      s.ledger.runInvoked.Sublist s.ledger.accepted := by
  intro hall
  obtain ⟨s, hs, hp⟩ := Machine.exists_reachVia_of_exec (M := machine ℕ)
    (fun s _ => s.state.maximumPoolSize = 1) (fun s _ => s.state.maximumPoolSize == 1)
    (fun _ _ h => by simpa using h)
    ⟨_, build_coreless 1 2 (by decide) (by decide)⟩
    [.submit 0 .ok, .submit 1 .ok, .waitForJob 0, .invokeRun 0, .runReturns 0,
      .finishRunningJob 0, .waitForJob 0, .invokeRun 0]
    (fun s => s.state.maximumPoolSize == 1 && s.state.queueCapacity.isSome &&
      s.ledger.accepted == [0, 1] && s.ledger.runInvoked == [1, 0])
    (by decide)
  simp only [Bool.and_eq_true, beq_iff_eq] at hp
  obtain ⟨⟨⟨hmax, hcap⟩, haccepted⟩, hstarted⟩ := hp
  have hsub := hall s hs hmax hcap
  rw [haccepted, hstarted] at hsub
  exact absurd hsub (by decide)

/-! ### Room for one job -/

/-- Where a pair of jobs is accepted in this order: both were before, or the second is new. -/
theorem pair_sublist_append {l : List Job} {i k job : Job} (h : [i, k].Sublist (l ++ [job])) :
    [i, k].Sublist l ∨ i ∈ l ∧ k = job := by
  obtain ⟨l₁, l₂, hsplit, h₁, h₂⟩ := List.sublist_append_iff.mp h
  have hshort := h₂.length_le
  rcases l₂ with _ | ⟨a, _ | ⟨b, l₂⟩⟩
  · rw [List.append_nil] at hsplit
    exact Or.inl (hsplit ▸ h₁)
  · have hends : [i] ++ [k] = l₁ ++ [a] := hsplit
    obtain ⟨rfl, hlast⟩ := List.append_inj' hends rfl
    refine Or.inr ⟨h₁.subset (by simp), ?_⟩
    rw [(List.cons.inj hlast).1]
    exact List.mem_singleton.mp (h₂.subset (by simp))
  · simp at hshort

/-- **Room for one job**: what waits is one job at most, and nobody has overtaken it. -/
structure OneRoom (s : Pool Job) : Prop where
  /-- At most one job waits. -/
  room : s.queuedJobs.length ≤ 1
  /-- Nothing accepted after a waiting job was taken. -/
  first : ∀ i ∈ s.queuedJobs, ∀ k ∈ s.ledger.claimed, ¬[i, k].Sublist s.ledger.accepted

namespace OneRoom

/-- Nothing waits. -/
theorem of_nil {t : Pool Job} (hnil : t.queuedJobs = []) : OneRoom t where
  room := by simp [hnil]
  first := by simp [hnil]

/-- Nothing is accepted, taken or queued. -/
theorem of_eq (h : OneRoom s) {t : Pool Job} (hqueued : t.queuedJobs = s.queuedJobs)
    (hclaimed : t.ledger.claimed = s.ledger.claimed)
    (haccepted : t.ledger.accepted = s.ledger.accepted) : OneRoom t where
  room := by
    rw [hqueued]
    exact h.room
  first := by
    rw [hqueued, hclaimed, haccepted]
    exact h.first

/-- A flow lets nobody overtake. -/
theorem flow (h : OneRoom s) (hf : Flow s s') : OneRoom s' := by
  have hroom := h.room
  cases hf.passage with
  | still s' hclaimed hinvoked hupcoming hqueue hlocal hwithdrawn =>
    have hqueued : s'.queuedJobs = s.queuedJobs := congrArg₂ (· ++ ·) hqueue hlocal
    exact h.of_eq hqueued hclaimed hf.accepted
  | takeGlobal l₁ l₂ w hw hp j js hq =>
    have hnil : js ++ s.localJobs = [] := by
      rw [Pool.queuedJobs, hq, List.cons_append, List.length_cons] at hroom
      exact List.eq_nil_of_length_eq_zero (Nat.le_zero.mp (Nat.le_of_succ_le_succ hroom))
    exact of_nil hnil
  | takeLocal l₁ l₂ w hw hp q₁ q₂ v j js hqs =>
    refine of_nil ?_
    rw [Pool.queuedJobs, hqs] at hroom
    simp only [List.flatMap_append, List.flatMap_cons, List.length_append, List.length_cons]
      at hroom
    refine List.eq_nil_of_length_eq_zero ?_
    simp only [Pool.queuedJobs, ThreadPoolState.claim, List.flatMap_append, List.flatMap_cons,
      List.length_append]
    omega
  | start l₁ l₂ w hw j hp => exact h.of_eq rfl rfl rfl
  | withdraw s' hclaimed hinvoked hupcoming hqueue hlocal hwithdrawn =>
    refine of_nil ?_
    exact congrArg₂ (· ++ ·) hqueue hlocal

/-- A job that is handed to a new worker was not taken from a queue. -/
theorem of_handed (h : OneRoom s) (hpresented : s.ledger.claimed ⊆ s.ledger.presented)
    {job : Job} (hnew : job ∉ s.ledger.presented) {t : Pool Job}
    (hqueued : t.queuedJobs = s.queuedJobs) (hclaimed : t.ledger.claimed = s.ledger.claimed)
    (haccepted : t.ledger.accepted = s.ledger.accepted ++ [job]) : OneRoom t where
  room := by
    rw [hqueued]
    exact h.room
  first := by
    rw [hqueued, hclaimed, haccepted]
    intro i hi k hk hpair
    rcases pair_sublist_append hpair with hold | ⟨-, rfl⟩
    · exact h.first i hi k hk hold
    · exact hnew (hpresented hk)

end OneRoom

section Step

variable [DecidableEq Job]

/-- The jobs workers have taken from a queue although they were accepted after `job`. -/
def Pool.overtakers (job : Job) (s : Pool Job) : List Job :=
  s.ledger.claimed.filter fun k => decide ([job, k].Sublist s.ledger.accepted)

/-- No job that waits is overtaken. -/
theorem OneRoom.overtakers_eq_nil (h : OneRoom s) {job : Job} (hjob : job ∈ s.queuedJobs) :
    s.overtakers job = [] := by
  refine List.filter_eq_nil_iff.mpr fun k hk => ?_
  simpa using h.first job hjob k hk

/-- A job that is queued where nothing waits is the last one accepted. -/
theorem OneRoom.of_queued (hplaced : Placed s) {job : Job} (hnew : job ∉ s.ledger.presented)
    {t : Pool Job} (hqueued : t.queuedJobs = [job])
    (haccepted : t.ledger.accepted = s.ledger.accepted ++ [job]) : OneRoom t where
  room := by simp [hqueued]
  first := by
    rw [hqueued, haccepted]
    intro i hi k hk hpair
    obtain rfl := List.mem_singleton.mp hi
    refine hnew (hplaced.accepted.subset ?_)
    rcases pair_sublist_append hpair with hold | ⟨hmem, -⟩
    · exact hold.subset (by simp)
    · exact hmem

/-- What was taken from a queue was handed over before. -/
theorem claimed_subset_presented {ok : Pool Job → Action Job → Prop}
    (hs : (machine Job).ReachVia ok s) : s.ledger.claimed ⊆ s.ledger.presented := by
  have hboth : Placed s ∧ s.ledger.claimed ⊆ s.ledger.presented := by
    refine reach_invariant (m := Mode.any)
      (I := fun s => Placed s ∧ s.ledger.claimed ⊆ s.ledger.presented)
      (fun _ _ _ _ => Permitted.any) ?_ ?_ hs
    · intro b s hb
      refine ⟨Placed.of_build hb, ?_⟩
      obtain ⟨-, rfl | rfl⟩ := build_eq_ok hb
      · exact List.Subset.refl _
      · exact List.Subset.refl _
    · rintro s s' - ⟨hplaced, hsub⟩ he
      refine ⟨hplaced.effect he, ?_⟩
      cases he with
      | reject | rollback | spawnFor | enqueueGlobal | enqueueLocal =>
        exact fun k hk => List.mem_append_left _ (hsub hk)
      | claimGlobal l₁ l₂ w hw hp j js hlife hq =>
        refine List.append_subset.mpr ⟨hsub, List.cons_subset.mpr ⟨?_, List.nil_subset _⟩⟩
        exact hplaced.mem_presented (by simp [Pool.queuedJobs, hq])
      | claimLocal l₁ l₂ w hw hp q₁ q₂ v j js hlife hqs =>
        refine List.append_subset.mpr ⟨hsub, List.cons_subset.mpr ⟨?_, List.nil_subset _⟩⟩
        exact hplaced.mem_presented (by simp [Pool.queuedJobs, hqs])
      | exit | finish =>
        exact Pool.notifyTerminated_of (I := fun t => t.ledger.claimed ⊆ t.ledger.presented)
          (fun _ h => h) hsub
      | _ => exact hsub
  exact hboth.2

/-- A submission to a pool with room for one job lets nobody overtake. -/
theorem OneRoom.submit (h : OneRoom s) (hwf : Wf s) (hplaced : Placed s)
    (hpresented : s.ledger.claimed ⊆ s.ledger.presented) (hcap : s.state.queueCapacity = some 1)
    {job : Job} (hnew : job ∉ s.ledger.presented) {c : Call Job} {t : Pool Job}
    (hsub : Submitted s job c t) :
    OneRoom (s.recordSubmit job c t) := by
  -- a job is queued only where nothing waits
  have hempty : s.state.isSaturated = false → s.state.queue = [] ∧ s.localJobs = [] := by
    intro hsat
    have hqueued := hwf.queued
    rw [ThreadPoolState.isSaturated, hcap, Option.any_some, decide_eq_false_iff_not] at hsat
    exact List.append_eq_nil_iff.mp (List.eq_nil_of_length_eq_zero (l := s.queuedJobs) (by omega))
  cases hsub with
  | refused | notSpawned | takenBack => exact h.of_eq rfl rfl rfl
  | handed hrun =>
    refine h.of_handed hpresented hnew ?_ rfl rfl
    exact congrArg (s.state.queue ++ ·) (Pool.localJobs_spawned (some job) s)
  | lost message hrun =>
    refine h.of_eq ?_ rfl ?_
    · exact congrArg (s.state.queue ++ ·) (Pool.localJobs_spawned (some job) s)
    · simp [Pool.recordSubmit, Pool.record, Ledger.recordSubmit, Pool.addCall, Pool.stillborn,
        Pool.spawned, Call.accepts]
  | queuedFirst hrun hsat =>
    obtain ⟨hqueue, hlocal⟩ := hempty hsat
    refine OneRoom.of_queued hplaced hnew ?_ ?_
    · refine (congrArg ((s.state.queue ++ [job]) ++ ·) (Pool.localJobs_spawned none s)).trans ?_
      simp [hqueue, hlocal]
    · simp [Pool.recordSubmit, Pool.record, Ledger.recordSubmit, Pool.addCall, Pool.spawned]
  | leftBehind message hrun hsat =>
    obtain ⟨hqueue, hlocal⟩ := hempty hsat
    refine OneRoom.of_queued hplaced hnew ?_ ?_
    · refine (congrArg ((s.state.queue ++ [job]) ++ ·) (Pool.localJobs_spawned none s)).trans ?_
      simp [hqueue, hlocal]
    · simp [Pool.recordSubmit, Pool.record, Ledger.recordSubmit, Pool.addCall, Pool.stillborn,
        Pool.spawned, Call.accepts, ThreadPoolState.enqueue]
  | queuedGlobal hrun hsat =>
    obtain ⟨hqueue, hlocal⟩ := hempty hsat
    refine OneRoom.of_queued hplaced hnew ?_ ?_
    · show s.state.queue ++ [job] ++ s.localJobs = [job]
      simp [hqueue, hlocal]
    · simp [Pool.recordSubmit, Pool.record, Ledger.recordSubmit, Pool.addCall]
  | queuedLocal hrun hcore hsat hlive hbounded hidle q₁ q₂ q hqs =>
    obtain ⟨hqueue, hlocal⟩ := hempty hsat
    refine OneRoom.of_queued hplaced hnew ?_ ?_
    · rw [Pool.localJobs, hqs] at hlocal
      simp only [List.flatMap_append, List.flatMap_cons, List.append_eq_nil_iff] at hlocal
      simp [Pool.queuedJobs, Pool.recordSubmit, Pool.record, Pool.addCall,
        ThreadPoolState.enqueue, hqueue, hlocal, WorkerQueue.pushBack]
    · simp [Pool.recordSubmit, Pool.record, Ledger.recordSubmit, Pool.addCall]

/-- In a pool with room for one job nobody is overtaken. -/
theorem oneRoom_of_reach {ok : Pool Job → Action Job → Prop} (hs : (machine Job).ReachVia ok s)
    (hcap : s.state.queueCapacity = some 1) : OneRoom s := by
  refine hs.invariant (I := fun s => s.state.queueCapacity = some 1 → OneRoom s) ?_ ?_ hcap
  · rintro s ⟨b, hb⟩ -
    refine OneRoom.of_nil ?_
    obtain ⟨-, rfl | rfl⟩ := build_eq_ok hb
    · rfl
    · rfl
  · intro s a s' hr hI hok hstep hcap'
    have hwf := wf_of_reach hr
    have hcap₀ : s.state.queueCapacity = some 1 := queueCapacity_step hwf hstep ▸ hcap'
    have h := hI hcap₀
    cases step_course hwf (withdrawnOnce_of_reach hr) hstep with
    | submit job spawned ha hnew c t hsubmitted hs' =>
      subst hs'
      exact h.submit hwf (placed_of_reach hr) (claimed_subset_presented hr) hcap₀ hnew hsubmitted
    | prestart ha spawned t hp calls hdrained hs' =>
      subst hs'
      cases hp with
      | refused | notStarted => exact h.of_eq rfl rfl rfl
      | started | panicked =>
        refine h.of_eq ?_ rfl rfl
        exact congrArg (s.state.queue ++ ·) (Pool.localJobs_spawned none s)
    | flow ha haccepted hflow =>
      exact Machine.invariant_of_chain (fun _ _ h hf => h.flow hf) hflow h

end Step

/-! ### Room for more -/

/-- A worker that finds a job in its own queue takes that one, whatever is in the global
queue. -/
theorem waitForJob_run_own {i : ℕ} {job : Job} {qs : List (WorkerQueue Job)}
    (hrun : s.state.lifecycle = .running) (hcap : s.state.queueCapacity.isSome = true)
    (hown : popOwn i s.workerQueues = some (job, qs)) (hpos : 0 < s.state.queuedTasks) :
    (waitForJob i).run s =
      .ok (.job job) { s with state := s.state.claim, workerQueues := qs } := by
  have haccount := accountClaim_run (s := { s with workerQueues := qs }) hpos
  simp [waitForJob, hrun, tryTakeQueuedJobLocked, hcap, hown, haccount]

/-- The step of a submission, from what its critical section does. -/
theorem step_submit [DecidableEq Job] {job : Job} {spawned : SpawnOutcome} {c : Call Job}
    {t : Pool Job} (hnew : job ∉ s.ledger.presented) (hrun : (submit job spawned).run s = .ok c t) :
    step s (.submit job spawned) =
      some (s.recordSubmit job c t) := by
  have hcrit : critical (submit job spawned) s = (c, t) := by rw [critical, hrun]
  show callerStep s (.submit job spawned) = _
  rw [callerStep, if_neg hnew, hcrit]

/-- A step of the pool leads to a later pool. -/
theorem later_of_step [DecidableEq Job] {a : Action Job} (hstep : step s a = some s') :
    (machine Job).Later s s' := by
  have hstep' : (machine Job).step s a = some s' := hstep
  exact Machine.Later.single hstep'

/-- **A job is being overtaken**: it waits in the global queue of a pool with one worker, who
is at `p`, finds `own` in its own queue, and has taken `taken` of the jobs `later` that were
accepted after it. -/
structure Bypassed (job : Job) (later taken own : List Job) (p : WorkerPhase Job) (capacity : ℕ)
    (s : Pool Job) : Prop where
  /-- The pool runs. -/
  running : s.state.lifecycle = .running
  /-- There is a capacity. -/
  bounded : s.state.queueCapacity = some capacity
  /-- No worker is kept. -/
  core : s.state.corePoolSize = 0
  /-- The worker is not parked. -/
  idle : s.state.idleWorkers = 0
  /-- There is one worker. -/
  live : s.state.liveWorkers = 1
  /-- The job that waits. -/
  queue : s.state.queue = [job]
  /-- All the jobs that wait are counted. -/
  queued : s.state.queuedTasks = own.length + 1
  /-- The job in the hands of the worker is counted. -/
  busy : s.state.runningTasks = p.held.length
  /-- What the worker finds in its queue. -/
  queues : s.workerQueues = [⟨0, own⟩]
  /-- Where the worker stands. -/
  worker : ∃ name, s.workers = [⟨0, name, p⟩]
  /-- The jobs handed over. -/
  presented : s.ledger.presented = job :: later
  /-- The jobs accepted. -/
  accepted : s.ledger.accepted = job :: later
  /-- The jobs taken from queues. -/
  claimed : s.ledger.claimed = taken

namespace Bypassed

variable [DecidableEq Job] {job k : Job} {later own : List Job} {c : ℕ}

/-- What the worker does next depends on where it stands. -/
theorem step_eq {taken : List Job} {p : WorkerPhase Job} (h : Bypassed job later taken own p c s)
    {a : Action Job} (ha : a.worker? = some 0) : step s a = workerStep s 0 0 a p := by
  obtain ⟨name, hname⟩ := h.worker
  simp [step, ha, hname]

/-- The job is submitted to a pool without workers. -/
theorem start (maximum : ℕ) {capacity : ℕ} (hcap : 0 < capacity) (job : Job) :
    ∃ t, step (Pool.new (ThreadPoolBuilder.coreless maximum capacity).config)
      (.submit job .ok) = some t ∧ Bypassed job [] [] [] .ready capacity t := by
  have hrun : (Pool.new (ThreadPoolBuilder.coreless maximum capacity).config :
      Pool Job).state.lifecycle = .running := rfl
  have hsat : (Pool.new (ThreadPoolBuilder.coreless maximum capacity).config :
      Pool Job).state.isSaturated = false := decide_eq_false (Nat.not_le.mpr hcap)
  refine ⟨_, step_submit List.not_mem_nil
    (submit_run_first_ok job hrun (Nat.le_refl 0) hsat rfl), ?_⟩
  exact
    { running := rfl, bounded := rfl, core := rfl, idle := rfl, live := rfl, queue := rfl
      queued := rfl, busy := rfl, queues := rfl, worker := ⟨_, rfl⟩, presented := rfl
      accepted := rfl, claimed := rfl }

/-- Another job is submitted, and goes to the queue of the worker. -/
theorem submit (h : Bypassed job later later [] .ready c s) (hc : 1 < c) (hk : k ∉ job :: later) :
    ∃ t, step s (.submit k .ok) = some t ∧
      Bypassed job (later ++ [k]) later [k] .ready c t := by
  have hsat : s.state.isSaturated = false := by
    rw [ThreadPoolState.isSaturated, h.bounded, h.queued]
    exact decide_eq_false (by simpa using hc)
  obtain ⟨q₁, q, q₂, hqs, hsubmit⟩ := submit_run_local k h.running (by simp [h.core]) hsat
    (by simp [h.live]) (by simp [h.bounded]) h.idle (by simp [h.queues]) .ok
  obtain ⟨rfl, rfl, rfl⟩ : q₁ = [] ∧ q = ⟨0, []⟩ ∧ q₂ = [] := by
    rw [h.queues] at hqs
    rcases q₁ with _ | ⟨p, q₁⟩
    · obtain ⟨hq, hq₂⟩ := List.cons.inj hqs
      exact ⟨rfl, hq.symm, hq₂.symm⟩
    · exact absurd (List.cons.inj hqs).2 (by simp)
  have hcall : s.state.enqueueCall = .returned (.submit (.ok ())) := by
    rw [ThreadPoolState.enqueueCall, if_neg (by simp [h.idle])]
  rw [hcall] at hsubmit
  refine ⟨_, step_submit (by rwa [h.presented]) hsubmit, ?_⟩
  exact
    { running := h.running
      bounded := h.bounded
      core := h.core
      idle := h.idle
      live := h.live
      queue := h.queue
      queued := congrArg (· + 1) h.queued
      busy := h.busy
      queues := rfl
      worker := h.worker
      presented := congrArg (· ++ [k]) h.presented
      accepted := congrArg (· ++ [k]) h.accepted
      claimed := h.claimed }

/-- The worker takes it. -/
theorem take (h : Bypassed job (later ++ [k]) later [k] .ready c s) :
    ∃ t, step s (.waitForJob 0) = some t ∧
      Bypassed job (later ++ [k]) (later ++ [k]) [] (.holding k) c t := by
  obtain ⟨name, hname⟩ := h.worker
  have hown : popOwn 0 s.workerQueues = some (k, [⟨0, []⟩]) := by rw [h.queues]; rfl
  have hwait := waitForJob_run_own h.running (by simp [h.bounded]) hown (by simp [h.queued])
  refine ⟨workerCritical 0 (waitForJob 0) s, h.step_eq rfl, ?_⟩
  rw [workerCritical, hwait]
  exact
    { running := h.running
      bounded := h.bounded
      core := h.core
      idle := h.idle
      live := h.live
      queue := h.queue
      queued := congrArg (· - 1) h.queued
      busy := congrArg (· + 1) h.busy
      queues := rfl
      worker := ⟨name, by simp [Pool.settleWait, Pool.setPhase, Pool.record, hname]⟩
      presented := h.presented
      accepted := h.accepted
      claimed := congrArg (· ++ [k]) h.claimed }

omit [DecidableEq Job] in
/-- The worker moves on with the job in its hands. -/
theorem move {taken : List Job} {p : WorkerPhase Job} (h : Bypassed job later taken own p c s)
    (p' : WorkerPhase Job) (hheld : p'.held.length = p.held.length) (f : Ledger Job → Ledger Job)
    (hpresented : (f s.ledger).presented = s.ledger.presented)
    (haccepted : (f s.ledger).accepted = s.ledger.accepted)
    (hclaimed : (f s.ledger).claimed = s.ledger.claimed) :
    Bypassed job later taken own p' c ((s.setPhase 0 p').record f) := by
  obtain ⟨name, hname⟩ := h.worker
  exact
    { running := h.running
      bounded := h.bounded
      core := h.core
      idle := h.idle
      live := h.live
      queue := h.queue
      queued := h.queued
      busy := h.busy.trans hheld.symm
      queues := h.queues
      worker := ⟨name, by simp [Pool.setPhase, Pool.record, hname]⟩
      presented := hpresented.trans h.presented
      accepted := haccepted.trans h.accepted
      claimed := hclaimed.trans h.claimed }

/-- The worker is done with its job. -/
theorem finish (h : Bypassed job later later [] (.finishing k) c s) :
    ∃ t, step s (.finishRunningJob 0) = some t ∧ Bypassed job later later [] .ready c t := by
  obtain ⟨name, hname⟩ := h.worker
  have hpos : 0 < s.state.runningTasks := by rw [h.busy]; exact Nat.one_pos
  have hfinish := finishRunningJob_run_of_pos hpos
  rw [Pool.notifyTerminated_of_running (by exact h.running)] at hfinish
  have hstep : step s (.finishRunningJob 0) =
      workerStep s 0 0 (.finishRunningJob 0) (.finishing k) := h.step_eq rfl
  simp only [workerStep, hfinish] at hstep
  refine ⟨_, hstep, ?_⟩
  exact
    { running := h.running
      bounded := h.bounded
      core := h.core
      idle := h.idle
      live := h.live
      queue := h.queue
      queued := h.queued
      busy := congrArg (· - 1) h.busy
      queues := h.queues
      worker := ⟨name, by simp [Pool.setPhase, Pool.record, hname]⟩
      presented := h.presented
      accepted := h.accepted
      claimed := h.claimed }

/-- **One more job overtakes**: it is submitted, taken and run, and the job that waits still
waits. -/
theorem round (h : Bypassed job later later [] .ready c s) (hc : 1 < c) (hk : k ∉ job :: later) :
    ∃ t, (machine Job).Later s t ∧ Bypassed job (later ++ [k]) (later ++ [k]) [] .ready c t := by
  obtain ⟨s₁, hstep₁, h₁⟩ := h.submit hc hk
  obtain ⟨s₂, hstep₂, h₂⟩ := h₁.take
  have h₃ := h₂.move (.running k) rfl (fun l => { l with runInvoked := l.runInvoked ++ [k] })
    rfl rfl rfl
  have h₄ := h₃.move (.finishing k) rfl (fun l => { l with runReturned := l.runReturned ++ [k] })
    rfl rfl rfl
  obtain ⟨s₅, hstep₅, h₅⟩ := h₄.finish
  refine ⟨s₅, ?_, h₅⟩
  have hinvoke := later_of_step (a := .invokeRun 0) (h₂.step_eq rfl)
  have hreturn := later_of_step (a := .runReturns 0) (h₃.step_eq rfl)
  exact (((later_of_step hstep₁).trans (later_of_step hstep₂)).trans hinvoke).trans
    (hreturn.trans (later_of_step hstep₅))

/-- Any number of jobs overtake. -/
theorem rounds [Infinite Job] (h : Bypassed job [] [] [] .ready c s) (hc : 1 < c) (n : ℕ) :
    ∃ later t, later.length = n ∧ (machine Job).Later s t ∧
      Bypassed job later later [] .ready c t := by
  induction n with
  | zero => exact ⟨[], s, rfl, .refl, h⟩
  | succ n ih =>
    obtain ⟨later, t, hlength, hlater, ht⟩ := ih
    obtain ⟨k, hk⟩ := Infinite.exists_notMem_finset (job :: later).toFinset
    obtain ⟨t', hround, ht'⟩ := ht.round hc (by simpa using hk)
    exact ⟨later ++ [k], t', by simp [hlength], hlater.trans hround, ht'⟩

omit [DecidableEq Job] in
/-- The job that is overtaken waits. -/
theorem mem_queuedJobs {taken : List Job} {p : WorkerPhase Job}
    (h : Bypassed job later taken own p c s) : job ∈ s.queuedJobs := by
  simp [Pool.queuedJobs, h.queue]

/-- Whatever was taken has overtaken it. -/
theorem overtakers_eq {p : WorkerPhase Job} (h : Bypassed job later later own p c s) :
    s.overtakers job = later := by
  rw [Pool.overtakers, h.claimed, h.accepted]
  refine List.filter_eq_self.mpr fun k hk => decide_eq_true ?_
  exact (List.singleton_sublist.mpr hk).cons_cons job

end Bypassed

section Step

variable [DecidableEq Job] [Infinite Job]

/-- With room for two jobs there are runs in which one is overtaken as often as one likes. -/
theorem exists_overtakers (maximum : ℕ) {capacity : ℕ} (hcap : 1 < capacity) (n : ℕ) :
    ∃ (job : Job) (s : Pool Job),
      (machine Job).Later (Pool.new (ThreadPoolBuilder.coreless maximum capacity).config) s ∧
      job ∈ s.queuedJobs ∧ (s.overtakers job).length = n := by
  obtain ⟨job, -⟩ := Infinite.exists_notMem_finset (∅ : Finset Job)
  obtain ⟨s, hstep, hs⟩ := Bypassed.start maximum (Nat.lt_of_succ_lt hcap) job
  obtain ⟨later, t, hlength, hlater, ht⟩ := hs.rounds hcap n
  refine ⟨job, t, (later_of_step hstep).trans hlater, ht.mem_queuedJobs, ?_⟩
  rw [ht.overtakers_eq, hlength]

/-- **How often a waiting job is overtaken** by jobs accepted after it has a bound that depends
only on the capacity and the maximum of the pool – over all runs of all pools built with them –
exactly if there is room for one job only. -/
theorem overtaking_bounded_iff {capacity maximum : ℕ} (hcap : 0 < capacity) (hmax : 0 < maximum) :
    (∃ n, ∀ (b : ThreadPoolBuilder) (s₀ s : Pool Job), b.queueCapacity = some capacity →
      b.maximumPoolSize = maximum → build b = .ok s₀ → (machine Job).Later s₀ s →
      ∀ job ∈ s.queuedJobs, (s.overtakers job).length ≤ n) ↔ capacity = 1 := by
  constructor
  · rintro ⟨n, hn⟩
    by_contra hne
    have hmore : 1 < capacity := by omega
    obtain ⟨job, s, hlater, hjob, hlength⟩ := @exists_overtakers Job _ _ maximum _ hmore (n + 1)
    have hle := hn (.coreless maximum capacity) _ s rfl rfl (build_coreless _ _ hmax hcap) hlater
      job hjob
    omega
  · rintro rfl
    refine ⟨0, fun b s₀ s hb _ hbuild hlater job hjob => ?_⟩
    have hinit : (machine Job).Reach s₀ := .start ⟨b, hbuild⟩
    have hsame : s.state.queueCapacity = some 1 := by
      refine hlater.invariant hinit (I := fun t => t.state.queueCapacity = some 1) ?_ ?_
      · intro t a t' ht hI hstep
        exact (queueCapacity_step (wf_of_reach ht) hstep).trans hI
      · obtain ⟨-, rfl | rfl⟩ := build_eq_ok hbuild
        · exact hb
        · exact hb
    have hroom := oneRoom_of_reach (hlater.reach hinit) hsame
    rw [hroom.overtakers_eq_nil hjob]
    exact Nat.le_refl 0

end Step

/-- With room for one job, in a pool of one worker. -/
theorem overtaking_bounded_one :
    ∃ n, ∀ (b : ThreadPoolBuilder) (s₀ s : Pool ℕ), b.queueCapacity = some 1 →
      b.maximumPoolSize = 1 → build b = .ok s₀ → (machine ℕ).Later s₀ s →
      ∀ job ∈ s.queuedJobs, (s.overtakers job).length ≤ n :=
  (overtaking_bounded_iff Nat.one_pos Nat.one_pos).mpr rfl

/-- With room for two jobs, in a pool of one worker, there is no bound. -/
theorem overtaking_unbounded_two :
    ¬∃ n, ∀ (b : ThreadPoolBuilder) (s₀ s : Pool ℕ), b.queueCapacity = some 2 →
      b.maximumPoolSize = 1 → build b = .ok s₀ → (machine ℕ).Later s₀ s →
      ∀ job ∈ s.queuedJobs, (s.overtakers job).length ≤ n := by
  rintro ⟨n, hn⟩
  obtain ⟨job, s, hlater, hjob, hlength⟩ := @exists_overtakers ℕ _ _ 1 2 (by decide) (n + 1)
  have hle := hn (.coreless 1 2) _ s rfl rfl (build_coreless 1 2 (by decide) (by decide)) hlater
    job hjob
  omega

end ThreadPool

end QubitConcurrent
