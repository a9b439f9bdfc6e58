import QubitConcurrent.FixedPool.Accounting
import QubitConcurrent.FixedPool.Report
import QubitConcurrent.Lib.Contract

/-!
# What a fixed pool promises

In a fixed pool no lock is held while a job is accepted, claimed, run or cancelled, and nobody has
an overview. Still a fixed pool promises what the other services do
(`QubitConcurrent.FixedPool.keeps_contract`): the door is its gate, `accepting`, and it is the third
look at the gate by which a job is taken on; and since every job is in one pair of hands only
(`QubitConcurrent.Custody.Balanced`), nobody can start or cancel it but who has it.
-/

namespace QubitConcurrent

namespace FixedPool

open Custody (Load)

open Contract (Act)

variable {s s' : Inner} {k : ℕ} {c : Choice} {p p' : Pool} {job : Job}

/-! ### How jobs stand -/

/-- Whether a thread runs a job. -/
def Thread.runs (t : Thread) (job : Job) : Bool := t == .worker (.running job)

/-- How many threads run a job. -/
def Pool.running (p : Pool) (job : Job) : ℕ := p.threads.countP fun t => t.runs job

/-- How a job stands. -/
def Pool.standing (p : Pool) (job : Job) : Standing :=
  if job ∉ p.acceptedJobs then .unknown
  else if job ∈ p.inner.cancelled then .cancelled
  else if job ∈ p.inner.ran then .over
  else if 0 < p.running job then .running
  else .waiting

/-- The pool, as its users see it. -/
def Pool.contract (p : Pool) : Contract Job := ⟨p.inner.accepting, p.standing⟩

/-- How a job stands is a matter of four things. -/
theorem Pool.standing_congr (haccepted : job ∈ p'.acceptedJobs ↔ job ∈ p.acceptedJobs)
    (hcancelled : job ∈ p'.inner.cancelled ↔ job ∈ p.inner.cancelled)
    (hran : job ∈ p'.inner.ran ↔ job ∈ p.inner.ran) (hrunning : p'.running job = p.running job) :
    p'.standing job = p.standing job := by
  simp only [standing, haccepted, hcancelled, hran, hrunning]

/-- A job was accepted if some party has brought it. -/
theorem Pool.mem_acceptedJobs :
    job ∈ p.acceptedJobs ↔ 0 < Custody.total p.loads Load.accepted job := by
  rw [Custody.total_eq_count, List.count_pos_iff]
  rfl

/-- What a thread has is among what all have. -/
theorem Pool.load_of_thread {t : Thread} (hk : p.threads[k]? = some t) :
    p.loads[k]? = some t.load := by
  rw [loads, List.getElem?_map, hk, Option.map_some]

/-- Where one thread moves, what it has changes. -/
theorem Pool.loads_set (p : Pool) (s' : Inner) (k : ℕ) (t' : Thread) :
    Pool.loads ⟨s', p.threads.set k t'⟩ = p.loads.set k t'.load := by
  simp only [loads, List.map_set]

/-- Where one thread moves, what was accepted changes by what that thread has brought. -/
theorem Pool.mem_acceptedJobs_set (s' : Inner) {t : Thread} (t' : Thread) (job : Job)
    (hk : p.threads[k]? = some t)
    (hsame : t'.load.accepted.count job = t.load.accepted.count job) :
    job ∈ Pool.acceptedJobs ⟨s', p.threads.set k t'⟩ ↔ job ∈ p.acceptedJobs := by
  obtain ⟨n, hbefore, hafter⟩ :=
    Custody.total_set (load_of_thread hk) t'.load Load.accepted job
  rw [mem_acceptedJobs, mem_acceptedJobs, loads_set, hbefore, hafter, hsame]

/-- Where one thread moves, the number of those who run a job changes by that thread. -/
theorem Pool.running_set {t t' : Thread} (hk : p.threads[k]? = some t)
    (hsame : t'.runs job = t.runs job) :
    Pool.running ⟨s', p.threads.set k t'⟩ job = p.running job := by
  obtain ⟨n, hbefore, hafter⟩ := countP_set_toNat (fun t => t.runs job) hk t'
  rw [running, running, hbefore, hafter, hsame]

/-- Who runs a job has it, and has accounted for it. -/
theorem countP_runs_le (threads : List Thread) (job : Job) :
    (threads.countP fun t => t.runs job) ≤
      Custody.total (threads.map Thread.load) Load.owned job := by
  induction threads with
  | nil => exact Nat.zero_le _
  | cons t threads ih =>
    have hone : (if t.runs job then 1 else 0) ≤ t.load.owned.count job := by
      split_ifs with hruns
      · rw [beq_iff_eq.mp hruns]
        simp [Thread.load, WorkerPhase.load, WorkerPhase.owned]
      · exact Nat.zero_le _
    rw [List.countP_cons]
    simp only [Custody.total, List.map_cons, List.sum_cons] at ih ⊢
    omega

/-- **Who has accounted for a job is the only one who has it**: the job was accepted, and is not
over. -/
theorem Pool.Sound.of_owned (h : p.Sound) {t : Thread} (hk : p.threads[k]? = some t)
    (howned : job ∈ t.load.owned) :
    job ∈ p.acceptedJobs ∧ job ∉ p.inner.cancelled ∧ job ∉ p.inner.ran ∧
      p.running job = (t.runs job).toNat := by
  have honce := h.books.once h.nodup_accepted job
  have hpos : 0 < t.load.owned.count job := List.count_pos_iff.mpr howned
  -- what is left of the others, if this thread is taken away
  obtain ⟨n, hbefore, hafter⟩ :=
    Custody.total_set (load_of_thread hk) (Thread.load (.worker .exited)) Load.owned job
  obtain ⟨m, hrun, hrun'⟩ := countP_set_toNat (fun t => t.runs job) hk (.worker .exited)
  have hle := countP_runs_le (p.threads.set k (.worker .exited)) job
  rw [List.map_set] at hle
  have hdone : (p.inner.ran ++ p.inner.cancelled).count job = 0 := by
    change _ + (_ + (p.inner.ran ++ p.inner.cancelled).count job) ≤ 1 at honce
    omega
  refine ⟨?_, fun hmem => ?_, fun hmem => ?_, ?_⟩
  · refine h.accepted_of_accounted (List.mem_append_left _ (List.count_pos_iff.mp ?_))
    rw [← Custody.total_eq_count]
    omega
  · exact List.count_eq_zero.mp hdone (List.mem_append_right _ hmem)
  · exact List.count_eq_zero.mp hdone (List.mem_append_left _ hmem)
  · have hnone : m = 0 := by
      have hexited : ((Thread.load (.worker .exited)).owned.count job) = 0 := rfl
      rw [hrun', ← Pool.loads, hafter] at hle
      omega
    rw [Pool.running, hrun, hnone, Nat.zero_add]

/-! ### What a thread does to the jobs -/

/-- The jobs that were run, those that were cancelled, and the gate are the same. -/
structure Calls (s s' : Inner) : Prop where
  /-- The jobs that were run. -/
  ran : s'.ran = s.ran
  /-- The jobs that were cancelled. -/
  cancelled : s'.cancelled = s.cancelled
  /-- The gate. -/
  accepting : s'.accepting = s.accepting

namespace Calls

theorem refl (s : Inner) : Calls s s := ⟨rfl, rfl, rfl⟩

theorem setJobsAt (s : Inner) (jobs : List Job) (place : Place) :
    Calls s (s.setJobsAt jobs place) := by
  cases place <;> exact ⟨rfl, rfl, rfl⟩

theorem claim {φ : Type} {place : Place} {batch : ℕ} {empty q : φ} {found : Job → List Job → φ}
    (h : s.claim place batch empty found = some (s', q)) : Calls s s' := by
  rcases Inner.claim_cases h with ⟨-, rfl, -⟩ | ⟨job, rest, -, rfl, -⟩
  · exact refl _
  · exact setJobsAt ..

theorem push {place : Place} {jobs : List Job} (h : s.push place jobs = some s') : Calls s s' := by
  obtain ⟨old, -, rfl⟩ := Option.map_eq_some_iff.mp h
  exact setJobsAt ..

theorem lock (h : s.lock k = some s') : Calls s s' := by
  obtain ⟨-, rfl⟩ := Inner.lock_cases h
  exact ⟨rfl, rfl, rfl⟩

theorem unpark (h : s.unpark k = some s') : Calls s s' := by
  obtain ⟨-, rfl⟩ := Inner.unpark_cases h
  exact ⟨rfl, rfl, rfl⟩

theorem notifyOne {target : ℕ} (h : s.notifyOne target = some s') : Calls s s' := by
  rcases Inner.notifyOne_cases h with ⟨-, rfl⟩ | ⟨-, rfl⟩ <;> exact ⟨rfl, rfl, rfl⟩

end Calls

/-- **What a step of a thread is to the jobs.** -/
inductive Deed (s s' : Inner) : Thread → Thread → Prop
  /-- Nothing. -/
  | aside {t t' : Thread} (hs : Calls s s') (haccepted : t'.load.accepted = t.load.accepted)
      (hruns : ∀ job, t'.runs job = t.runs job) : Deed s s' t t'
  /-- A job is accepted. -/
  | accept (job : Job) (hopen : s.accepting = true) (hs : s' = s) :
      Deed s s' (.submit job .reverifying) (.submit job .counting)
  /-- A job is started. -/
  | start (job : Job) (hs : Calls s s') :
      Deed s s' (.worker (.markingRunning job)) (.worker (.running job))
  /-- A job has run. -/
  | finish (job : Job) (hs : s' = { s with ran := s.ran ++ [job] }) :
      Deed s s' (.worker (.running job)) (.worker .finishing)
  /-- A job is cancelled. -/
  | cancel {t t' : Thread} (job : Job) (hs : s' = { s with cancelled := s.cancelled ++ [job] })
      (howned : job ∈ t.load.owned) (haccepted : t'.load.accepted = t.load.accepted)
      (hruns : ∀ job, t.runs job = false ∧ t'.runs job = false) : Deed s s' t t'
  /-- The gate is closed. -/
  | close {t t' : Thread} (hs : s' = { s with accepting := false })
      (haccepted : t'.load.accepted = t.load.accepted) (hruns : ∀ job, t'.runs job = t.runs job) :
      Deed s s' t t'

/-- Whether a worker runs a job. -/
def WorkerPhase.isRunning : WorkerPhase → Bool
  | running _ => true
  | _ => false

/-- Who does not run a job, does not. -/
theorem WorkerPhase.runs_eq_false {q : WorkerPhase} (h : q.isRunning = false) (job : Job) :
    Thread.runs (.worker q) job = false := by
  refine beq_eq_false_iff_ne.mpr fun heq => ?_
  obtain rfl := Thread.worker.inj heq
  cases h

namespace WorkerPhase

theorem isRunning_cancelAll (jobs : List Job) : (cancelAll jobs).isRunning = false := by
  cases jobs <;> rfl

theorem isRunning_resumed (again : Bool) : (resumed again).isRunning = false := by
  cases again <;> rfl

/-- A claim is nothing to the jobs. -/
theorem calls_claim {place : Place} {batch : ℕ} {empty q : WorkerPhase}
    {found : Job → List Job → WorkerPhase} (h : s.claim place batch empty found = some (s', q))
    (hempty : empty.isRunning = false) (hfound : ∀ job jobs, (found job jobs).isRunning = false) :
    Calls s s' ∧ q.isRunning = false := by
  refine ⟨Calls.claim h, ?_⟩
  rcases Inner.claim_cases h with ⟨-, -, rfl⟩ | ⟨job, rest, -, -, rfl⟩
  · exact hempty
  · exact hfound job _

/-- Whether the next step of a worker is one that matters to a job. -/
def acts : WorkerPhase → Bool
  | markingRunning _ | running _ | cancelling .cancelling _ _ => true
  | _ => false

/-- **Most of what a worker does is nothing to the jobs.** -/
theorem calls {q q' : WorkerPhase} (h : q.advance s k c = some (s', q')) (hq : q.acts = false) :
    Calls s s' ∧ q'.isRunning = false := by
  cases q with
  | markingRunning | running => cases hq
  | cancelling stage job rest =>
    cases stage with
    | cancelling => cases hq
    | uncounting | counting =>
      obtain ⟨rfl, rfl⟩ := Prod.mk.inj (Option.some.inj h)
      exact ⟨⟨rfl, rfl, rfl⟩, rfl⟩
    | announcing =>
      obtain ⟨rfl, rfl⟩ := Prod.mk.inj (Option.some.inj h)
      refine ⟨⟨rfl, rfl, rfl⟩, ?_⟩
      cases rest with
      | none => rfl
      | some jobs => exact isRunning_cancelAll jobs
  | stealingSingle =>
    rw [advance] at h
    exact calls_claim h (by split_ifs <;> rfl) fun _ _ => rfl
  | drainingInbox jobs =>
    rw [advance] at h
    exact calls_claim h (isRunning_cancelAll jobs) fun _ _ => rfl
  | poppingLocal | poppingInbox | stealingBatch | stealingLocal | stealingInbox | clearing
  | draining =>
    rw [advance] at h
    exact calls_claim h rfl fun _ _ => rfl
  | choosing =>
    obtain ⟨queue, -, h⟩ := Option.bind_eq_some_iff.mp h
    split_ifs at h <;> obtain ⟨rfl, rfl⟩ := Prod.mk.inj (Option.some.inj h) <;>
      exact ⟨⟨rfl, rfl, rfl⟩, rfl⟩
  | scanning start offset =>
    rw [advance] at h
    split_ifs at h
    · obtain ⟨victim, -, h⟩ := Option.bind_eq_some_iff.mp h
      obtain ⟨rfl, rfl⟩ := Prod.mk.inj (Option.some.inj h)
      exact ⟨Calls.refl _, by split_ifs <;> rfl⟩
    · obtain ⟨rfl, rfl⟩ := Prod.mk.inj (Option.some.inj h)
      exact ⟨Calls.refl _, rfl⟩
  | publishing job batch spread =>
    obtain ⟨ht, rfl⟩ := Inner.then_cases h
    exact ⟨Calls.push ht, by split_ifs <;> rfl⟩
  | spreading job =>
    obtain ⟨jobs, -, h⟩ := Option.bind_eq_some_iff.mp h
    obtain ⟨rfl, rfl⟩ := Prod.mk.inj (Option.some.inj h)
    exact ⟨Calls.refl _, by split_ifs <;> rfl⟩
  | waking job =>
    obtain ⟨ht, rfl⟩ := Inner.then_cases h
    exact ⟨Calls.notifyOne ht, rfl⟩
  | locking =>
    obtain ⟨ht, rfl⟩ := Inner.then_cases h
    exact ⟨Calls.lock ht, rfl⟩
  | parked =>
    obtain ⟨ht, rfl⟩ := Inner.then_cases h
    exact ⟨Calls.unpark ht, rfl⟩
  | consumingFrom =>
    rw [advance] at h
    split_ifs at h <;> obtain ⟨rfl, rfl⟩ := Prod.mk.inj (Option.some.inj h)
    · exact ⟨⟨rfl, rfl, rfl⟩, isRunning_resumed _⟩
    · exact ⟨⟨rfl, rfl, rfl⟩, isRunning_resumed _⟩
    · exact ⟨⟨rfl, rfl, rfl⟩, rfl⟩
  | consuming =>
    obtain ⟨rfl, rfl⟩ := Prod.mk.inj (Option.some.inj h)
    refine ⟨Calls.refl _, ?_⟩
    split_ifs
    · exact isRunning_resumed _
    · rfl
  | leaving =>
    rw [advance] at h
    split_ifs at h
    obtain ⟨rfl, rfl⟩ := Prod.mk.inj (Option.some.inj h)
    exact ⟨⟨rfl, rfl, rfl⟩, rfl⟩
  | judging =>
    obtain ⟨rfl, rfl⟩ := Prod.mk.inj (Option.some.inj h)
    refine ⟨Calls.refl _, ?_⟩
    cases s.lifecycle with
    | running | shutdown => split_ifs <;> rfl
    | stopping => rfl
  | exited => cases h
  | taking | accepting | completing | settling | rejudging | judgingInflight | recheckingQueued
  | recheckingInflight | recheckingPending | unlocking =>
    obtain ⟨rfl, rfl⟩ := Prod.mk.inj (Option.some.inj h)
    exact ⟨⟨rfl, rfl, rfl⟩, by split_ifs <;> rfl⟩
  | activating | deactivating | marking | finishing | announcing | idling | parking | unmarking
  | exiting =>
    obtain ⟨rfl, rfl⟩ := Prod.mk.inj (Option.some.inj h)
    exact ⟨⟨rfl, rfl, rfl⟩, rfl⟩

/-- What a worker does to the jobs. -/
theorem deed {q q' : WorkerPhase} (h : q.advance s k c = some (s', q')) :
    Deed s s' (.worker q) (.worker q') := by
  cases hacts : q.acts with
  | false =>
    obtain ⟨hs, hq'⟩ := calls h hacts
    have hq : q.isRunning = false := by
      cases q with
      | running => cases hacts
      | _ => rfl
    exact .aside hs rfl fun job => by rw [runs_eq_false hq, runs_eq_false hq']
  | true =>
    cases q with
    | markingRunning job =>
      obtain ⟨rfl, rfl⟩ := Prod.mk.inj (Option.some.inj h)
      exact .start job ⟨rfl, rfl, rfl⟩
    | running job =>
      obtain ⟨rfl, rfl⟩ := Prod.mk.inj (Option.some.inj h)
      exact .finish job rfl
    | cancelling stage job rest =>
      cases stage with
      | cancelling =>
        obtain ⟨rfl, rfl⟩ := Prod.mk.inj (Option.some.inj h)
        exact .cancel job rfl (List.mem_singleton_self job) rfl fun job =>
          ⟨runs_eq_false rfl job, runs_eq_false rfl job⟩
      | _ => cases hacts
    | _ => cases hacts

end WorkerPhase

/-- What a submission does to the jobs. -/
theorem SubmitPhase.Turn.deed {q q' : SubmitPhase} (h : Turn s s' job c q q') :
    Deed s s' (.submit job q) (.submit job q') := by
  cases h with
  | accept hopen hs => exact .accept job hopen hs
  | route hq hq' submitted next hs =>
    subst hs
    refine .aside ⟨rfl, rfl, rfl⟩ ?_ fun _ => rfl
    simp only [Thread.load, load, isAccepted_of_isRouting hq, isAccepted_of_isRouting hq']
  | push place hs => exact .aside (Calls.push hs) rfl fun _ => rfl
  | notify hs => exact .aside (Calls.notifyOne hs) rfl fun _ => rfl
  | dropLast result _ hs | drop result _ hs | dropOpen result _ hs | dropClosed result hs
  | dropAnnounce result hs =>
    subst hs
    refine .aside ⟨rfl, rfl, rfl⟩ ?_ fun _ => rfl
    cases result <;> rfl
  | _ =>
    subst_vars
    exact .aside ⟨rfl, rfl, rfl⟩ rfl fun _ => rfl

/-- What a `shutdown` does to the jobs. -/
theorem ShutdownPhase.deed {q q' : ShutdownPhase} (h : q.advance s = some (s', q')) :
    Deed s s' (.shutdown q) (.shutdown q') := by
  cases q with
  | closing =>
    obtain ⟨rfl, rfl⟩ := Prod.mk.inj (Option.some.inj h)
    exact .close rfl rfl fun _ => rfl
  | switching =>
    rw [advance] at h
    split_ifs at h <;> obtain ⟨rfl, rfl⟩ := Prod.mk.inj (Option.some.inj h) <;>
      exact .aside ⟨rfl, rfl, rfl⟩ rfl fun _ => rfl
  | announcing =>
    obtain ⟨rfl, rfl⟩ := Prod.mk.inj (Option.some.inj h)
    exact .aside ⟨rfl, rfl, rfl⟩ rfl fun _ => rfl
  | returned => cases h

/-- What a `shutdown_now` does to the jobs. -/
theorem ShutdownNowPhase.Turn.deed {q q' : ShutdownNowPhase} (h : Turn s s' k q q') :
    Deed s s' (.shutdownNow q) (.shutdownNow q') := by
  cases h with
  | close hs => exact .close hs rfl fun _ => rfl
  | drain running jobs previous place hs => exact .aside (Calls.claim hs) rfl fun _ => rfl
  | cancel running count job jobs hs =>
    exact .cancel job hs List.mem_cons_self rfl fun _ => ⟨rfl, rfl⟩
  | _ =>
    subst_vars
    exact .aside ⟨rfl, rfl, rfl⟩ rfl fun _ => rfl

/-- What somebody who asks for the end does to the jobs. -/
theorem TerminationPhase.deed {q q' : TerminationPhase} {waits : Bool}
    (h : q.advance s k waits = some (s', q')) :
    Deed s s' (.termination waits q) (.termination waits q') := by
  refine .aside ?_ rfl fun _ => rfl
  cases q with
  | locking =>
    obtain ⟨ht, -⟩ := Inner.then_cases h
    exact Calls.lock ht
  | parked =>
    obtain ⟨ht, -⟩ := Inner.then_cases h
    exact Calls.unpark ht
  | answering terminated =>
    rw [advance] at h
    split_ifs at h <;> obtain ⟨rfl, -⟩ := Prod.mk.inj (Option.some.inj h) <;>
      exact ⟨rfl, rfl, rfl⟩
  | returned => cases h
  | readingQueued | readingRunning | readingInflight =>
    obtain ⟨rfl, -⟩ := Prod.mk.inj (Option.some.inj h)
    exact Calls.refl _

/-- **What a thread does to the jobs.** -/
theorem Thread.deed {t t' : Thread} (h : t.advance s k c = some (s', t')) : Deed s s' t t' := by
  cases Thread.goes h with
  | worker hq => exact WorkerPhase.deed hq
  | submit hq => exact hq.deed
  | shutdown hq => exact ShutdownPhase.deed hq
  | shutdownNow hq => exact hq.deed
  | termination hq => exact TerminationPhase.deed hq

/-! ### Every step keeps the promise -/

/-- A job nobody has accepted yet is nowhere. -/
theorem Pool.Sound.of_unaccepted (h : p.Sound) (hjob : job ∉ p.acceptedJobs) :
    job ∉ p.inner.cancelled ∧ job ∉ p.inner.ran ∧ p.running job = 0 := by
  have hconserved := h.books.conserved job
  rw [Pool.mem_acceptedJobs] at hjob
  have hle := countP_runs_le p.threads job
  rw [← Pool.loads] at hle
  have hdone : (p.inner.ran ++ p.inner.cancelled).count job = 0 := by
    change _ + _ + _ + (p.inner.ran ++ p.inner.cancelled).count job = _ at hconserved
    omega
  rw [List.count_append, Nat.add_eq_zero_iff, List.count_eq_zero, List.count_eq_zero] at hdone
  refine ⟨hdone.2, hdone.1, ?_⟩
  rw [Pool.running]
  omega

/-- A job that a submission is about to have accepted was not accepted before. -/
theorem Pool.Sound.not_accepted (h : p.Sound)
    (hk : p.threads[k]? = some (.submit job .reverifying)) : job ∉ p.acceptedJobs := by
  intro hmem
  obtain ⟨l, hl, hjob⟩ := List.mem_flatMap.mp hmem
  obtain ⟨t, ht, rfl⟩ := List.mem_map.mp hl
  obtain ⟨i, hi⟩ := List.mem_iff_getElem?.mp ht
  cases t with
  | submit j q =>
    change job ∈ if q.isAccepted then [j] else [] at hjob
    split_ifs at hjob with haccepted
    · obtain rfl := List.mem_singleton.mp hjob
      -- it is the submission with the number of the job
      obtain rfl : i = k := (h.own i job q hi).symm.trans (h.own k job _ hk)
      obtain rfl := (Thread.submit.inj (Option.some.inj (hk.symm.trans hi))).2
      cases haccepted
    · cases hjob
  | _ => cases hjob

/-- **A step of a thread keeps the promise.** -/
theorem Deed.goes {t t' : Thread} (h : p.Sound) (hk : p.threads[k]? = some t)
    (hd : Deed p.inner s' t t') :
    Pool.contract ⟨s', p.threads.set k t'⟩ = p.contract ∨
      Contract.Goes Act.Orderly p.contract (Pool.contract ⟨s', p.threads.set k t'⟩) := by
  -- a job that the step is not about
  have hothers : ∀ i, (i ∈ s'.cancelled ↔ i ∈ p.inner.cancelled) →
      (i ∈ s'.ran ↔ i ∈ p.inner.ran) → t'.load.accepted.count i = t.load.accepted.count i →
      t'.runs i = t.runs i → Pool.standing ⟨s', p.threads.set k t'⟩ i = p.standing i :=
    fun i hcancelled hran haccepted hruns => Pool.standing_congr
      (Pool.mem_acceptedJobs_set _ _ i hk haccepted) hcancelled hran (Pool.running_set hk hruns)
  cases hd with
  | aside hs haccepted hruns =>
    refine Or.inl ?_
    have hstanding : Pool.standing ⟨s', p.threads.set k t'⟩ = p.standing := funext fun i =>
      hothers i (by rw [hs.cancelled]) (by rw [hs.ran]) (by rw [haccepted]) (hruns i)
    simp only [Pool.contract, hstanding, hs.accepting]
  | close hs haccepted hruns =>
    subst hs
    refine Or.inr (Contract.goes_close rfl rfl (funext fun i => ?_))
    exact hothers i Iff.rfl Iff.rfl (by rw [haccepted]) (hruns i)
  | accept job hopen hs =>
    subst hs
    have hnot := h.not_accepted hk
    obtain ⟨hcancelled, hran, hrunning⟩ := h.of_unaccepted hnot
    have hnow : job ∈ Pool.acceptedJobs ⟨p.inner, p.threads.set k (.submit job .counting)⟩ := by
      obtain ⟨n, -, hafter⟩ := Custody.total_set (Pool.load_of_thread hk)
        (Thread.load (.submit job .counting)) Load.accepted job
      rw [Pool.mem_acceptedJobs, Pool.loads_set, hafter]
      simp [Thread.load, SubmitPhase.load, SubmitPhase.isAccepted]
    have hrunning' : Pool.running ⟨p.inner, p.threads.set k (.submit job .counting)⟩ job = 0 :=
      Eq.trans (Pool.running_set hk rfl) hrunning
    refine Or.inr (Contract.goes_of (.accept job) rfl rfl ?_ ?_ (fun _ => hopen) rfl
      fun i hne => ?_)
    · simp [Pool.contract, Pool.standing, hnot, Act.leads]
    · simp [Pool.contract, Pool.standing, hnow, hcancelled, hran, hrunning', Act.leads]
    · refine hothers i Iff.rfl Iff.rfl ?_ rfl
      simp [Thread.load, SubmitPhase.load, SubmitPhase.isAccepted, hne.symm]
  | start job hs =>
    have howned : job ∈ (Thread.load (.worker (.markingRunning job))).owned :=
      List.mem_singleton_self job
    obtain ⟨haccepted, hcancelled, hran, hrunning⟩ := h.of_owned hk howned
    have hbefore : p.running job = 0 := hrunning
    have hafter : 0 < Pool.running ⟨s', p.threads.set k (.worker (.running job))⟩ job := by
      obtain ⟨n, -, hset⟩ := countP_set_toNat (fun t => t.runs job) hk (.worker (.running job))
      rw [Pool.running, hset]
      simp [Thread.runs]
    have hnow := (Pool.mem_acceptedJobs_set s' (.worker (.running job)) job hk rfl).mpr haccepted
    refine Or.inr (Contract.goes_of (.start job) rfl rfl ?_ ?_ (by simp) hs.accepting
      fun i hne => ?_)
    · simp [Pool.contract, Pool.standing, haccepted, hcancelled, hran, hbefore, Act.leads]
    · simp only [Pool.contract, Pool.standing, hnow, hs.cancelled, hcancelled, hs.ran, hran, hafter,
        Act.leads, not_true_eq_false, if_false, if_true]
    · refine hothers i (by rw [hs.cancelled]) (by rw [hs.ran]) rfl ?_
      simp [Thread.runs, hne.symm]
  | finish job hs =>
    subst hs
    have howned : job ∈ (Thread.load (.worker (.running job))).owned := List.mem_singleton_self job
    obtain ⟨haccepted, hcancelled, hran, hrunning⟩ := h.of_owned hk howned
    have hbefore : p.running job = 1 := hrunning.trans (by simp [Thread.runs])
    have hnow := (Pool.mem_acceptedJobs_set { p.inner with ran := p.inner.ran ++ [job] }
      (.worker .finishing) job hk rfl).mpr haccepted
    refine Or.inr (Contract.goes_of (.finish job) rfl rfl ?_ ?_ (by simp) rfl fun i hne => ?_)
    · simp [Pool.contract, Pool.standing, haccepted, hcancelled, hran, hbefore, Act.leads]
    · simp [Pool.contract, Pool.standing, hnow, hcancelled, Act.leads]
    · refine hothers i Iff.rfl (by simp [hne]) rfl ?_
      simp [Thread.runs, hne.symm]
  | cancel job hs howned haccepted hruns =>
    subst hs
    obtain ⟨hmem, hcancelled, hran, hrunning⟩ := h.of_owned hk howned
    have hbefore : p.running job = 0 := by rw [hrunning, (hruns job).1, Bool.toNat_false]
    have hnow := (Pool.mem_acceptedJobs_set
      { p.inner with cancelled := p.inner.cancelled ++ [job] } t' job hk
      (by rw [haccepted])).mpr hmem
    refine Or.inr (Contract.goes_of (.cancel job) rfl rfl ?_ ?_ (by simp) rfl fun i hne => ?_)
    · simp [Pool.contract, Pool.standing, hmem, hcancelled, hran, hbefore, Act.leads]
    · simp [Pool.contract, Pool.standing, hnow, Act.leads]
    · refine hothers i (by simp [hne]) Iff.rfl (by rw [haccepted]) ?_
      rw [(hruns i).1, (hruns i).2]

/-- Who calls is nothing to the jobs. -/
theorem Pool.contract_call (p : Pool) (call : Call) :
    Pool.contract { p with threads := p.threads ++ [call.thread p.threads.length] } =
      p.contract := by
  have hruns : ∀ k job, (call.thread k).runs job = false := by
    intro k job
    cases call <;> rfl
  refine congrArg (Contract.mk p.inner.accepting) (funext fun job => ?_)
  refine Pool.standing_congr ?_ Iff.rfl Iff.rfl ?_
  · rw [acceptedJobs, acceptedJobs, loads_call]
    simp [Custody.allAccepted, Load.none]
  · simp [running, hruns]

/-- **A fixed pool keeps the promise of an executor service.** -/
theorem keeps_contract : Contract.Keeps machine Act.Orderly Pool.contract where
  init p := by
    rintro ⟨poolSize, queueCapacity, stackSize, -, rfl⟩
    refine congrArg (Contract.mk true) (funext fun job => ?_)
    simp [Pool.standing, Pool.acceptedJobs, Custody.allAccepted, Pool.loads, Thread.load,
      WorkerPhase.load]
  step p a p' hp hstep := by
    rcases step_cases hstep with ⟨call, -, rfl⟩ | ⟨k, c, t, inner, t', -, hk, hadvance, rfl⟩ |
      ⟨k, -, -, rfl⟩
    · rw [p.contract_call call]
    · rcases Deed.goes (sound_of_reach hp) hk (Thread.deed hadvance) with hsame | hgoes
      · rw [hsame]
      · exact .single hgoes
    · rfl

/-- The observer of a pool knows the jobs that were accepted. -/
def watch : Pool → Action → Pool → List (Act Job) :=
  Contract.watch Pool.contract Pool.acceptedJobs

/-- **A callback is called once at most**, and not the one and the other. -/
theorem count_calls_le (h : machine.Reach p) (job : Job) :
    p.running job + p.inner.ran.count job + p.inner.cancelled.count job ≤ 1 := by
  have hsound := sound_of_reach h
  have honce := hsound.books.once hsound.nodup_accepted job
  have hle := countP_runs_le p.threads job
  rw [← Pool.loads] at hle
  change _ + (_ + (p.inner.ran ++ p.inner.cancelled).count job) ≤ 1 at honce
  rw [List.count_append] at honce
  rw [Pool.running]
  omega

end FixedPool

end QubitConcurrent
