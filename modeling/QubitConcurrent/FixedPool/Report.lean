import QubitConcurrent.FixedPool.Accounting

/-!
# What a `shutdown_now` reports

Once `stop_now` is set, jobs are cancelled by two parties. The `shutdown_now` cancels those it
drains from the queues, and reports how many they were. A worker that has claimed a job and finds
`stop_now` set cancels that job, and those that are left in its own queues
(`cancel_claimed_job`). Both add to `cancelled_task_count`, but nothing goes from the workers into
the report.

So the count is made up of what was drained and of what the workers have cancelled, and the
report of the only `shutdown_now` is the count, after the end, exactly if no worker has cancelled
a job.
-/

namespace QubitConcurrent

namespace FixedPool

open ThreadPool (ShutdownReport)

variable {s s' : Inner} {k : ℕ} {c : Choice} {p p' : Pool}

/-! ### Who counts, and who is to cancel -/

/-- A worker has begun `cancel_claimed_job`, and is to count the job. -/
def WorkerPhase.counts : WorkerPhase → ℕ
  | cancelling .counting _ _ => 1
  | _ => 0

/-- A worker has counted a job as cancelled, and is to cancel it. -/
def WorkerPhase.owes : WorkerPhase → ℕ
  | cancelling .cancelling _ _ => 1
  | _ => 0

/-- A worker is about to begin `cancel_claimed_job`. -/
def WorkerPhase.callsCancel : WorkerPhase → Bool
  | cancelling .uncounting _ _ => true
  | _ => false

/-- What a `shutdown_now` has counted as cancelled, and will report. -/
def ShutdownNowPhase.reported : ShutdownNowPhase → ℕ
  | cancelling _ count _ | announcing _ count => count
  | returned report => report.cancelled
  | _ => 0

/-- The number of jobs that a `shutdown_now` has counted, and is to cancel. -/
def ShutdownNowPhase.owes : ShutdownNowPhase → ℕ
  | cancelling _ _ jobs => jobs.length
  | _ => 0

namespace Thread

/-- The number of jobs that a thread has begun to cancel by itself, and is to count. -/
def counts : Thread → ℕ
  | worker q => q.counts
  | _ => 0

/-- The number of jobs that a thread has counted as cancelled, and is to cancel. -/
def owes : Thread → ℕ
  | worker q => q.owes
  | shutdownNow q => q.owes
  | _ => 0

/-- What a thread has counted as cancelled, and will report. -/
def reported : Thread → ℕ
  | shutdownNow q => q.reported
  | _ => 0

/-- Whether a thread is a worker that is about to begin `cancel_claimed_job`. -/
def callsCancel : Thread → Bool
  | worker q => q.callsCancel
  | _ => false

/-- Whether a thread has called `shutdown_now`. -/
def isShutdownNow : Thread → Bool
  | shutdownNow _ => true
  | _ => false

end Thread

/-- Whether a step is the first of a worker in `cancel_claimed_job`. -/
def Action.callsCancel (p : Pool) : Action → Bool
  | .go k _ => (p.threads[k]?).any Thread.callsCancel
  | _ => false

/-! ### What a step adds -/

/-- Nothing is cancelled, and nothing counted as such. -/
structure Spares (s s' : Inner) : Prop where
  /-- The count. -/
  count : s'.cancelledTaskCount = s.cancelledTaskCount
  /-- The jobs. -/
  jobs : s'.cancelled = s.cancelled

namespace Spares

theorem refl (s : Inner) : Spares s s := ⟨rfl, rfl⟩

theorem setJobsAt (s : Inner) (jobs : List Job) (p : Place) : Spares s (s.setJobsAt jobs p) := by
  cases p <;> exact ⟨rfl, rfl⟩

theorem claim {φ : Type} {p : Place} {batch : ℕ} {empty q : φ} {found : Job → List Job → φ}
    (h : s.claim p batch empty found = some (s', q)) : Spares s s' := by
  rcases Inner.claim_cases h with ⟨-, rfl, -⟩ | ⟨job, rest, -, rfl, -⟩
  · exact refl _
  · exact setJobsAt ..

theorem push {p : Place} {jobs : List Job} (h : s.push p jobs = some s') : Spares s s' := by
  obtain ⟨old, -, rfl⟩ := Option.map_eq_some_iff.mp h
  exact setJobsAt ..

theorem lock (h : s.lock k = some s') : Spares s s' := by
  obtain ⟨-, rfl⟩ := Inner.lock_cases h
  exact ⟨rfl, rfl⟩

theorem unpark (h : s.unpark k = some s') : Spares s s' := by
  obtain ⟨-, rfl⟩ := Inner.unpark_cases h
  exact ⟨rfl, rfl⟩

theorem notifyOne {target : ℕ} (h : s.notifyOne target = some s') : Spares s s' := by
  rcases Inner.notifyOne_cases h with ⟨-, rfl⟩ | ⟨-, rfl⟩ <;> exact ⟨rfl, rfl⟩

end Spares

/-- **What a step adds to the accounts of cancellation**: what is counted is what is reported, or
what the workers have begun to cancel; and what is counted is cancelled, or to be cancelled. -/
structure Adds (s s' : Inner) (t t' : Thread) : Prop where
  /-- The count, and what it is to be. -/
  count : s'.cancelledTaskCount + t'.counts + t.reported =
    s.cancelledTaskCount + t.counts + t'.reported + t.callsCancel.toNat
  /-- The jobs, and what they are to be. -/
  jobs : s'.cancelledTaskCount + s.cancelled.length + t.owes =
    s.cancelledTaskCount + s'.cancelled.length + t'.owes

/-- A step that spares the jobs, of a thread that is not about to cancel any before or after. -/
theorem Spares.adds {t t' : Thread} (h : Spares s s') (hcounts : t'.counts = t.counts)
    (howes : t'.owes = t.owes) (hreported : t'.reported = t.reported)
    (hcalls : t.callsCancel = false) : Adds s s' t t' where
  count := by rw [h.count, hcounts, hreported, hcalls, Bool.toNat_false, Nat.add_zero]
  jobs := by rw [h.count, h.jobs, howes]

namespace WorkerPhase

/-- Whether a worker has begun `cancel_claimed_job`, and has not cancelled the job yet. -/
def isCancelling : WorkerPhase → Bool
  | cancelling .counting _ _ | cancelling .cancelling _ _ => true
  | _ => false

/-- Who has not begun is not to count, nor to cancel. -/
theorem counts_eq_zero {q : WorkerPhase} (h : q.isCancelling = false) :
    q.counts = 0 ∧ q.owes = 0 := by
  cases q with
  | cancelling stage job rest =>
    cases stage with
    | counting | cancelling => cases h
    | uncounting | announcing => exact ⟨rfl, rfl⟩
  | _ => exact ⟨rfl, rfl⟩

theorem isCancelling_cancelAll (jobs : List Job) : (cancelAll jobs).isCancelling = false := by
  cases jobs <;> rfl

theorem isCancelling_resumed (again : Bool) : (resumed again).isCancelling = false := by
  cases again <;> rfl

/-- A claim cancels nothing. -/
theorem spares_claim {p : Place} {batch : ℕ} {empty q : WorkerPhase}
    {found : Job → List Job → WorkerPhase} (h : s.claim p batch empty found = some (s', q))
    (hempty : empty.isCancelling = false)
    (hfound : ∀ job jobs, (found job jobs).isCancelling = false) :
    Spares s s' ∧ q.isCancelling = false := by
  refine ⟨Spares.claim h, ?_⟩
  rcases Inner.claim_cases h with ⟨-, -, rfl⟩ | ⟨job, rest, -, -, rfl⟩
  · exact hempty
  · exact hfound job _

/-- **Outside `cancel_claimed_job` a worker cancels nothing**, and counts nothing as cancelled. -/
theorem spares {q q' : WorkerPhase} (h : q.advance s k c = some (s', q'))
    (hq : ∀ stage job rest, q ≠ cancelling stage job rest) :
    Spares s s' ∧ q'.isCancelling = false := by
  cases q with
  | cancelling stage job rest => exact absurd rfl (hq stage job rest)
  | stealingSingle =>
    rw [advance] at h
    exact spares_claim h (by split_ifs <;> rfl) fun _ _ => rfl
  | drainingInbox jobs =>
    rw [advance] at h
    exact spares_claim h (isCancelling_cancelAll jobs) fun _ _ => rfl
  | poppingLocal | poppingInbox | stealingBatch | stealingLocal | stealingInbox | clearing
  | draining =>
    rw [advance] at h
    exact spares_claim h rfl fun _ _ => rfl
  | choosing =>
    obtain ⟨queue, -, h⟩ := Option.bind_eq_some_iff.mp h
    split_ifs at h <;> obtain ⟨rfl, rfl⟩ := Prod.mk.inj (Option.some.inj h) <;>
      exact ⟨⟨rfl, rfl⟩, rfl⟩
  | scanning start offset =>
    rw [advance] at h
    split_ifs at h
    · obtain ⟨victim, -, h⟩ := Option.bind_eq_some_iff.mp h
      obtain ⟨rfl, rfl⟩ := Prod.mk.inj (Option.some.inj h)
      exact ⟨Spares.refl _, by split_ifs <;> rfl⟩
    · obtain ⟨rfl, rfl⟩ := Prod.mk.inj (Option.some.inj h)
      exact ⟨Spares.refl _, rfl⟩
  | publishing job batch spread =>
    obtain ⟨ht, rfl⟩ := Inner.then_cases h
    exact ⟨Spares.push ht, by split_ifs <;> rfl⟩
  | spreading job =>
    obtain ⟨jobs, -, h⟩ := Option.bind_eq_some_iff.mp h
    obtain ⟨rfl, rfl⟩ := Prod.mk.inj (Option.some.inj h)
    exact ⟨Spares.refl _, by split_ifs <;> rfl⟩
  | waking job =>
    obtain ⟨ht, rfl⟩ := Inner.then_cases h
    exact ⟨Spares.notifyOne ht, rfl⟩
  | locking =>
    obtain ⟨ht, rfl⟩ := Inner.then_cases h
    exact ⟨Spares.lock ht, rfl⟩
  | parked =>
    obtain ⟨ht, rfl⟩ := Inner.then_cases h
    exact ⟨Spares.unpark ht, rfl⟩
  | consumingFrom =>
    rw [advance] at h
    split_ifs at h <;> obtain ⟨rfl, rfl⟩ := Prod.mk.inj (Option.some.inj h)
    · exact ⟨⟨rfl, rfl⟩, isCancelling_resumed _⟩
    · exact ⟨⟨rfl, rfl⟩, isCancelling_resumed _⟩
    · exact ⟨⟨rfl, rfl⟩, rfl⟩
  | consuming =>
    obtain ⟨rfl, rfl⟩ := Prod.mk.inj (Option.some.inj h)
    refine ⟨Spares.refl _, ?_⟩
    split_ifs
    · exact isCancelling_resumed _
    · rfl
  | leaving =>
    rw [advance] at h
    split_ifs at h
    obtain ⟨rfl, rfl⟩ := Prod.mk.inj (Option.some.inj h)
    exact ⟨⟨rfl, rfl⟩, rfl⟩
  | judging =>
    obtain ⟨rfl, rfl⟩ := Prod.mk.inj (Option.some.inj h)
    refine ⟨Spares.refl _, ?_⟩
    cases s.lifecycle with
    | running | shutdown => split_ifs <;> rfl
    | stopping => rfl
  | exited => cases h
  | taking | accepting | completing | settling | rejudging | judgingInflight | recheckingQueued
  | recheckingInflight | recheckingPending | unlocking =>
    obtain ⟨rfl, rfl⟩ := Prod.mk.inj (Option.some.inj h)
    exact ⟨⟨rfl, rfl⟩, by split_ifs <;> rfl⟩
  | activating | deactivating | marking | markingRunning | running | finishing | announcing
  | idling | parking | unmarking | exiting =>
    obtain ⟨rfl, rfl⟩ := Prod.mk.inj (Option.some.inj h)
    exact ⟨⟨rfl, rfl⟩, rfl⟩

/-- What a worker adds. -/
theorem adds {q q' : WorkerPhase} (h : q.advance s k c = some (s', q')) :
    Adds s s' (.worker q) (.worker q') := by
  by_cases hq : ∀ stage job rest, q ≠ cancelling stage job rest
  · obtain ⟨hspares, hq'⟩ := spares h hq
    obtain ⟨hcounts', howes'⟩ := counts_eq_zero hq'
    have hbefore : q.counts = 0 ∧ q.owes = 0 ∧ q.callsCancel = false := by
      cases q with
      | cancelling stage job rest => exact absurd rfl (hq stage job rest)
      | _ => exact ⟨rfl, rfl, rfl⟩
    exact hspares.adds (hcounts'.trans hbefore.1.symm) (howes'.trans hbefore.2.1.symm) rfl
      hbefore.2.2
  · -- in `cancel_claimed_job`, stage by stage
    push Not at hq
    obtain ⟨stage, job, rest, rfl⟩ := hq
    cases stage with
    | uncounting =>
      obtain ⟨rfl, rfl⟩ := Prod.mk.inj (Option.some.inj h)
      exact ⟨rfl, rfl⟩
    | counting =>
      obtain ⟨rfl, rfl⟩ := Prod.mk.inj (Option.some.inj h)
      exact ⟨rfl, by simp [Thread.owes, owes]; omega⟩
    | cancelling =>
      obtain ⟨rfl, rfl⟩ := Prod.mk.inj (Option.some.inj h)
      exact ⟨rfl, by simp [Thread.owes, owes]; omega⟩
    | announcing =>
      obtain ⟨rfl, rfl⟩ := Prod.mk.inj (Option.some.inj h)
      have hdone : (rest.elim clearing cancelAll).isCancelling = false := by
        cases rest with
        | none => rfl
        | some jobs => exact isCancelling_cancelAll jobs
      obtain ⟨hcounts, howes⟩ := counts_eq_zero hdone
      exact Spares.adds ⟨rfl, rfl⟩ hcounts howes rfl rfl

end WorkerPhase

/-- What a `shutdown_now` adds. -/
theorem ShutdownNowPhase.Turn.adds {q q' : ShutdownNowPhase} (h : Turn s s' k q q') :
    Adds s s' (.shutdownNow q) (.shutdownNow q') := by
  cases h with
  | drain running jobs previous place hs =>
    have hdrained : q'.reported = 0 ∧ q'.owes = 0 := by
      rcases Inner.claim_cases hs with ⟨-, -, rfl⟩ | ⟨job, rest, -, -, rfl⟩
      · unfold drainNext
        split
        · exact ⟨rfl, rfl⟩
        · split_ifs
          · cases jobs <;> exact ⟨rfl, rfl⟩
          · exact ⟨rfl, rfl⟩
      · exact ⟨rfl, rfl⟩
    exact (Spares.claim hs).adds rfl hdrained.2 hdrained.1 rfl
  | countCancelled running jobs hs =>
    subst hs
    refine ⟨?_, ?_⟩
    · simp [Thread.counts, Thread.reported, reported, Thread.callsCancel]
    · simp [Thread.owes, owes]
      omega
  | cancel running count job jobs hs =>
    subst hs
    refine ⟨rfl, ?_⟩
    simp [Thread.owes, owes]
    omega
  | _ =>
    subst_vars
    exact Spares.adds ⟨rfl, rfl⟩ rfl rfl rfl rfl

/-- A submission cancels nothing. -/
theorem SubmitPhase.Turn.spares {q q' : SubmitPhase} {job : Job} (h : Turn s s' job c q q') :
    Spares s s' := by
  cases h with
  | push place hs => exact Spares.push hs
  | notify hs => exact Spares.notifyOne hs
  | _ =>
    subst_vars
    exact ⟨rfl, rfl⟩

/-- A `shutdown` cancels nothing. -/
theorem ShutdownPhase.spares {q q' : ShutdownPhase} (h : q.advance s = some (s', q')) :
    Spares s s' := by
  cases q with
  | switching =>
    rw [advance] at h
    split_ifs at h <;> obtain ⟨rfl, -⟩ := Prod.mk.inj (Option.some.inj h) <;> exact ⟨rfl, rfl⟩
  | returned => cases h
  | closing | announcing =>
    obtain ⟨rfl, -⟩ := Prod.mk.inj (Option.some.inj h)
    exact ⟨rfl, rfl⟩

/-- Whoever asks for the end cancels nothing. -/
theorem TerminationPhase.spares {q q' : TerminationPhase} {waits : Bool}
    (h : q.advance s k waits = some (s', q')) : Spares s s' := by
  cases q with
  | locking =>
    obtain ⟨ht, -⟩ := Inner.then_cases h
    exact Spares.lock ht
  | parked =>
    obtain ⟨ht, -⟩ := Inner.then_cases h
    exact Spares.unpark ht
  | answering terminated =>
    rw [advance] at h
    split_ifs at h <;> obtain ⟨rfl, -⟩ := Prod.mk.inj (Option.some.inj h) <;> exact ⟨rfl, rfl⟩
  | returned => cases h
  | readingQueued | readingRunning | readingInflight =>
    obtain ⟨rfl, -⟩ := Prod.mk.inj (Option.some.inj h)
    exact Spares.refl _

/-- **What any thread adds.** -/
theorem Thread.adds {t t' : Thread} (h : t.advance s k c = some (s', t')) : Adds s s' t t' := by
  cases Thread.goes h with
  | worker hq => exact WorkerPhase.adds hq
  | submit hq => exact hq.spares.adds rfl rfl rfl rfl
  | shutdown hq => exact (ShutdownPhase.spares hq).adds rfl rfl rfl rfl
  | shutdownNow hq => exact hq.adds
  | termination hq => exact (TerminationPhase.spares hq).adds rfl rfl rfl rfl

/-! ### The accounts of cancellation -/

/-- What there is of something, over all threads. -/
def Pool.total (p : Pool) (f : Thread → ℕ) : ℕ := (p.threads.map f).sum

/-- The accounts before and after a step, in the large. -/
structure Pool.Adds (p p' : Pool) (calls : ℕ) : Prop where
  /-- The count, and what it is to be. -/
  count : p'.inner.cancelledTaskCount + p'.total Thread.counts + p.total Thread.reported =
    p.inner.cancelledTaskCount + p.total Thread.counts + p'.total Thread.reported + calls
  /-- The jobs, and what they are to be. -/
  jobs : p'.inner.cancelledTaskCount + p.inner.cancelled.length + p.total Thread.owes =
    p.inner.cancelledTaskCount + p'.inner.cancelled.length + p'.total Thread.owes

/-- Nobody brings anything to the accounts. -/
theorem Pool.total_call (p : Pool) (call : Call) {f : Thread → ℕ}
    (hf : f (call.thread p.threads.length) = 0) :
    Pool.total { p with threads := p.threads ++ [call.thread p.threads.length] } f = p.total f := by
  rw [total, total, List.map_append, List.sum_append, List.map_singleton, List.sum_singleton, hf,
    Nat.add_zero]

/-- **Every step keeps the accounts**, but for a worker that begins to cancel a job. -/
theorem Pool.adds {a : Action} (hstep : step p a = some p') :
    p.Adds p' (a.callsCancel p).toNat := by
  rcases step_cases hstep with ⟨call, rfl, rfl⟩ | ⟨k, c, t, s', t', rfl, hk, hadvance, rfl⟩ |
    ⟨k, rfl, -, rfl⟩
  · have hcounts := p.total_call call (f := Thread.counts) (by cases call <;> rfl)
    have howes := p.total_call call (f := Thread.owes) (by cases call <;> rfl)
    have hreported := p.total_call call (f := Thread.reported) (by cases call <;> rfl)
    exact ⟨by rw [hcounts, hreported]; rfl, by rw [howes]⟩
  · -- the sums change where the thread is that moves
    obtain ⟨n₁, hcounts, hcounts'⟩ := sum_map_set Thread.counts hk t'
    obtain ⟨n₂, howes, howes'⟩ := sum_map_set Thread.owes hk t'
    obtain ⟨n₃, hreported, hreported'⟩ := sum_map_set Thread.reported hk t'
    obtain ⟨hcount, hjobs⟩ := Thread.adds hadvance
    have hcalls : Action.callsCancel p (.go k c) = t.callsCancel := by
      rw [Action.callsCancel, hk, Option.any_some]
    constructor
    · rw [hcalls]
      simp only [total]
      omega
    · simp only [total]
      omega
  · exact ⟨rfl, rfl⟩

end FixedPool

end QubitConcurrent
