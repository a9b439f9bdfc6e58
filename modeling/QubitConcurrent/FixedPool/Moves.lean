import QubitConcurrent.FixedPool.Turns

/-!
# What the threads of a fixed pool leave alone

What nobody but a submission, or somebody who shuts down, ever changes: the configuration, the
lifecycle, the gate and the count of submissions behind it (`QubitConcurrent.FixedPool.Same`).
What nobody but a worker changes are the counts of workers
(`QubitConcurrent.FixedPool.Apart`).
-/

namespace QubitConcurrent

namespace FixedPool

/-! ### What is left alone -/

/-- What only submissions and those who shut down change is the same. -/
structure Same (s s' : Inner) : Prop where
  /-- The number of workers. -/
  poolSize : s'.poolSize = s.poolSize
  /-- The capacity. -/
  queueCapacity : s'.queueCapacity = s.queueCapacity
  /-- The number of worker queues. -/
  width : s'.workerQueues.length = s.workerQueues.length
  /-- The lifecycle. -/
  lifecycle : s'.lifecycle = s.lifecycle
  /-- The gate. -/
  accepting : s'.accepting = s.accepting
  /-- The submissions behind it. -/
  inflight : s'.inflightSubmissions = s.inflightSubmissions

namespace Same

variable {s s' : Inner} {k : ℕ}

theorem refl (s : Inner) : Same s s := ⟨rfl, rfl, rfl, rfl, rfl, rfl⟩

theorem setJobsAt (s : Inner) (jobs : List Job) (p : Place) : Same s (s.setJobsAt jobs p) := by
  cases p with
  | injector => exact ⟨rfl, rfl, rfl, rfl, rfl, rfl⟩
  | localOf i | inboxOf i => exact ⟨rfl, rfl, List.length_modify .., rfl, rfl, rfl⟩

theorem claim {φ : Type} {p : Place} {batch : ℕ} {empty q : φ} {found : Job → List Job → φ}
    (h : s.claim p batch empty found = some (s', q)) : Same s s' := by
  rcases Inner.claim_cases h with ⟨-, rfl, -⟩ | ⟨job, rest, -, rfl, -⟩
  · exact refl _
  · exact setJobsAt ..

theorem push {p : Place} {jobs : List Job} (h : s.push p jobs = some s') : Same s s' := by
  obtain ⟨old, -, rfl⟩ := Option.map_eq_some_iff.mp h
  exact setJobsAt ..

theorem lock (h : s.lock k = some s') : Same s s' := by
  obtain ⟨-, rfl⟩ := Inner.lock_cases h
  exact ⟨rfl, rfl, rfl, rfl, rfl, rfl⟩

theorem unpark (h : s.unpark k = some s') : Same s s' := by
  obtain ⟨-, rfl⟩ := Inner.unpark_cases h
  exact ⟨rfl, rfl, rfl, rfl, rfl, rfl⟩

theorem notifyOne {target : ℕ} (h : s.notifyOne target = some s') : Same s s' := by
  rcases Inner.notifyOne_cases h with ⟨-, rfl⟩ | ⟨-, rfl⟩ <;> exact ⟨rfl, rfl, rfl, rfl, rfl, rfl⟩

theorem setActive (s : Inner) (i : ℕ) (active : Bool) : Same s (s.setActive i active) :=
  ⟨rfl, rfl, List.length_modify .., rfl, rfl, rfl⟩

theorem bumpStealCursor (s : Inner) (i : ℕ) : Same s (s.bumpStealCursor i) :=
  ⟨rfl, rfl, List.length_modify .., rfl, rfl, rfl⟩

end Same

variable {s s' : Inner} {k : ℕ} {c : Choice}

/-- A worker leaves it alone. -/
theorem WorkerPhase.same {p p' : WorkerPhase} (h : p.advance s k c = some (s', p')) :
    Same s s' := by
  cases p with
  | poppingLocal | poppingInbox | stealingBatch | stealingSingle | stealingLocal | stealingInbox
  | clearing | draining | drainingInbox =>
    rw [advance] at h
    exact Same.claim h
  | activating | deactivating =>
    obtain ⟨rfl, -⟩ := Prod.mk.inj (Option.some.inj h)
    exact Same.setActive ..
  | choosing =>
    obtain ⟨queue, -, h⟩ := Option.bind_eq_some_iff.mp h
    split_ifs at h
    · obtain ⟨rfl, -⟩ := Prod.mk.inj (Option.some.inj h)
      exact Same.refl _
    · obtain ⟨rfl, -⟩ := Prod.mk.inj (Option.some.inj h)
      exact Same.bumpStealCursor ..
  | scanning start offset =>
    rw [advance] at h
    split_ifs at h
    · obtain ⟨victim, -, h⟩ := Option.bind_eq_some_iff.mp h
      obtain ⟨rfl, -⟩ := Prod.mk.inj (Option.some.inj h)
      exact Same.refl _
    · obtain ⟨rfl, -⟩ := Prod.mk.inj (Option.some.inj h)
      exact Same.refl _
  | publishing =>
    obtain ⟨ht, -⟩ := Inner.then_cases h
    exact Same.push ht
  | spreading =>
    obtain ⟨jobs, -, h⟩ := Option.bind_eq_some_iff.mp h
    obtain ⟨rfl, -⟩ := Prod.mk.inj (Option.some.inj h)
    exact Same.refl _
  | waking =>
    obtain ⟨ht, -⟩ := Inner.then_cases h
    exact Same.notifyOne ht
  | locking =>
    obtain ⟨ht, -⟩ := Inner.then_cases h
    exact Same.lock ht
  | parked =>
    obtain ⟨ht, -⟩ := Inner.then_cases h
    exact Same.unpark ht
  | cancelling stage =>
    cases stage <;> obtain ⟨rfl, -⟩ := Prod.mk.inj (Option.some.inj h) <;>
      exact ⟨rfl, rfl, rfl, rfl, rfl, rfl⟩
  | consumingFrom =>
    rw [advance] at h
    split_ifs at h <;> obtain ⟨rfl, -⟩ := Prod.mk.inj (Option.some.inj h) <;>
      exact ⟨rfl, rfl, rfl, rfl, rfl, rfl⟩
  | leaving =>
    rw [advance] at h
    split_ifs at h
    obtain ⟨rfl, -⟩ := Prod.mk.inj (Option.some.inj h)
    exact ⟨rfl, rfl, rfl, rfl, rfl, rfl⟩
  | exited => cases h
  | taking | accepting | marking | markingRunning | running | finishing | completing | settling
  | announcing | judging | rejudging | judgingInflight | idling | recheckingQueued
  | recheckingInflight | recheckingPending | parking | unmarking | consuming | unlocking
  | exiting =>
    obtain ⟨rfl, -⟩ := Prod.mk.inj (Option.some.inj h)
    exact ⟨rfl, rfl, rfl, rfl, rfl, rfl⟩

/-- So does whoever asks for the end. -/
theorem TerminationPhase.same {p p' : TerminationPhase} {waits : Bool}
    (h : p.advance s k waits = some (s', p')) : Same s s' := by
  cases p with
  | locking =>
    obtain ⟨ht, -⟩ := Inner.then_cases h
    exact Same.lock ht
  | parked =>
    obtain ⟨ht, -⟩ := Inner.then_cases h
    exact Same.unpark ht
  | answering terminated =>
    rw [advance] at h
    split_ifs at h <;> obtain ⟨rfl, -⟩ := Prod.mk.inj (Option.some.inj h) <;>
      exact ⟨rfl, rfl, rfl, rfl, rfl, rfl⟩
  | returned => cases h
  | readingQueued | readingRunning | readingInflight =>
    obtain ⟨rfl, -⟩ := Prod.mk.inj (Option.some.inj h)
    exact Same.refl _

/-! ### What only workers change -/

/-- What only workers change is the same. -/
structure Apart (s s' : Inner) : Prop where
  /-- The number of workers. -/
  poolSize : s'.poolSize = s.poolSize
  /-- The workers that have not left. -/
  live : s'.liveWorkers = s.liveWorkers
  /-- The workers that are marked idle. -/
  idle : s'.idleWorkerCount = s.idleWorkerCount

namespace Apart

theorem refl (s : Inner) : Apart s s := ⟨rfl, rfl, rfl⟩

theorem setJobsAt (s : Inner) (jobs : List Job) (p : Place) : Apart s (s.setJobsAt jobs p) := by
  cases p <;> exact ⟨rfl, rfl, rfl⟩

theorem claim {φ : Type} {p : Place} {batch : ℕ} {empty q : φ} {found : Job → List Job → φ}
    (h : s.claim p batch empty found = some (s', q)) : Apart s s' := by
  rcases Inner.claim_cases h with ⟨-, rfl, -⟩ | ⟨job, rest, -, rfl, -⟩
  · exact refl _
  · exact setJobsAt ..

theorem push {p : Place} {jobs : List Job} (h : s.push p jobs = some s') : Apart s s' := by
  obtain ⟨old, -, rfl⟩ := Option.map_eq_some_iff.mp h
  exact setJobsAt ..

theorem lock (h : s.lock k = some s') : Apart s s' := by
  obtain ⟨-, rfl⟩ := Inner.lock_cases h
  exact ⟨rfl, rfl, rfl⟩

theorem unpark (h : s.unpark k = some s') : Apart s s' := by
  obtain ⟨-, rfl⟩ := Inner.unpark_cases h
  exact ⟨rfl, rfl, rfl⟩

theorem notifyOne {target : ℕ} (h : s.notifyOne target = some s') : Apart s s' := by
  rcases Inner.notifyOne_cases h with ⟨-, rfl⟩ | ⟨-, rfl⟩ <;> exact ⟨rfl, rfl, rfl⟩

end Apart

/-- A submission leaves it alone, and the lifecycle. -/
theorem SubmitPhase.Turn.apart {q q' : SubmitPhase} {job : Job} (h : Turn s s' job c q q') :
    Apart s s' ∧ s'.lifecycle = s.lifecycle := by
  cases h with
  | push place hs => exact ⟨Apart.push hs, (Same.push hs).lifecycle⟩
  | notify hs => exact ⟨Apart.notifyOne hs, (Same.notifyOne hs).lifecycle⟩
  | _ =>
    subst_vars
    exact ⟨⟨rfl, rfl, rfl⟩, rfl⟩

/-- A `shutdown` leaves it alone, and ends the running of the pool at most. -/
theorem ShutdownPhase.apart {p p' : ShutdownPhase} (h : p.advance s = some (s', p')) :
    Apart s s' ∧ (s'.lifecycle = s.lifecycle ∨
      p = .switching ∧ s.lifecycle = .running ∧ s'.lifecycle = .shutdown) := by
  cases p with
  | switching =>
    rw [advance] at h
    split_ifs at h with hfree hrunning <;> obtain ⟨rfl, -⟩ := Prod.mk.inj (Option.some.inj h)
    · exact ⟨⟨rfl, rfl, rfl⟩, Or.inr ⟨rfl, hrunning, rfl⟩⟩
    · exact ⟨⟨rfl, rfl, rfl⟩, Or.inl rfl⟩
  | returned => cases h
  | closing | announcing =>
    obtain ⟨rfl, -⟩ := Prod.mk.inj (Option.some.inj h)
    exact ⟨⟨rfl, rfl, rfl⟩, Or.inl rfl⟩

/-- A `shutdown_now` leaves it alone, and stops the pool at most. -/
theorem ShutdownNowPhase.Turn.apart {q q' : ShutdownNowPhase} (h : Turn s s' k q q') :
    Apart s s' ∧ (s'.lifecycle = s.lifecycle ∨
      (∃ running, q = .locking running) ∧ s'.lifecycle = .stopping) := by
  cases h with
  | lock running hs =>
    subst hs
    exact ⟨⟨rfl, rfl, rfl⟩, Or.inr ⟨⟨running, rfl⟩, rfl⟩⟩
  | drain _ _ _ _ hs => exact ⟨Apart.claim hs, Or.inl (Same.claim hs).lifecycle⟩
  | _ =>
    subst_vars
    exact ⟨⟨rfl, rfl, rfl⟩, Or.inl rfl⟩

/-- Whoever asks for the end leaves it alone. -/
theorem TerminationPhase.apart {p p' : TerminationPhase} {waits : Bool}
    (h : p.advance s k waits = some (s', p')) : Apart s s' := by
  cases p with
  | locking =>
    obtain ⟨ht, -⟩ := Inner.then_cases h
    exact Apart.lock ht
  | parked =>
    obtain ⟨ht, -⟩ := Inner.then_cases h
    exact Apart.unpark ht
  | answering terminated =>
    rw [advance] at h
    split_ifs at h <;> obtain ⟨rfl, -⟩ := Prod.mk.inj (Option.some.inj h) <;>
      exact ⟨rfl, rfl, rfl⟩
  | returned => cases h
  | readingQueued | readingRunning | readingInflight =>
    obtain ⟨rfl, -⟩ := Prod.mk.inj (Option.some.inj h)
    exact Apart.refl _

end FixedPool

end QubitConcurrent
