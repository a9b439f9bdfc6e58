import QubitConcurrent.FixedPool.Accounting
import QubitConcurrent.FixedPool.Waiters
import Mathlib.Data.List.Count

/-!
# Lost notifications

`wake_one_idle_worker` raises a wake token and notifies one of those who wait, without taking
the monitor. A worker that has marked itself idle looks for a token before it waits, and takes
one when it has waited. Between its last look and the wait there is a window: the token it has
not seen stays raised, and the notification reaches nobody. From then on the token covers a
worker that sleeps, and later submissions do not notify either.

Two facts hold of every run. While jobs are queued and no worker is going to look at the queues
again, some submission is about to raise a token, or one is raised
(`QubitConcurrent.FixedPool.noticed_of_reach`). And if every notification of a submission
reaches a worker that waits, as long as one does or is about to, then the raised tokens and
the waiting workers are together no more than those on their way to take a token, or to notify
(`QubitConcurrent.FixedPool.covered_of_reach`). Together they exclude that the pool is stuck.
-/

namespace QubitConcurrent

namespace FixedPool

/-! ### Workers and tokens -/

/-- Whether a worker is counted by `idle_worker_count`. -/
def WorkerPhase.isMarked : WorkerPhase → Bool
  | recheckingQueued _ | recheckingInflight | recheckingPending _ | parking | parked
  | unmarking _ => true
  | _ => false

/-- Whether a worker has found no job, and waits without looking again if it finds no token. -/
def WorkerPhase.isBlind : WorkerPhase → Bool
  | recheckingInflight | recheckingPending _ | parking => true
  | _ => false

/-- Whether a worker takes a token before it does anything else, once it is notified. -/
def WorkerPhase.takesToken : WorkerPhase → Bool
  | parked | unmarking _ | consuming _ | consumingFrom _ _ => true
  | _ => false

/-- Whether a submission is about to raise a token, if one is needed. -/
def SubmitPhase.isWaking : SubmitPhase → Bool
  | waking | wakingPending _ | wakingFrom _ => true
  | _ => false

/-- Whether a submission has raised a token, and is about to notify. -/
def SubmitPhase.isNotifying : SubmitPhase → Bool
  | wakingNotify => true
  | _ => false

namespace Thread

/-- Whether a thread is a worker. -/
def isWorker : Thread → Bool
  | worker _ => true
  | _ => false

/-- Whether a thread is counted by `idle_worker_count`. -/
def isMarked : Thread → Bool
  | worker q => q.isMarked
  | _ => false

/-- Whether a thread is about to raise a token, if one is needed. -/
def isWaking : Thread → Bool
  | submit _ q => q.isWaking
  | _ => false

/-- Whether a thread has raised a token, and is about to notify. -/
def isNotifying : Thread → Bool
  | submit _ q => q.isNotifying
  | _ => false

/-- Whether a thread is on its way to take a token, or to notify for one it has raised. -/
def owesToken : Thread → Bool
  | worker q => q.takesToken
  | submit _ q => q.isNotifying
  | _ => false

end Thread

namespace Pool

variable (p : Pool)

/-- Whether a thread is a worker. -/
def isWorkerAt (k : ℕ) : Bool := (p.threads[k]?).any Thread.isWorker

/-- The workers that wait, and were not notified. -/
def waitingWorkers : ℕ := p.inner.waiters.countP p.isWorkerAt

/-- Some worker waits and was not notified, or is about to wait. -/
def SomeWaits : Prop :=
  Thread.worker .parking ∈ p.threads ∨ ∃ k ∈ p.inner.waiters, p.isWorkerAt k = true

instance : Decidable p.SomeWaits := inferInstanceAs (Decidable (_ ∨ _))

/-- No worker is going to look at the queues before it is notified, or finds a token. -/
def AllBlind : Prop :=
  ∀ k q, p.threads[k]? = some (Thread.worker q) →
    q.isBlind = true ∨ (q = .parked ∧ k ∈ p.inner.waiters)

/-- A job is queued, every worker waits and was not notified, and no submission is going on. -/
structure Stuck : Prop where
  /-- The pool is running. -/
  running : p.inner.lifecycle = .running
  /-- A job that was accepted is in a queue. -/
  queued : ∃ job ∈ p.acceptedJobs, job ∈ p.inner.queued
  /-- Every worker waits. -/
  parked : ∀ k q, p.threads[k]? = some (Thread.worker q) → q = .parked ∧ k ∈ p.inner.waiters
  /-- Every submission has returned. -/
  returned : ∀ job q, Thread.submit job q ∈ p.threads → ∃ result, q = .returned result

end Pool

/-- Where a submission notifies while a worker waits or is about to, a waiting worker is
reached. -/
def Action.Heard (p : Pool) : Action → Prop
  | .go k c => (p.threads[k]?).any Thread.isNotifying = true → p.SomeWaits →
    c.target ∈ p.inner.waiters ∧ p.isWorkerAt c.target = true
  | _ => True

instance (p : Pool) : (a : Action) → Decidable (a.Heard p)
  | .go _ _ => inferInstanceAs (Decidable (_ → _ → _))
  | .call _ | .wakeUp _ => .isTrue trivial

/-! ### The count of idle workers -/

variable {p p' : Pool} {s s' : Inner} {k : ℕ} {c : Choice}

/-- A worker that is at work is not marked, takes no token, and is not blind. -/
theorem WorkerPhase.of_isBusy {q : WorkerPhase} (h : q.isBusy = true) :
    q.isMarked = false ∧ q.takesToken = false ∧ q.isBlind = false ∧ q ≠ .parking ∧
      q ≠ .parked := by
  cases q with
  | recheckingQueued | recheckingInflight | recheckingPending | parking | parked | unmarking
  | consuming | consumingFrom => cases h
  | _ => exact ⟨rfl, rfl, rfl, nofun, nofun⟩

/-- A worker that looks once more is marked, and takes no token yet. -/
theorem WorkerPhase.of_isRechecking {q : WorkerPhase} (h : q.isRechecking = true) :
    q.isMarked = true ∧ q.takesToken = false := by
  cases q with
  | recheckingQueued | recheckingInflight | recheckingPending => exact ⟨rfl, rfl⟩
  | _ => cases h

/-- A worker in `consume_pending_worker_wake` is not marked any more. -/
theorem WorkerPhase.of_isConsuming {q : WorkerPhase} (h : q.isConsuming = true) :
    q.isMarked = false ∧ q.takesToken = true := by
  cases q with
  | consuming | consumingFrom => exact ⟨rfl, rfl⟩
  | _ => cases h

/-- `idle_worker_count` counts the marked workers. -/
theorem WorkerPhase.Turn.marked {q q' : WorkerPhase} (h : Turn s s' k q q')
    (hle : q.isMarked.toNat ≤ s.idleWorkerCount) :
    s'.idleWorkerCount + q.isMarked.toNat = s.idleWorkerCount + q'.isMarked.toNat := by
  cases h with
  | work hp hp' hs => rw [(of_isBusy hp).1, (of_isBusy hp').1, hs.idle]
  | unmark again hs =>
    rw [hs]
    exact Nat.sub_add_cancel hle
  | linger hp hs => rcases hp with rfl | rfl <;> rw [hs] <;> rfl
  | blind orderly hcount hp hs => rcases hp with rfl | rfl <;> rw [hs] <;> rfl
  | turnBack again hp hs =>
    rw [hs, (of_isRechecking hp).1]
    rfl
  | find _ again hp hs =>
    rw [hs, (of_isConsuming hp).1]
    rfl
  | spare again hp hpending hs =>
    rw [hs, (of_isConsuming hp).1, (of_isBusy (isBusy_resumed again)).1]
  | consume _ again hs =>
    rw [hs, (of_isBusy (isBusy_resumed again)).1]
    rfl
  | stop _ hs | ending _ hs | empty _ hs | quit hs | mark _ hs | look hs | decide _ _ hs | park hs
  | wake _ hs | unlock hs | deactivate hs | leave hs | exit hs =>
    rw [hs]
    rfl

/-- `idle_worker_count` follows the threads it counts. -/
theorem Thread.marked {t t' : Thread} (h : t.advance s k c = some (s', t'))
    (hle : t.isMarked.toNat ≤ s.idleWorkerCount) :
    s'.idleWorkerCount + t.isMarked.toNat = s.idleWorkerCount + t'.isMarked.toNat := by
  cases Thread.goes h with
  | worker hq => exact (WorkerPhase.turn hq).marked hle
  | submit hq => exact hq.apart.1.idle
  | shutdown hq => exact (ShutdownPhase.apart hq).1.idle
  | shutdownNow hq => exact hq.apart.1.idle
  | termination hq => exact (TerminationPhase.apart hq).idle

/-- A worker stays a worker, and nobody else becomes one. -/
theorem Thread.isWorker_advance {t t' : Thread} (h : t.advance s k c = some (s', t')) :
    t'.isWorker = t.isWorker := by
  cases Thread.goes h <;> rfl

/-- Whoever looks for a queue has nothing to do with tokens yet. -/
theorem SubmitPhase.of_isRouting {q : SubmitPhase} (h : q.isRouting = true) :
    q.isWaking = false ∧ q.isNotifying = false := by
  cases q with
  | counting | probing | probingActive | pushing => exact ⟨rfl, rfl⟩
  | _ => cases h

/-- A submission that compares the tokens with the idle workers has seen some. -/
def Thread.HasSeen : Thread → Prop
  | submit _ (.wakingPending idleWorkers) => 0 < idleWorkers
  | _ => True

/-- A submission that compares has just seen idle workers. -/
theorem Thread.hasSeen_advance {t t' : Thread} (h : t.advance s k c = some (s', t')) :
    t'.HasSeen := by
  cases Thread.goes h with
  | @submit job q q' hq =>
    cases hq with
    | idle hidle => exact hidle
    | route _ hq' =>
      cases q' with
      | counting | probing | probingActive | pushing => trivial
      | _ => cases hq'
    | _ => trivial
  | worker | shutdown | shutdownNow | termination => trivial

/-- **`idle_worker_count` counts the marked workers**, and there are workers. -/
structure Pool.Marks (p : Pool) : Prop where
  /-- The count is right. -/
  count : p.inner.idleWorkerCount = p.threads.countP Thread.isMarked
  /-- Submissions that compare have seen idle workers. -/
  seen : ∀ t ∈ p.threads, t.HasSeen
  /-- There is a worker. -/
  worker : ∃ t ∈ p.threads, t.isWorker = true

/-- A step keeps the count right. -/
theorem Pool.Marks.step {a : Action} (h : p.Marks) (hstep : step p a = some p') : p'.Marks := by
  rcases step_cases hstep with ⟨call, -, rfl⟩ | ⟨k, c, t, s', t', -, hk, hadvance, rfl⟩ |
    ⟨k, -, -, rfl⟩
  · refine ⟨?_, fun t ht => ?_, ?_⟩
    · rw [List.countP_append, h.count]
      cases call <;> rfl
    · rcases List.mem_append.mp ht with ht | ht
      · exact h.seen t ht
      · rw [List.mem_singleton.mp ht]
        cases call <;> trivial
    · obtain ⟨t, ht, hworker⟩ := h.worker
      exact ⟨t, List.mem_append_left _ ht, hworker⟩
  · refine ⟨?_, fun u hu => ?_, ?_⟩
    · obtain ⟨n, hold, hnew⟩ := countP_set_toNat Thread.isMarked hk t'
      have hcount := h.count
      have := Thread.marked hadvance (by omega)
      simp only
      omega
    · rcases List.mem_or_eq_of_mem_set hu with hu | rfl
      · exact h.seen u hu
      · exact Thread.hasSeen_advance hadvance
    · exact exists_mem_set hk (fun ht => (Thread.isWorker_advance hadvance).trans ht) h.worker
  · exact ⟨h.count, h.seen, h.worker⟩

/-- In every run the count is right. -/
theorem marks_of_reach {ok : Pool → Action → Prop} (h : machine.ReachVia ok p) : p.Marks := by
  refine h.invariant ?_ fun _ _ _ _ hmarks _ hstep => hmarks.step hstep
  rintro _ ⟨poolSize, queueCapacity, stackSize, hvalid, rfl⟩
  have hthread : ∀ t ∈ List.replicate poolSize (Thread.worker .activating),
      t = .worker .activating := fun t ht => (List.mem_replicate.mp ht).2
  have hpos : poolSize ≠ 0 := by
    rintro rfl
    cases hvalid
  refine ⟨?_, fun t ht => ?_, ?_⟩
  · refine (List.countP_eq_zero.mpr fun t ht => ?_).symm
    rw [hthread t ht]
    exact Bool.false_ne_true
  · rw [hthread t ht]
    trivial
  · exact ⟨_, List.mem_replicate.mpr ⟨hpos, rfl⟩, rfl⟩

/-! ### Some token is raised, or will be -/

/-- Some submission is about to raise a token if one is needed, or one is raised. -/
def Pool.Noticed (p : Pool) : Prop :=
  (∃ t ∈ p.threads, t.isWaking = true) ∨ 0 < p.inner.pendingWorkerWakes

/-- Where all workers are blind one of them is marked. -/
theorem Pool.AllBlind.idle (h : p.AllBlind) (hmarks : p.Marks) : 0 < p.inner.idleWorkerCount := by
  obtain ⟨t, ht, hworker⟩ := hmarks.worker
  rw [hmarks.count, List.countP_pos_iff]
  refine ⟨t, ht, ?_⟩
  obtain ⟨k, hk⟩ := List.mem_iff_getElem?.mp ht
  cases t with
  | worker q =>
    rcases h k q hk with hblind | ⟨rfl, -⟩
    · cases q with
      | recheckingInflight | recheckingPending | parking => rfl
      | _ => cases hblind
    · rfl
  | _ => cases hworker

/-- If all workers are blind after a step they were before, if the one that has moved was. -/
theorem Pool.AllBlind.of_go {t t' : Thread} (hk : p.threads[k]? = some t)
    (h : Pool.AllBlind ⟨s', p.threads.set k t'⟩)
    (ht : ∀ q, t = .worker q → q.isBlind = true ∨ (q = .parked ∧ k ∈ p.inner.waiters))
    (hwaiters : ∀ j ∈ s'.waiters, j ≠ k → j ∈ p.inner.waiters) : p.AllBlind := by
  intro j q hj
  rcases getElem?_set_kept hk hj t' with ⟨rfl, heq⟩ | ⟨hne, hset⟩
  · exact ht q heq.symm
  · exact (h j q hset).imp id fun ⟨hparked, hwaits⟩ => ⟨hparked, hwaiters j hwaits hne.symm⟩

/-- What is noticed stays noticed, if whoever moves was not about to raise a token. -/
theorem Pool.Noticed.go {t t' : Thread} (h : p.Noticed) (hk : p.threads[k]? = some t)
    (ht : t.isWaking = false) (hpending : p.inner.pendingWorkerWakes ≤ s'.pendingWorkerWakes) :
    Pool.Noticed ⟨s', p.threads.set k t'⟩ := by
  refine h.imp (exists_mem_set hk fun hwaking => ?_) fun hpos => hpos.trans_le hpending
  exact absurd (ht.symm.trans hwaking) Bool.false_ne_true

/-- A worker that moves, and is blind after it, was blind before or has found no job. -/
theorem WorkerPhase.Turn.blind_cases {q q' : WorkerPhase} (h : Turn s s' k q q')
    (hq' : q'.isBlind = true ∨ q' = .parked) :
    (s.queuedTaskCount = 0 ∧ s' = s) ∨
      (q.isBlind = true ∧ s'.pendingWorkerWakes = s.pendingWorkerWakes ∧ s'.queued = s.queued ∧
        ∀ j ∈ s'.waiters, j ≠ k → j ∈ s.waiters) := by
  cases h with
  | blind orderly hcount hp hs => exact Or.inl ⟨hcount, hs⟩
  | look hs | decide _ _ hs =>
    subst hs
    exact Or.inr ⟨rfl, rfl, rfl, fun j hj _ => hj⟩
  | park hs =>
    subst hs
    refine Or.inr ⟨rfl, rfl, rfl, fun j hj hne => ?_⟩
    rcases List.mem_append.mp hj with hj | hj
    · exact hj
    · exact absurd (List.mem_singleton.mp hj) hne
  | work hp hp' =>
    obtain ⟨-, -, hblind, -, hparked⟩ := of_isBusy hp'
    rcases hq' with hq' | hq'
    · exact absurd (hblind.symm.trans hq') Bool.false_ne_true
    · exact absurd hq' hparked
  | spare again | consume _ again =>
    obtain ⟨-, -, hblind, -, hparked⟩ := of_isBusy (isBusy_resumed again)
    rcases hq' with hq' | hq'
    · exact absurd (hblind.symm.trans hq') Bool.false_ne_true
    · exact absurd hq' hparked
  | _ => rcases hq' with hq' | hq' <;> cases hq'

/-- Where nothing is queued a `shutdown_now` queues nothing. -/
theorem ShutdownNowPhase.Turn.queued_eq_nil {q q' : ShutdownNowPhase} (h : Turn s s' k q q')
    (hempty : s.queued = []) : s'.queued = [] := by
  cases h with
  | drain _ _ _ _ hs =>
    rcases Inner.claim_cases hs with ⟨-, rfl, -⟩ | ⟨job, rest, hjobs, -, -⟩
    · exact hempty
    · obtain ⟨others, hbefore, -⟩ := Inner.queued_setJobsAt hjobs
      rw [hempty] at hbefore
      exact absurd (List.nil_perm.mp hbefore) (by simp)
  | _ =>
    subst_vars
    exact hempty

/-- A step of a submission. -/
theorem Pool.Noticed.submit {job : Job} {q q' : SubmitPhase} (hmarks : p.Marks)
    (hk : p.threads[k]? = some (.submit job q)) (h : q.Turn p.inner s' job c q')
    (hnoticed : p.inner.queued ≠ [] → p.AllBlind → p.Noticed)
    (hqueued : s'.queued ≠ []) (hblind : Pool.AllBlind ⟨s', p.threads.set k (.submit job q')⟩) :
    Pool.Noticed ⟨s', p.threads.set k (.submit job q')⟩ := by
  have hself : Thread.submit job q' ∈ p.threads.set k (.submit job q') :=
    List.mem_of_getElem? (getElem?_set_of_some hk _)
  have hbefore : p.AllBlind :=
    hblind.of_go hk (fun q hq => Thread.noConfusion hq) fun j hj _ => h.waiters.subset hj
  cases h with
  | push | idle | uncovered | raiseAgain => exact Or.inl ⟨_, hself, rfl⟩
  | busy hidle =>
    -- the workers are blind, so they are marked
    have := hbefore.idle hmarks
    omega
  | covered idleWorkers hpending hs =>
    subst hs
    have hseen : 0 < idleWorkers := hmarks.seen _ (List.mem_of_getElem? hk)
    exact Or.inr (hseen.trans_le hpending)
  | raise _ hs =>
    subst hs
    exact Or.inr (Nat.succ_pos _)
  | notify hs =>
    have hsame : s'.queued = p.inner.queued := by
      rcases Inner.notifyOne_cases hs with ⟨-, rfl⟩ | ⟨-, rfl⟩ <;> rfl
    exact (hnoticed (hsame ▸ hqueued) hbefore).go hk rfl (Calm.notifyOne hs).pending.ge
  | route hq _ _ _ hs =>
    subst hs
    exact (hnoticed hqueued hbefore).go hk (SubmitPhase.of_isRouting hq).1 le_rfl
  | _ =>
    subst_vars
    exact (hnoticed hqueued hbefore).go hk rfl le_rfl

/-- A step of a worker. -/
theorem Pool.Noticed.worker {q q' : WorkerPhase} (hsound : p.Sound)
    (hk : p.threads[k]? = some (.worker q)) (h : q.Turn p.inner s' k q')
    (hnoticed : p.inner.queued ≠ [] → p.AllBlind → p.Noticed)
    (hqueued : s'.queued ≠ []) (hblind : Pool.AllBlind ⟨s', p.threads.set k (.worker q')⟩) :
    Pool.Noticed ⟨s', p.threads.set k (.worker q')⟩ := by
  have hself := hblind k q' (getElem?_set_of_some hk _)
  rcases h.blind_cases (hself.imp id And.left) with ⟨hcount, rfl⟩ | ⟨hq, hpending, hsame, hwaiters⟩
  · have hlength : p.inner.queued.length ≤ p.inner.queuedTaskCount := by
      have hnumber := hsound.books.number
      simp only [Inner.store] at hnumber
      omega
    exact absurd (List.length_eq_zero_iff.mp (by omega)) hqueued
  · have hbefore : p.AllBlind := by
      refine hblind.of_go hk (fun q₀ hq₀ => Or.inl ?_) hwaiters
      obtain rfl := Thread.worker.inj hq₀
      exact hq
    exact (hnoticed (hsame ▸ hqueued) hbefore).go hk rfl hpending.ge

/-- A step of somebody else. -/
theorem Pool.Noticed.others {t t' : Thread} (hk : p.threads[k]? = some t)
    (hadvance : t.advance p.inner k c = some (s', t')) (hworker : t.isWorker = false)
    (hsubmit : ∀ job q, t ≠ .submit job q)
    (hnoticed : p.inner.queued ≠ [] → p.AllBlind → p.Noticed)
    (hqueued : s'.queued ≠ []) (hblind : Pool.AllBlind ⟨s', p.threads.set k t'⟩) :
    Pool.Noticed ⟨s', p.threads.set k t'⟩ := by
  have hbefore : (∀ j ∈ s'.waiters, j ≠ k → j ∈ p.inner.waiters) → p.AllBlind := by
    refine hblind.of_go hk fun q hq => ?_
    rw [hq] at hworker
    cases hworker
  have hwaiters : ∀ j ∈ s'.waiters, j ≠ k → j ∈ p.inner.waiters := by
    intro j hj hne
    cases Thread.parking hadvance with
    | free _ hs => exact hs.subset hj
    | parks _ _ hs =>
      subst hs
      rcases List.mem_append.mp hj with hj | hj
      · exact hj
      · exact absurd (List.mem_singleton.mp hj) hne
  cases Thread.goes hadvance with
  | worker => cases hworker
  | submit => exact absurd rfl (hsubmit _ _)
  | shutdown hq =>
    have hsame : s'.queued = p.inner.queued :=
      congrArg Custody.Store.queued (ShutdownPhase.store hq)
    exact (hnoticed (hsame ▸ hqueued) (hbefore hwaiters)).go hk rfl
      (ShutdownPhase.calm hq).pending.ge
  | shutdownNow hq =>
    refine (hnoticed (fun hempty => hqueued ?_) (hbefore hwaiters)).go hk rfl ?_
    · exact hq.queued_eq_nil hempty
    · rcases hq.parks with ⟨running, -, -, hs⟩ | ⟨-, hs⟩
      · exact hs ▸ le_rfl
      · exact hs.pending.ge
  | termination hq =>
    have hsame : s'.queued = p.inner.queued :=
      congrArg Custody.Store.queued (TerminationPhase.store hq)
    refine (hnoticed (hsame ▸ hqueued) (hbefore hwaiters)).go hk rfl ?_
    rcases TerminationPhase.parks hq with ⟨-, -, hs⟩ | ⟨-, hs⟩
    · exact hs ▸ le_rfl
    · exact hs.pending.ge

/-- **While jobs are queued and all workers are blind, some token is raised or will be.** -/
theorem noticed_of_reach {ok : Pool → Action → Prop} (h : machine.ReachVia ok p) :
    p.inner.queued ≠ [] → p.AllBlind → p.Noticed := by
  refine h.invariant (I := fun p => p.inner.queued ≠ [] → p.AllBlind → p.Noticed) ?_ ?_
  · rintro _ ⟨poolSize, queueCapacity, -, -, rfl⟩ hqueued
    exact absurd (List.length_eq_zero_iff.mp (by
      have hnumber := (Pool.Sound.start poolSize queueCapacity).books.number
      simp only [Inner.store, Inner.initial] at hnumber ⊢
      omega)) hqueued
  · intro p a p' hreach hnoticed _ hstep hqueued hblind
    rcases step_cases hstep with ⟨call, -, rfl⟩ | ⟨k, c, t, s', t', -, hk, hadvance, rfl⟩ |
      ⟨k, -, -, rfl⟩
    · have hbefore : p.AllBlind := fun j q hj => hblind j q (getElem?_concat_of_some hj _)
      refine (hnoticed hqueued hbefore).imp ?_ id
      rintro ⟨t, ht, hwaking⟩
      exact ⟨t, List.mem_append_left _ ht, hwaking⟩
    · cases Thread.goes hadvance with
      | worker hq =>
        exact Pool.Noticed.worker (sound_of_reach hreach) hk (WorkerPhase.turn hq) hnoticed hqueued
          hblind
      | submit hq =>
        exact Pool.Noticed.submit (marks_of_reach hreach) hk hq hnoticed hqueued hblind
      | shutdown | shutdownNow | termination =>
        refine Pool.Noticed.others hk hadvance rfl ?_ hnoticed hqueued hblind
        intro job q hq
        cases hq
    · refine hnoticed hqueued fun j q hj => (hblind j q hj).imp id ?_
      exact And.imp_right List.mem_of_mem_erase

/-! ### Tokens and those they are for -/

/-- **While some worker waits or is about to, the tokens and the waiting workers are together no
more than those on their way to take a token, or to notify.** -/
def Pool.Covered (p : Pool) : Prop :=
  p.SomeWaits →
    p.inner.pendingWorkerWakes + p.waitingWorkers ≤ p.threads.countP Thread.owesToken

/-- Whoever waits takes a token when it goes on. -/
theorem Pool.Waits.waitingWorkers_le (h : p.Waits) :
    p.waitingWorkers ≤ p.threads.countP Thread.owesToken := by
  rw [Pool.waitingWorkers, List.countP_eq_length_filter]
  refine length_le_countP (h.nodup.filter _) fun j hj => ?_
  obtain ⟨hwaits, hworker⟩ := List.mem_filter.mp hj
  obtain ⟨t, ht, hparked⟩ := (Option.any_eq_true ..).mp (h.parked j hwaits)
  rw [Pool.isWorkerAt, ht, Option.any_some] at hworker
  rw [ht, Option.any_some]
  cases t with
  | worker q =>
    cases q with
    | parked => rfl
    | _ => cases hparked
  | _ => cases hworker

/-- What a worker does to the tokens. -/
theorem WorkerPhase.Turn.tokens {q q' : WorkerPhase} (h : Turn s s' k q q') {f : ℕ → Bool}
    (hf : f k = true) :
    s'.pendingWorkerWakes = 0 ∨
      s'.pendingWorkerWakes + s'.waiters.countP f + q.takesToken.toNat ≤
        s.pendingWorkerWakes + s.waiters.countP f + q'.takesToken.toNat := by
  cases h with
  | work hp hp' hs =>
    have := hs.waiters.countP_le (p := f)
    rw [(of_isBusy hp).2.1, (of_isBusy hp').2.1, hs.pending]
    exact Or.inr (by omega)
  | park hs =>
    subst hs
    refine Or.inr ?_
    rw [Inner.park, List.countP_append, List.countP_singleton, hf]
    exact le_rfl
  | spare again hp hpending hs =>
    subst hs
    exact Or.inl hpending
  | consume current again hs =>
    subst hs
    rw [(of_isBusy (isBusy_resumed again)).2.1]
    rcases Nat.eq_zero_or_pos s.pendingWorkerWakes with hzero | hpos
    · exact Or.inl (by simp only; omega)
    · refine Or.inr ?_
      simp only [takesToken, Bool.toNat_true, Bool.toNat_false]
      omega
  | turnBack again hp hs =>
    subst hs
    rw [(of_isRechecking hp).2]
    exact Or.inr (Nat.le_add_right ..)
  | find current again hp hs =>
    subst hs
    rw [(of_isConsuming hp).2]
    exact Or.inr le_rfl
  | linger hp hs =>
    subst hs
    rcases hp with rfl | rfl <;> exact Or.inr le_rfl
  | blind orderly hcount hp hs =>
    subst hs
    rcases hp with rfl | rfl <;> exact Or.inr le_rfl
  | exit hs =>
    subst hs
    refine Or.inr ?_
    simp only [Inner.notifyAll, List.countP_nil, takesToken]
    omega
  | stop _ hs | ending _ hs | empty _ hs | quit hs | mark _ hs | look hs | decide _ _ hs
  | wake _ hs | unmark _ hs | unlock hs | deactivate hs | leave hs =>
    subst hs
    exact Or.inr le_rfl

/-- What a submission does to the tokens, if it notifies a worker that waits. -/
theorem SubmitPhase.Turn.tokens {q q' : SubmitPhase} {job : Job} (h : Turn s s' job c q q')
    {f : ℕ → Bool} (hheard : q.isNotifying = true → c.target ∈ s.waiters ∧ f c.target = true) :
    s'.pendingWorkerWakes + s'.waiters.countP f + q.isNotifying.toNat ≤
      s.pendingWorkerWakes + s.waiters.countP f + q'.isNotifying.toNat := by
  cases h with
  | push place hs =>
    have := (Calm.push hs).waiters.countP_le (p := f)
    rw [(Calm.push hs).pending]
    exact Nat.add_le_add_right (by omega) _
  | raise _ hs =>
    subst hs
    simp only [isNotifying, Bool.toNat_true, Bool.toNat_false]
    omega
  | notify hs =>
    -- the token of the one who notifies is that of the worker who is notified
    obtain ⟨htarget, hworker⟩ := hheard rfl
    rcases Inner.notifyOne_cases hs with ⟨hnobody, -⟩ | ⟨-, rfl⟩
    · rw [hnobody] at htarget
      cases htarget
    · have hpos : 0 < s.waiters.countP f := List.countP_pos_iff.mpr ⟨_, htarget, hworker⟩
      have herase := List.countP_erase f s.waiters c.target
      rw [if_pos ⟨htarget, hworker⟩] at herase
      simp only [isNotifying, Bool.toNat_true, Bool.toNat_false]
      omega
  | announce hs | dropAnnounce _ hs =>
    subst hs
    exact Nat.add_le_add_right (Nat.add_le_add_left (Nat.zero_le _) _) _
  | route hq hq' _ _ hs =>
    subst hs
    rw [(of_isRouting hq).2, (of_isRouting hq').2]
  | _ =>
    subst_vars
    exact le_rfl

/-- **What a thread does to the tokens.** -/
theorem Thread.tokens {t t' : Thread} (h : t.advance s k c = some (s', t')) {f : ℕ → Bool}
    (hf : f k = t.isWorker)
    (hheard : t.isNotifying = true → c.target ∈ s.waiters ∧ f c.target = true) :
    s'.pendingWorkerWakes = 0 ∨
      s'.pendingWorkerWakes + s'.waiters.countP f + t.owesToken.toNat ≤
        s.pendingWorkerWakes + s.waiters.countP f + t'.owesToken.toNat := by
  have hpark : f k = false → (s.park k).waiters.countP f = s.waiters.countP f := by
    intro hk
    rw [Inner.park, List.countP_append, List.countP_singleton, hk]
    rfl
  cases Thread.goes h with
  | worker hq => exact (WorkerPhase.turn hq).tokens hf
  | submit hq => exact Or.inr (hq.tokens hheard)
  | shutdown hq =>
    have hcalm := ShutdownPhase.calm hq
    exact Or.inr (Nat.add_le_add_right (Nat.add_le_add hcalm.pending.le hcalm.waiters.countP_le) _)
  | shutdownNow hq =>
    refine Or.inr (Nat.add_le_add_right ?_ _)
    rcases hq.parks with ⟨running, -, -, hs⟩ | ⟨-, hcalm⟩
    · rw [hs, hpark hf]
      exact le_rfl
    · exact Nat.add_le_add hcalm.pending.le hcalm.waiters.countP_le
  | termination hq =>
    refine Or.inr (Nat.add_le_add_right ?_ _)
    rcases TerminationPhase.parks hq with ⟨-, -, hs⟩ | ⟨-, hcalm⟩
    · rw [hs, hpark hf]
      exact le_rfl
    · exact Nat.add_le_add hcalm.pending.le hcalm.waiters.countP_le

/-- A worker decides to wait where it finds no token. -/
theorem WorkerPhase.Turn.decides {q q' : WorkerPhase} (h : Turn s s' k q q')
    (hq' : q' = .parking) : s'.pendingWorkerWakes = 0 := by
  cases h with
  | decide _ hpending hs => exact hs ▸ hpending
  | work hp hp' => exact absurd hq' (of_isBusy hp').2.2.2.1
  | spare again | consume _ again => exact absurd hq' (of_isBusy (isBusy_resumed again)).2.2.2.1
  | blind orderly hcount hp => rcases hp with rfl | rfl <;> cases hq'
  | _ => cases hq'

/-- The same threads are workers after a step. -/
theorem Pool.isWorkerAt_go {t t' : Thread} (hk : p.threads[k]? = some t)
    (hadvance : t.advance p.inner k c = some (s', t')) :
    Pool.isWorkerAt ⟨s', p.threads.set k t'⟩ = p.isWorkerAt :=
  any_getElem?_set_same hk (Thread.isWorker_advance hadvance)

/-- Where a worker waits after a step, one did before, or no token is raised. -/
theorem Pool.SomeWaits.of_go {t t' : Thread} (hk : p.threads[k]? = some t)
    (hadvance : t.advance p.inner k c = some (s', t'))
    (h : Pool.SomeWaits ⟨s', p.threads.set k t'⟩) :
    p.SomeWaits ∨ s'.pendingWorkerWakes = 0 := by
  rcases h with hparking | ⟨j, hj, hworker⟩
  · rcases List.mem_or_eq_of_mem_set hparking with hold | hnew
    · exact Or.inl (Or.inl hold)
    · subst hnew
      cases Thread.goes hadvance with
      | worker hq => exact Or.inr ((WorkerPhase.turn hq).decides rfl)
  · rw [Pool.isWorkerAt_go hk hadvance] at hworker
    cases Thread.parking hadvance with
    | free _ hs => exact Or.inl (Or.inr ⟨j, hs.subset hj, hworker⟩)
    | parks ht ht' hs =>
      subst hs
      rcases List.mem_append.mp hj with hj | hj
      · exact Or.inl (Or.inr ⟨j, hj, hworker⟩)
      · rw [List.mem_singleton.mp hj, Pool.isWorkerAt, hk, Option.any_some] at hworker
        cases Thread.goes hadvance with
        | worker hq =>
          rcases WorkerPhase.parks hq with ⟨rfl, -⟩ | ⟨-, hsub⟩
          · exact Or.inl (Or.inl (List.mem_of_getElem? hk))
          · have hlength := hsub.length_le
            simp [Inner.park] at hlength
        | submit | shutdown | shutdownNow | termination => cases hworker

/-- A step keeps tokens and workers in balance, if notifications are heard. -/
theorem Pool.Covered.step {a : Action} (h : p.Covered) (hwaits' : p'.Waits) (hheard : a.Heard p)
    (hstep : step p a = some p') : p'.Covered := by
  intro hsome
  have hzero : p'.inner.pendingWorkerWakes = 0 →
      p'.inner.pendingWorkerWakes + p'.waitingWorkers ≤ p'.threads.countP Thread.owesToken := by
    intro hpending
    rw [hpending, Nat.zero_add]
    exact hwaits'.waitingWorkers_le
  rcases step_cases hstep with ⟨call, rfl, rfl⟩ | ⟨k, c, t, s', t', rfl, hk, hadvance, rfl⟩ |
    ⟨k, rfl, -, rfl⟩
  · have hsame : Pool.isWorkerAt { p with threads := p.threads ++ [call.thread p.threads.length] } =
        p.isWorkerAt := any_getElem?_append (by cases call <;> rfl)
    have hold : p.SomeWaits := by
      rcases hsome with hparking | ⟨j, hj, hworker⟩
      · rcases List.mem_append.mp hparking with hparking | hparking
        · exact Or.inl hparking
        · cases call <;> cases List.mem_singleton.mp hparking
      · exact Or.inr ⟨j, hj, hsame ▸ hworker⟩
    rw [Pool.waitingWorkers, hsame, List.countP_append]
    exact (h hold).trans (Nat.le_add_right ..)
  · rcases Pool.SomeWaits.of_go hk hadvance hsome with hold | hpending
    · have hworker : p.isWorkerAt k = t.isWorker := by rw [Pool.isWorkerAt, hk, Option.any_some]
      have hnotifies : t.isNotifying = true →
          c.target ∈ p.inner.waiters ∧ p.isWorkerAt c.target = true := by
        intro hnotifying
        refine hheard ?_ hold
        rw [hk, Option.any_some]
        exact hnotifying
      rcases Thread.tokens hadvance hworker hnotifies with hpending | hle
      · exact hzero hpending
      · obtain ⟨n, hbefore, hafter⟩ := countP_set_toNat Thread.owesToken hk t'
        have hcovered := h hold
        rw [Pool.waitingWorkers, Pool.isWorkerAt_go hk hadvance]
        unfold Pool.waitingWorkers at hcovered
        simp only
        omega
    · exact hzero hpending
  · have hold : p.SomeWaits := by
      refine hsome.imp id ?_
      exact fun ⟨j, hj, hworker⟩ => ⟨j, List.mem_of_mem_erase hj, hworker⟩
    have hle : (p.inner.waiters.erase k).countP p.isWorkerAt ≤ p.waitingWorkers :=
      List.erase_sublist.countP_le
    exact (Nat.add_le_add_left hle _).trans (h hold)

/-- Where every notification of a submission is heard, tokens and workers are in balance. -/
theorem covered_of_reach (h : machine.ReachVia (fun p a => a.Heard p) p) : p.Covered := by
  refine h.invariant ?_ fun p a p' hreach hcovered hheard hstep => ?_
  · rintro _ ⟨poolSize, queueCapacity, -, -, rfl⟩ -
    exact Nat.zero_le _
  · exact hcovered.step (waits_of_reach (.next hreach hheard hstep)) hheard hstep

/-! ### The pool is not stuck -/

/-- **A pool whose submissions reach a waiting worker with every notification is never stuck.** -/
theorem not_stuck_of_reach (h : machine.ReachVia (fun p a => a.Heard p) p) : ¬p.Stuck := by
  rintro ⟨-, ⟨job, -, hjob⟩, hparked, hreturned⟩
  have hnoticed : 0 < p.inner.pendingWorkerWakes := by
    have hblind : p.AllBlind := fun k q hk => Or.inr (hparked k q hk)
    rcases noticed_of_reach h (List.ne_nil_of_mem hjob) hblind with ⟨t, ht, hwaking⟩ | hpos
    · cases t with
      | submit j q =>
        obtain ⟨result, rfl⟩ := hreturned j q ht
        cases hwaking
      | _ => cases hwaking
    · exact hpos
  have hsome : p.SomeWaits := by
    obtain ⟨t, ht, hworker⟩ := (marks_of_reach h).worker
    obtain ⟨k, hk⟩ := List.mem_iff_getElem?.mp ht
    cases t with
    | worker q =>
      refine Or.inr ⟨k, (hparked k q hk).2, ?_⟩
      rw [Pool.isWorkerAt, hk, Option.any_some]
      rfl
    | _ => cases hworker
  have hcovered := covered_of_reach h hsome
  have howed : p.threads.countP Thread.owesToken ≤ p.waitingWorkers := by
    refine countP_le_countP_of_mem fun k t hk howes => ?_
    cases t with
    | worker q =>
      refine ⟨(hparked k q hk).2, ?_⟩
      rw [Pool.isWorkerAt, hk, Option.any_some]
      rfl
    | submit j q =>
      obtain ⟨result, rfl⟩ := hreturned j q (List.mem_of_getElem? hk)
      cases howes
    | _ => cases howes
  omega

/-- The worker waits before the submission notifies, and is reached. -/
theorem not_stuck_of_reach_heard :
    ∃ p : Pool, (p.inner.queued = [1] ∧ p.inner.waiters = []) ∧ ¬p.Stuck := by
  obtain ⟨p, hp, hend⟩ := Machine.exists_reachVia_of_exec (M := machine) (fun p a => a.Heard p)
    (fun p a => decide (a.Heard p)) (fun _ _ => of_decide_eq_true)
    (s := ⟨.initial 1 none, List.replicate 1 (.worker .activating)⟩) ⟨1, none, none, rfl, rfl⟩
    (List.flatten [steps 13 0, [.call .submit], steps 15 1])
    (fun p => decide (p.inner.queued = [1] ∧ p.inner.waiters = [])) (by decide)
  exact ⟨p, of_decide_eq_true hend, not_stuck_of_reach hp⟩

/-- **A notification is lost**: the worker has found no token and no job, the submission pushes
its job, raises a token and notifies nobody, and the worker waits. -/
theorem stuck_of_lost_notification : ∃ p, machine.Reach p ∧ p.Stuck := by
  obtain ⟨p, hp, hend⟩ := Machine.exists_reachVia_of_exec (M := machine) (fun _ _ => True)
    (fun _ _ => true) (fun _ _ _ => trivial)
    (s := ⟨.initial 1 none, List.replicate 1 (.worker .activating)⟩) ⟨1, none, none, rfl, rfl⟩
    (List.flatten [steps 12 0, [.call .submit], steps 15 1, steps 1 0])
    (fun p => decide (p.inner.lifecycle = .running ∧ p.acceptedJobs = [1] ∧
      p.inner.queued = [1] ∧ p.inner.waiters = [0] ∧
      p.threads = [.worker .parked, .submit 1 (.returned (.ok ()))])) (by decide)
  obtain ⟨hrunning, haccepted, hqueued, hwaiters, hthreads⟩ := of_decide_eq_true hend
  refine ⟨p, hp, hrunning, ⟨1, ?_, ?_⟩, fun k q hk => ?_, fun job q hq => ?_⟩
  · rw [haccepted]
    exact List.mem_singleton_self 1
  · rw [hqueued]
    exact List.mem_singleton_self 1
  · rw [hthreads] at hk
    match k with
    | 0 =>
      obtain rfl := Thread.worker.inj (Option.some.inj hk)
      rw [hwaiters]
      exact ⟨rfl, List.mem_singleton_self 0⟩
    | 1 => cases hk
    | k + 2 => cases hk
  · rw [hthreads] at hq
    rcases List.mem_cons.mp hq with hq | hq
    · cases hq
    · obtain ⟨rfl, rfl⟩ := Thread.submit.inj (List.mem_singleton.mp hq)
      exact ⟨_, rfl⟩

end FixedPool

end QubitConcurrent
