import QubitConcurrent.FixedPool.Moves

/-!
# The waiting of a worker

What a worker does in `wait_for_fixed_pool_work` and `worker_exited`, each step with all that
it reads and writes: `QubitConcurrent.FixedPool.WorkerPhase.Turn`. Everywhere else a worker is
at work. There it may notify others, and that is all it does that those who wait could tell.
-/

namespace QubitConcurrent

namespace FixedPool

/-- The counts of workers and of wake tokens are the same, and nobody waits who did not. -/
structure Calm (s s' : Inner) : Prop where
  /-- The workers that have not left. -/
  live : s'.liveWorkers = s.liveWorkers
  /-- The workers that are marked idle. -/
  idle : s'.idleWorkerCount = s.idleWorkerCount
  /-- The wake tokens. -/
  pending : s'.pendingWorkerWakes = s.pendingWorkerWakes
  /-- Those who wait. -/
  waiters : s'.waiters.Sublist s.waiters

namespace Calm

variable {s s' : Inner} {k : ℕ}

theorem refl (s : Inner) : Calm s s := ⟨rfl, rfl, rfl, List.Sublist.refl _⟩

theorem setJobsAt (s : Inner) (jobs : List Job) (p : Place) : Calm s (s.setJobsAt jobs p) := by
  cases p <;> exact ⟨rfl, rfl, rfl, List.Sublist.refl _⟩

theorem claim {φ : Type} {p : Place} {batch : ℕ} {empty q : φ} {found : Job → List Job → φ}
    (h : s.claim p batch empty found = some (s', q)) : Calm s s' := by
  rcases Inner.claim_cases h with ⟨-, rfl, -⟩ | ⟨job, rest, -, rfl, -⟩
  · exact refl _
  · exact setJobsAt ..

theorem push {p : Place} {jobs : List Job} (h : s.push p jobs = some s') : Calm s s' := by
  obtain ⟨old, -, rfl⟩ := Option.map_eq_some_iff.mp h
  exact setJobsAt ..

theorem lock (h : s.lock k = some s') : Calm s s' := by
  obtain ⟨-, rfl⟩ := Inner.lock_cases h
  exact ⟨rfl, rfl, rfl, List.Sublist.refl _⟩

theorem unpark (h : s.unpark k = some s') : Calm s s' := by
  obtain ⟨-, rfl⟩ := Inner.unpark_cases h
  exact ⟨rfl, rfl, rfl, List.Sublist.refl _⟩

theorem notifyOne {target : ℕ} (h : s.notifyOne target = some s') : Calm s s' := by
  rcases Inner.notifyOne_cases h with ⟨-, rfl⟩ | ⟨-, rfl⟩
  · exact refl _
  · exact ⟨rfl, rfl, rfl, List.erase_sublist⟩

theorem notifyAll (s : Inner) : Calm s s.notifyAll := ⟨rfl, rfl, rfl, List.nil_sublist _⟩

end Calm

namespace WorkerPhase

/-- Whether a worker is at work, or at the head of the loop in `wait_for_fixed_pool_work`. -/
def isBusy : WorkerPhase → Bool
  | rejudging | judgingInflight | recheckingQueued _ | recheckingInflight | recheckingPending _
  | parking | parked | unmarking _ | consuming _ | consumingFrom _ _ | unlocking false
  | deactivating | leaving | exiting | exited => false
  | _ => true

/-- Whether a worker is marked idle, and looks once more whether it has to wait. -/
def isRechecking : WorkerPhase → Bool
  | recheckingQueued _ | recheckingInflight | recheckingPending _ => true
  | _ => false

/-- Whether a worker is in `consume_pending_worker_wake`. -/
def isConsuming : WorkerPhase → Bool
  | consuming _ | consumingFrom _ _ => true
  | _ => false

/-- What a worker does in one step. -/
inductive Turn (s s' : Inner) (k : ℕ) : WorkerPhase → WorkerPhase → Prop
  /-- It works. -/
  | work {p p' : WorkerPhase} (hp : p.isBusy = true) (hp' : p'.isBusy = true) (hs : Calm s s') :
    Turn s s' k p p'
  /-- It leaves the loop, since the pool was stopped. -/
  | stop (hstopping : s.lifecycle = .stopping) (hs : s' = s) : Turn s s' k judging (unlocking false)
  /-- The pool is shut down. -/
  | ending (hshutdown : s.lifecycle = .shutdown) (hs : s' = s) : Turn s s' k judging rejudging
  /-- It finds no job. -/
  | empty (hcount : s.queuedTaskCount = 0) (hs : s' = s) : Turn s s' k rejudging judgingInflight
  /-- It leaves the loop, since no job is left. -/
  | quit (hs : s' = s) : Turn s s' k judgingInflight (unlocking false)
  /-- It is going to wait, though the pool is shut down. -/
  | linger {p : WorkerPhase} (hp : p = rejudging ∨ p = judgingInflight) (hs : s' = s) :
    Turn s s' k p (idling true)
  /-- It marks itself idle. -/
  | mark (orderly : Bool) (hs : s' =
      { s with
        idleWorkers := s.idleWorkers + 1
        idleWorkerCount := s.idleWorkerCount + 1 }) :
    Turn s s' k (idling orderly) (recheckingQueued orderly)
  /-- It finds no job again. -/
  | blind (orderly : Bool) {p : WorkerPhase} (hcount : s.queuedTaskCount = 0)
      (hp : p = recheckingInflight ∨ p = recheckingPending orderly) (hs : s' = s) :
    Turn s s' k (recheckingQueued orderly) p
  /-- It finds that a submission is in flight. -/
  | look (hs : s' = s) : Turn s s' k recheckingInflight (recheckingPending true)
  /-- It finds a reason not to wait. -/
  | turnBack {p : WorkerPhase} (again : Bool) (hp : p.isRechecking = true) (hs : s' = s) :
    Turn s s' k p (unmarking again)
  /-- It finds no wake token. -/
  | decide (orderly : Bool) (hpending : s.pendingWorkerWakes = 0) (hs : s' = s) :
    Turn s s' k (recheckingPending orderly) parking
  /-- It waits. -/
  | park (hs : s' = s.park k) : Turn s s' k parking parked
  /-- It was woken up. -/
  | wake (hk : k ∉ s.waiters) (hs : s' = { s with owner := some k }) :
    Turn s s' k parked (unmarking false)
  /-- It is not idle any more. -/
  | unmark (again : Bool) (hs : s' =
      { s with
        idleWorkers := s.idleWorkers - 1
        idleWorkerCount := s.idleWorkerCount - 1 }) :
    Turn s s' k (unmarking again) (consuming again)
  /-- It looks for a wake token, and finds one. -/
  | find {p : WorkerPhase} (current : ℕ) (again : Bool) (hp : p.isConsuming = true)
      (hs : s' = s) : Turn s s' k p (consumingFrom current again)
  /-- It looks for a wake token, and finds none. -/
  | spare {p : WorkerPhase} (again : Bool) (hp : p.isConsuming = true)
      (hpending : s.pendingWorkerWakes = 0) (hs : s' = s) : Turn s s' k p (resumed again)
  /-- It consumes a wake token. -/
  | consume (current : ℕ) (again : Bool)
      (hs : s' = { s with pendingWorkerWakes := s.pendingWorkerWakes - 1 }) :
    Turn s s' k (consumingFrom current again) (resumed again)
  /-- It has left the loop. -/
  | unlock (hs : s' = s.unlock) : Turn s s' k (unlocking false) deactivating
  /-- It takes no more jobs into its inbox. -/
  | deactivate (hs : s' = s.setActive k false) : Turn s s' k deactivating leaving
  /-- It is not counted any more. -/
  | leave (hs : s' = { s with liveWorkers := s.liveWorkers - 1 }) : Turn s s' k leaving exiting
  /-- It is gone. -/
  | exit (hs : s' = s.notifyAll) : Turn s s' k exiting exited

variable {s s' : Inner} {k : ℕ} {c : Choice}

/-- A loop over drained jobs is work. -/
theorem isBusy_cancelAll (jobs : List Job) : (cancelAll jobs).isBusy = true := by
  cases jobs <;> rfl

/-- A worker that does not wait is at the head of the loop, or back at work. -/
theorem isBusy_resumed (again : Bool) : (resumed again).isBusy = true := by
  cases again <;> rfl

/-- A claim is work. -/
theorem Turn.claim {p p' empty : WorkerPhase} {place : Place} {batch : ℕ}
    {found : Job → List Job → WorkerPhase} (h : s.claim place batch empty found = some (s', p'))
    (hp : p.isBusy = true) (hempty : empty.isBusy = true)
    (hfound : ∀ job jobs, (found job jobs).isBusy = true) : Turn s s' k p p' := by
  refine .work hp ?_ (Calm.claim h)
  rcases Inner.claim_cases h with ⟨-, -, rfl⟩ | ⟨job, rest, -, -, rfl⟩
  · exact hempty
  · exact hfound ..

/-- **What a worker does is one of its turns.** -/
theorem turn {p p' : WorkerPhase} (h : p.advance s k c = some (s', p')) : Turn s s' k p p' := by
  cases p with
  | poppingLocal | poppingInbox | stealingBatch | stealingLocal | stealingInbox | clearing
  | draining =>
    rw [advance] at h
    exact Turn.claim h rfl rfl fun _ _ => rfl
  | stealingSingle =>
    rw [advance] at h
    exact Turn.claim h rfl (by split_ifs <;> rfl) fun _ _ => rfl
  | drainingInbox jobs =>
    rw [advance] at h
    exact Turn.claim h rfl (isBusy_cancelAll jobs) fun _ _ => rfl
  | choosing =>
    obtain ⟨queue, -, h⟩ := Option.bind_eq_some_iff.mp h
    split_ifs at h
    · obtain ⟨rfl, rfl⟩ := Prod.mk.inj (Option.some.inj h)
      exact .work rfl rfl (Calm.refl _)
    · obtain ⟨rfl, rfl⟩ := Prod.mk.inj (Option.some.inj h)
      exact .work rfl rfl ⟨rfl, rfl, rfl, List.Sublist.refl _⟩
  | scanning start offset =>
    rw [advance] at h
    split_ifs at h
    · obtain ⟨victim, -, h⟩ := Option.bind_eq_some_iff.mp h
      obtain ⟨rfl, rfl⟩ := Prod.mk.inj (Option.some.inj h)
      exact .work rfl (by split_ifs <;> rfl) (Calm.refl _)
    · obtain ⟨rfl, rfl⟩ := Prod.mk.inj (Option.some.inj h)
      exact .work rfl rfl (Calm.refl _)
  | publishing job batch spread =>
    obtain ⟨ht, rfl⟩ := Inner.then_cases h
    exact .work rfl (by split_ifs <;> rfl) (Calm.push ht)
  | spreading job =>
    obtain ⟨jobs, -, h⟩ := Option.bind_eq_some_iff.mp h
    obtain ⟨rfl, rfl⟩ := Prod.mk.inj (Option.some.inj h)
    exact .work rfl (by split_ifs <;> rfl) (Calm.refl _)
  | waking job =>
    obtain ⟨ht, rfl⟩ := Inner.then_cases h
    exact .work rfl rfl (Calm.notifyOne ht)
  | cancelling stage job rest =>
    cases stage with
    | uncounting | counting | cancelling =>
      obtain ⟨rfl, rfl⟩ := Prod.mk.inj (Option.some.inj h)
      exact .work rfl rfl ⟨rfl, rfl, rfl, List.Sublist.refl _⟩
    | announcing =>
      obtain ⟨rfl, rfl⟩ := Prod.mk.inj (Option.some.inj h)
      refine .work rfl ?_ (Calm.notifyAll _)
      cases rest with
      | none => rfl
      | some jobs => exact isBusy_cancelAll jobs
  | locking =>
    obtain ⟨ht, rfl⟩ := Inner.then_cases h
    exact .work rfl rfl (Calm.lock ht)
  | judging =>
    obtain ⟨rfl, rfl⟩ := Prod.mk.inj (Option.some.inj h)
    cases hlifecycle : s.lifecycle with
    | running => exact .work rfl (by split_ifs <;> rfl) (Calm.refl _)
    | shutdown =>
      simp only
      split_ifs
      · exact .work rfl rfl (Calm.refl _)
      · exact .ending hlifecycle rfl
    | stopping => exact .stop hlifecycle rfl
  | rejudging =>
    obtain ⟨rfl, rfl⟩ := Prod.mk.inj (Option.some.inj h)
    split_ifs with hcount
    · exact .empty hcount rfl
    · exact .linger (Or.inl rfl) rfl
  | judgingInflight =>
    obtain ⟨rfl, rfl⟩ := Prod.mk.inj (Option.some.inj h)
    split_ifs
    · exact .quit rfl
    · exact .linger (Or.inr rfl) rfl
  | idling orderly =>
    obtain ⟨rfl, rfl⟩ := Prod.mk.inj (Option.some.inj h)
    exact .mark orderly rfl
  | recheckingQueued orderly =>
    obtain ⟨rfl, rfl⟩ := Prod.mk.inj (Option.some.inj h)
    split_ifs with hcount horderly
    · exact .turnBack _ rfl rfl
    · exact .blind _ (Nat.eq_zero_of_not_pos hcount) (Or.inl rfl) rfl
    · exact .blind _ (Nat.eq_zero_of_not_pos hcount)
        (Or.inr (by rw [Bool.eq_false_of_not_eq_true horderly])) rfl
  | recheckingInflight =>
    obtain ⟨rfl, rfl⟩ := Prod.mk.inj (Option.some.inj h)
    split_ifs
    · exact .turnBack _ rfl rfl
    · exact .look rfl
  | recheckingPending orderly =>
    obtain ⟨rfl, rfl⟩ := Prod.mk.inj (Option.some.inj h)
    split_ifs with hpending
    · exact .turnBack _ rfl rfl
    · exact .decide _ (Nat.eq_zero_of_not_pos hpending) rfl
  | parking =>
    obtain ⟨rfl, rfl⟩ := Prod.mk.inj (Option.some.inj h)
    exact .park rfl
  | parked =>
    obtain ⟨ht, rfl⟩ := Inner.then_cases h
    obtain ⟨hk, rfl⟩ := Inner.unpark_cases ht
    exact .wake hk rfl
  | unmarking again =>
    obtain ⟨rfl, rfl⟩ := Prod.mk.inj (Option.some.inj h)
    exact .unmark again rfl
  | consuming again =>
    obtain ⟨rfl, rfl⟩ := Prod.mk.inj (Option.some.inj h)
    split_ifs with hpending
    · exact .spare again rfl hpending rfl
    · exact .find _ again rfl rfl
  | consumingFrom current again =>
    rw [advance] at h
    split_ifs at h with hsame hpending <;> obtain ⟨rfl, rfl⟩ := Prod.mk.inj (Option.some.inj h)
    · exact .consume current again rfl
    · exact .spare again rfl hpending rfl
    · exact .find _ again rfl rfl
  | unlocking again =>
    obtain ⟨rfl, rfl⟩ := Prod.mk.inj (Option.some.inj h)
    cases again with
    | true => exact .work rfl rfl ⟨rfl, rfl, rfl, List.Sublist.refl _⟩
    | false => exact .unlock rfl
  | deactivating =>
    obtain ⟨rfl, rfl⟩ := Prod.mk.inj (Option.some.inj h)
    exact .deactivate rfl
  | leaving =>
    rw [advance] at h
    split_ifs at h
    obtain ⟨rfl, rfl⟩ := Prod.mk.inj (Option.some.inj h)
    exact .leave rfl
  | exiting =>
    obtain ⟨rfl, rfl⟩ := Prod.mk.inj (Option.some.inj h)
    exact .exit rfl
  | exited => cases h
  | taking | accepting | completing | settling =>
    obtain ⟨rfl, rfl⟩ := Prod.mk.inj (Option.some.inj h)
    exact .work rfl (by split_ifs <;> rfl) ⟨rfl, rfl, rfl, List.Sublist.refl _⟩
  | activating | marking | markingRunning | running | finishing =>
    obtain ⟨rfl, rfl⟩ := Prod.mk.inj (Option.some.inj h)
    exact .work rfl rfl ⟨rfl, rfl, rfl, List.Sublist.refl _⟩
  | announcing =>
    obtain ⟨rfl, rfl⟩ := Prod.mk.inj (Option.some.inj h)
    exact .work rfl rfl (Calm.notifyAll _)

end WorkerPhase

end FixedPool

end QubitConcurrent
