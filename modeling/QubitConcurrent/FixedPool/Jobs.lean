import QubitConcurrent.FixedPool.Moves
import QubitConcurrent.Lib.Custody

/-!
# Where the jobs of a fixed pool are

The jobs of a fixed pool are in custody (`QubitConcurrent.Custody`): in the injector, a deque
or an inbox; in the hands of a submission that has not pushed its job yet; in the hands of a
worker that has claimed a batch, or drains its own queues; or in the hands of a `shutdown_now`.
The counter that is kept of them is `queued_task_count`. Every step of a thread is a move
(`QubitConcurrent.FixedPool.Thread.move`).
-/

namespace QubitConcurrent

namespace FixedPool

open Custody (Load Store Move)

/-! ### Loads -/

/-- The jobs in the hands of a worker that `queued_task_count` still counts. -/
def WorkerPhase.hand : WorkerPhase → List Job
  | publishing job batch _ => job :: batch
  | spreading job | waking job | accepting job | marking job => [job]
  | cancelling .uncounting job rest => job :: rest.getD []
  | cancelling _ _ rest => rest.getD []
  | draining jobs | drainingInbox jobs => jobs
  | _ => []

/-- The job in the hands of a worker that is accounted for. -/
def WorkerPhase.owned : WorkerPhase → List Job
  | markingRunning job | running job | cancelling .counting job _
  | cancelling .cancelling job _ => [job]
  | _ => []

/-- Whether a submission has reserved a slot, and its job is not accepted yet. -/
def SubmitPhase.reserved : SubmitPhase → ℕ
  | reverifying | unreserving => 1
  | _ => 0

/-- Whether the job of a submission was accepted: it is past the third look at the gate. -/
def SubmitPhase.isAccepted : SubmitPhase → Bool
  | counting | probing _ | probingActive _ _ | pushing _ | waking | wakingPending _ | wakingFrom _
  | wakingNotify | dropping (.ok ()) | droppingLast (.ok ()) | droppingAnnounce (.ok ())
  | returned (.ok ()) => true
  | _ => false

/-- Whether a submission still has its job. -/
def SubmitPhase.hasJob : SubmitPhase → Bool
  | counting | probing _ | probingActive _ _ | pushing _ => true
  | _ => false

/-- The jobs in the hands of a `shutdown_now` that `queued_task_count` still counts. -/
def ShutdownNowPhase.hand : ShutdownNowPhase → List Job
  | draining _ jobs _ _ | uncounting _ jobs => jobs
  | _ => []

/-- The jobs in the hands of a `shutdown_now` that are accounted for. -/
def ShutdownNowPhase.owned : ShutdownNowPhase → List Job
  | countingCancelled _ jobs | cancelling _ _ jobs => jobs
  | _ => []

/-- The load of a worker. -/
def WorkerPhase.load (p : WorkerPhase) : Load Job := ⟨0, [], p.hand, p.owned⟩

/-- The load of a submission. -/
def SubmitPhase.load (job : Job) (p : SubmitPhase) : Load Job :=
  ⟨p.reserved, if p.isAccepted then [job] else [], if p.hasJob then [job] else [], []⟩

/-- The load of a `shutdown_now`. -/
def ShutdownNowPhase.load (p : ShutdownNowPhase) : Load Job := ⟨0, [], p.hand, p.owned⟩

/-- The load of a thread. -/
def Thread.load : Thread → Load Job
  | worker p => p.load
  | submit job p => p.load job
  | shutdownNow p => p.load
  | shutdown _ | termination _ _ => .none

/-- The queues, the counter, and the jobs that are done with. -/
def Inner.store (s : Inner) : Store Job :=
  ⟨s.queueCapacity, s.queuedTaskCount, s.queued, s.ran ++ s.cancelled⟩

/-! ### The queues -/

variable {s s' : Inner} {k : ℕ} {c : Choice}

/-- A queue is a part of what is queued, and can be replaced. -/
theorem Inner.queued_setJobsAt {p : Place} {old : List Job} (h : s.jobsAt p = some old) :
    ∃ others, s.queued.Perm (others ++ old) ∧
      ∀ new, (s.setJobsAt new p).queued.Perm (others ++ new) := by
  cases p with
  | injector =>
    obtain rfl := Option.some.inj h
    exact ⟨_, List.perm_append_comm, fun new => List.perm_append_comm⟩
  | localOf i =>
    obtain ⟨q, hq, rfl⟩ := Option.map_eq_some_iff.mp h
    obtain ⟨l₁, l₂, hsplit, rfl⟩ := exists_split_of_getElem? hq
    refine ⟨s.globalQueue ++ (l₁.flatMap fun q => q.localQueue ++ q.inbox) ++ q.inbox ++
      (l₂.flatMap fun q => q.localQueue ++ q.inbox), ?_, fun new => ?_⟩
    · rw [List.perm_iff_count]
      intro j
      simp only [queued, hsplit, List.flatMap_append, List.flatMap_cons, List.count_append]
      omega
    · rw [List.perm_iff_count]
      intro j
      simp only [queued, setJobsAt, hsplit, modify_split, List.flatMap_append, List.flatMap_cons,
        List.count_append]
      omega
  | inboxOf i =>
    obtain ⟨q, hq, rfl⟩ := Option.map_eq_some_iff.mp h
    obtain ⟨l₁, l₂, hsplit, rfl⟩ := exists_split_of_getElem? hq
    refine ⟨s.globalQueue ++ (l₁.flatMap fun q => q.localQueue ++ q.inbox) ++ q.localQueue ++
      (l₂.flatMap fun q => q.localQueue ++ q.inbox), ?_, fun new => ?_⟩
    · rw [List.perm_iff_count]
      intro j
      simp only [queued, hsplit, List.flatMap_append, List.flatMap_cons, List.count_append]
      omega
    · rw [List.perm_iff_count]
      intro j
      simp only [queued, setJobsAt, hsplit, modify_split, List.flatMap_append, List.flatMap_cons,
        List.count_append]
      omega

/-- Replacing a queue changes nothing else in the store. -/
theorem Inner.store_setJobsAt (p : Place) (jobs : List Job) :
    (s.setJobsAt jobs p).store = { s.store with queued := (s.setJobsAt jobs p).queued } := by
  cases p <;> rfl

/-- Replacing something else about a worker queue leaves the store as it is. -/
theorem Inner.store_modify (i : ℕ) (f : WorkerQueue → WorkerQueue)
    (hf : ∀ q, (f q).localQueue ++ (f q).inbox = q.localQueue ++ q.inbox) :
    Inner.store { s with workerQueues := s.workerQueues.modify i f } = s.store := by
  have hmodify : ((s.workerQueues.modify i f).flatMap fun q => q.localQueue ++ q.inbox) =
      s.workerQueues.flatMap fun q => q.localQueue ++ q.inbox := by
    rcases hq : s.workerQueues[i]? with - | q
    · rw [List.modify_eq_self (List.getElem?_eq_none_iff.mp hq)]
    · obtain ⟨l₁, l₂, hsplit, rfl⟩ := exists_split_of_getElem? hq
      simp only [hsplit, modify_split, List.flatMap_append, List.flatMap_cons, hf]
  exact congrArg (fun queued => (⟨s.queueCapacity, s.queuedTaskCount, s.globalQueue ++ queued,
    s.ran ++ s.cancelled⟩ : Store Job)) hmodify

theorem Inner.store_setActive (i : ℕ) (active : Bool) : (s.setActive i active).store = s.store :=
  store_modify i _ fun _ => rfl

theorem Inner.store_bumpStealCursor (i : ℕ) : (s.bumpStealCursor i).store = s.store :=
  store_modify i _ fun _ => rfl

/-- **A claim is a move**: what is taken from the queue is in the hands then. -/
theorem move_claim {φ : Type} {p : Place} {batch : ℕ} {empty q : φ} {found : Job → List Job → φ}
    (h : s.claim p batch empty found = some (s', q)) {load : φ → Load Job} {l : Load Job}
    (hempty : load empty = l)
    (hfound : ∀ job jobs, jobs.length ≤ batch → load (found job jobs) =
      { l with hand := (load (found job jobs)).hand } ∧
      (load (found job jobs)).hand.Perm (l.hand ++ job :: jobs)) :
    Move s.store s'.store l (load q) := by
  rcases Inner.claim_cases h with ⟨-, rfl, rfl⟩ | ⟨job, rest, hjobs, rfl, rfl⟩
  · exact .aside rfl hempty
  · obtain ⟨others, hbefore, hafter⟩ := Inner.queued_setJobsAt hjobs
    obtain ⟨hload, hhand⟩ := hfound job (rest.take batch) (List.length_take_le ..)
    refine .claim (job :: rest.take batch) ?_ hhand (Inner.store_setJobsAt ..) hload
    have hsplit : others ++ job :: rest =
        others ++ job :: (rest.take batch ++ rest.drop batch) := by
      rw [List.take_append_drop]
    rw [List.perm_iff_count]
    intro j
    have hcount := hbefore.count_eq j
    have hcount' := (hafter (rest.drop batch)).count_eq j
    rw [hsplit] at hcount
    simp only [Inner.store, List.count_append, List.count_cons] at hcount hcount' ⊢
    omega

/-- **A push is a move.** -/
theorem move_push {p : Place} {jobs : List Job} {l l' : Load Job} (h : s.push p jobs = some s')
    (hhand : l.hand.Perm (l'.hand ++ jobs)) (hl : l' = { l with hand := l'.hand }) :
    Move s.store s'.store l l' := by
  obtain ⟨old, hold, rfl⟩ := Option.map_eq_some_iff.mp h
  obtain ⟨others, hbefore, hafter⟩ := Inner.queued_setJobsAt hold
  refine .push jobs ?_ hhand (Inner.store_setJobsAt ..) hl
  rw [List.perm_iff_count]
  intro j
  have hcount := hbefore.count_eq j
  have hcount' := (hafter (old ++ jobs)).count_eq j
  simp only [Inner.store, List.count_append] at hcount hcount' ⊢
  omega

/-- A claim of one job is a move. -/
theorem move_claim_one {φ : Type} {p : Place} {empty q : φ} {found : Job → φ}
    (h : s.claim p 0 empty (fun job _ => found job) = some (s', q)) {load : φ → Load Job}
    {l : Load Job} (hempty : load empty = l)
    (hfound : ∀ job, load (found job) = { l with hand := l.hand ++ [job] }) :
    Move s.store s'.store l (load q) := by
  refine move_claim h hempty fun job jobs hle => ?_
  obtain rfl := List.length_eq_zero_iff.mp (Nat.le_zero.mp hle)
  rw [hfound]
  exact ⟨rfl, List.Perm.refl _⟩

/-! ### The workers -/

/-- A loop over drained jobs begins with all of them. -/
theorem WorkerPhase.load_cancelAll (jobs : List Job) :
    (cancelAll jobs).load = ⟨0, [], jobs, []⟩ := by
  cases jobs <;> rfl

/-- Whoever waits has nothing. -/
theorem WorkerPhase.load_resumed (again : Bool) : (resumed again).load = .none := by
  cases again <;> rfl

/-- **What a worker does is a move.** -/
theorem WorkerPhase.move {p p' : WorkerPhase} (h : p.advance s k c = some (s', p')) :
    Move s.store s'.store p.load p'.load := by
  cases p with
  | poppingLocal =>
    rw [advance] at h
    exact move_claim_one h rfl fun job => rfl
  | stealingSingle =>
    rw [advance] at h
    exact move_claim_one h (by split_ifs <;> rfl) fun job => rfl
  | poppingInbox | stealingBatch | stealingLocal | stealingInbox =>
    rw [advance] at h
    exact move_claim h rfl fun job jobs _ => ⟨rfl, List.Perm.refl _⟩
  | clearing =>
    rw [advance] at h
    exact move_claim_one h rfl fun job => rfl
  | draining jobs =>
    rw [advance] at h
    exact move_claim_one h rfl fun job => rfl
  | drainingInbox jobs =>
    rw [advance] at h
    exact move_claim_one h (load_cancelAll jobs) fun job => rfl
  | activating | deactivating =>
    obtain ⟨rfl, rfl⟩ := Prod.mk.inj (Option.some.inj h)
    exact .aside (Inner.store_setActive ..) rfl
  | choosing =>
    obtain ⟨queue, -, h⟩ := Option.bind_eq_some_iff.mp h
    split_ifs at h
    · obtain ⟨rfl, rfl⟩ := Prod.mk.inj (Option.some.inj h)
      exact .aside rfl rfl
    · obtain ⟨rfl, rfl⟩ := Prod.mk.inj (Option.some.inj h)
      exact .aside (Inner.store_bumpStealCursor _) rfl
  | scanning start offset =>
    rw [advance] at h
    split_ifs at h
    · obtain ⟨victim, -, h⟩ := Option.bind_eq_some_iff.mp h
      obtain ⟨rfl, rfl⟩ := Prod.mk.inj (Option.some.inj h)
      exact .aside rfl (by split_ifs <;> rfl)
    · obtain ⟨rfl, rfl⟩ := Prod.mk.inj (Option.some.inj h)
      exact .aside rfl rfl
  | publishing job batch spread =>
    obtain ⟨ht, rfl⟩ := Inner.then_cases h
    cases spread <;> exact move_push ht (List.Perm.refl _) rfl
  | spreading job =>
    obtain ⟨jobs, -, h⟩ := Option.bind_eq_some_iff.mp h
    obtain ⟨rfl, rfl⟩ := Prod.mk.inj (Option.some.inj h)
    exact .aside rfl (by split_ifs <;> rfl)
  | waking job =>
    obtain ⟨ht, rfl⟩ := Inner.then_cases h
    rcases Inner.notifyOne_cases ht with ⟨-, rfl⟩ | ⟨-, rfl⟩ <;> exact .aside rfl rfl
  | locking =>
    obtain ⟨ht, rfl⟩ := Inner.then_cases h
    obtain ⟨-, rfl⟩ := Inner.lock_cases ht
    exact .aside rfl rfl
  | parked =>
    obtain ⟨ht, rfl⟩ := Inner.then_cases h
    obtain ⟨-, rfl⟩ := Inner.unpark_cases ht
    exact .aside rfl rfl
  | marking job =>
    obtain ⟨rfl, rfl⟩ := Prod.mk.inj (Option.some.inj h)
    exact .account [job] rfl (List.Perm.refl _) (List.Perm.refl _) rfl rfl
  | running job =>
    obtain ⟨rfl, rfl⟩ := Prod.mk.inj (Option.some.inj h)
    refine .finish job ?_ (List.Perm.refl _) rfl rfl
    rw [List.perm_iff_count]
    intro j
    simp only [Inner.store, List.count_append]
    omega
  | cancelling stage job rest =>
    cases stage with
    | uncounting =>
      obtain ⟨rfl, rfl⟩ := Prod.mk.inj (Option.some.inj h)
      exact .account [job] rfl (List.perm_append_singleton ..).symm (List.Perm.refl _) rfl rfl
    | counting =>
      obtain ⟨rfl, rfl⟩ := Prod.mk.inj (Option.some.inj h)
      exact .aside rfl rfl
    | cancelling =>
      obtain ⟨rfl, rfl⟩ := Prod.mk.inj (Option.some.inj h)
      refine .finish job ?_ (List.Perm.refl _) rfl rfl
      rw [Inner.store, Inner.store, List.append_assoc]
    | announcing =>
      obtain ⟨rfl, rfl⟩ := Prod.mk.inj (Option.some.inj h)
      refine .aside rfl ?_
      cases rest with
      | none => rfl
      | some jobs => exact load_cancelAll jobs
  | consumingFrom =>
    rw [advance] at h
    split_ifs at h <;> obtain ⟨rfl, rfl⟩ := Prod.mk.inj (Option.some.inj h)
    · exact .aside rfl (load_resumed _)
    · exact .aside rfl (load_resumed _)
    · exact .aside rfl rfl
  | consuming =>
    obtain ⟨rfl, rfl⟩ := Prod.mk.inj (Option.some.inj h)
    refine .aside rfl ?_
    split_ifs
    · exact load_resumed _
    · rfl
  | leaving =>
    rw [advance] at h
    split_ifs at h
    obtain ⟨rfl, rfl⟩ := Prod.mk.inj (Option.some.inj h)
    exact .aside rfl rfl
  | exited => cases h
  | judging =>
    obtain ⟨rfl, rfl⟩ := Prod.mk.inj (Option.some.inj h)
    refine .aside rfl ?_
    cases s.lifecycle with
    | running | shutdown => split_ifs <;> rfl
    | stopping => rfl
  | taking | accepting | completing | settling | rejudging | judgingInflight | recheckingQueued
  | recheckingInflight | recheckingPending | unlocking =>
    obtain ⟨rfl, rfl⟩ := Prod.mk.inj (Option.some.inj h)
    exact .aside rfl (by split_ifs <;> rfl)
  | markingRunning | finishing | announcing | idling | parking | unmarking | exiting =>
    obtain ⟨rfl, rfl⟩ := Prod.mk.inj (Option.some.inj h)
    exact .aside rfl rfl

/-! ### The others -/

/-- What a submission that has found room in the queue remembers. -/
def SubmitPhase.Fits (s : Inner) : SubmitPhase → Prop
  | reservingFrom current => ∀ capacity ∈ s.queueCapacity, current < capacity
  | _ => True

/-- Whoever looks for a queue has its job, which was accepted. -/
theorem SubmitPhase.load_of_isRouting {q : SubmitPhase} (job : Job) (h : q.isRouting = true) :
    q.load job = ⟨0, [job], [job], []⟩ := by
  cases q with
  | counting | probing | probingActive | pushing => rfl
  | _ => cases h

/-- **What a submission does is a move.** -/
theorem SubmitPhase.Turn.move {q q' : SubmitPhase} {job : Job} (h : Turn s s' job c q q')
    (hfits : q.Fits s) : Move s.store s'.store (q.load job) (q'.load job) := by
  cases h with
  | reserve hnone hs =>
    subst hs
    refine .reserve (fun n hn => ?_) rfl rfl
    exact absurd (hnone.symm.trans hn) (Option.some_ne_none n).symm
  | reserveFrom current hcurrent hs =>
    subst hs
    refine .reserve (fun n hn => ?_) rfl rfl
    exact hcurrent.trans_lt (hfits n hn)
  | accept hopen hs =>
    subst hs
    exact .accept job rfl rfl rfl rfl rfl
  | unreserve hs =>
    subst hs
    exact .unreserve rfl rfl
  | route hq hq' submitted next hs =>
    subst hs
    exact .aside rfl (by rw [load_of_isRouting job hq, load_of_isRouting job hq'])
  | push place hs => exact move_push hs (List.Perm.refl _) rfl
  | notify hs => rcases Inner.notifyOne_cases hs with ⟨-, rfl⟩ | ⟨-, rfl⟩ <;> exact .aside rfl rfl
  | dropLast result _ hs | drop result _ hs | dropOpen result _ hs | dropClosed result hs
  | dropAnnounce result hs =>
    subst hs
    cases result <;> exact .aside rfl rfl
  | _ =>
    subst_vars
    exact .aside rfl rfl

/-- After a queue was found empty a `shutdown_now` still has what it has drained. -/
theorem ShutdownNowPhase.load_drainNext (running : ℕ) (jobs : List Job) (previous : ℕ)
    (place : Option Place) : (drainNext running jobs previous place).load = ⟨0, [], jobs, []⟩ := by
  cases place with
  | some place => rfl
  | none =>
    unfold drainNext
    split_ifs
    · cases jobs <;> rfl
    · rfl

/-- **What a `shutdown_now` does is a move.** -/
theorem ShutdownNowPhase.Turn.move {q q' : ShutdownNowPhase} (h : Turn s s' k q q') :
    Move s.store s'.store q.load q'.load := by
  cases h with
  | drain running jobs previous place hs =>
    exact move_claim_one hs (load_drainNext ..) fun job => rfl
  | uncount running jobs hs =>
    subst hs
    exact .account jobs rfl (List.Perm.refl _) (List.Perm.refl _) rfl rfl
  | cancel running count job jobs hs =>
    subst hs
    refine .finish job ?_ (List.perm_append_singleton ..).symm rfl rfl
    rw [Inner.store, Inner.store, List.append_assoc]
  | _ =>
    subst_vars
    exact .aside rfl rfl

/-- Whoever shuts down in an orderly way does not touch the jobs. -/
theorem ShutdownPhase.store {p p' : ShutdownPhase} (h : p.advance s = some (s', p')) :
    s'.store = s.store := by
  cases p with
  | switching =>
    rw [advance] at h
    split_ifs at h <;> obtain ⟨rfl, -⟩ := Prod.mk.inj (Option.some.inj h) <;> rfl
  | returned => cases h
  | closing | announcing =>
    obtain ⟨rfl, -⟩ := Prod.mk.inj (Option.some.inj h)
    rfl

/-- Nor does whoever asks for the end. -/
theorem TerminationPhase.store {p p' : TerminationPhase} {waits : Bool}
    (h : p.advance s k waits = some (s', p')) : s'.store = s.store := by
  cases p with
  | locking =>
    obtain ⟨ht, -⟩ := Inner.then_cases h
    obtain ⟨-, rfl⟩ := Inner.lock_cases ht
    rfl
  | parked =>
    obtain ⟨ht, -⟩ := Inner.then_cases h
    obtain ⟨-, rfl⟩ := Inner.unpark_cases ht
    rfl
  | answering terminated =>
    rw [advance] at h
    split_ifs at h <;> obtain ⟨rfl, -⟩ := Prod.mk.inj (Option.some.inj h) <;> rfl
  | returned => cases h
  | readingQueued | readingRunning | readingInflight =>
    obtain ⟨rfl, -⟩ := Prod.mk.inj (Option.some.inj h)
    rfl

/-- What a thread remembers of the room in the queue. -/
def Thread.Fits (s : Inner) : Thread → Prop
  | submit _ p => p.Fits s
  | _ => True

/-- **What a thread does is a move.** -/
theorem Thread.move {t t' : Thread} (h : t.advance s k c = some (s', t')) (hfits : t.Fits s) :
    Move s.store s'.store t.load t'.load := by
  cases Thread.goes h with
  | worker hq => exact WorkerPhase.move hq
  | submit hq => exact hq.move hfits
  | shutdown hq => exact .aside (ShutdownPhase.store hq) rfl
  | shutdownNow hq => exact hq.move
  | termination hq => exact .aside (TerminationPhase.store hq) rfl

end FixedPool

end QubitConcurrent
