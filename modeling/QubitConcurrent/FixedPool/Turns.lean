import QubitConcurrent.FixedPool.Threads

/-!
# What the threads of a fixed pool may do

The operations on the queues and on the monitor, each with all it may do, and from them what a
submission, and what a `shutdown_now`, may do in one step: every constructor of
`QubitConcurrent.FixedPool.SubmitPhase.Turn` and
`QubitConcurrent.FixedPool.ShutdownNowPhase.Turn` is a branch of the code, with what it has
read and what it has written. What is said of their steps later is said branch by branch.
-/

namespace QubitConcurrent

namespace FixedPool

open ThreadPool (RejectedExecution)

/-! ### The operations -/

namespace Inner

variable {s s' : Inner}

/-- A claim finds a queue empty, or takes from its front. -/
theorem claim_cases {φ : Type} {p : Place} {batch : ℕ} {empty q : φ}
    {found : Job → List Job → φ} (h : s.claim p batch empty found = some (s', q)) :
    (s.jobsAt p = some [] ∧ s' = s ∧ q = empty) ∨
      ∃ job rest, s.jobsAt p = some (job :: rest) ∧ s' = s.setJobsAt (rest.drop batch) p ∧
        q = found job (rest.take batch) := by
  obtain ⟨jobs, hjobs, h⟩ := Option.map_eq_some_iff.mp h
  cases jobs with
  | nil =>
    obtain ⟨rfl, rfl⟩ := Prod.mk.inj h
    exact Or.inl ⟨hjobs, rfl, rfl⟩
  | cons job rest =>
    obtain ⟨rfl, rfl⟩ := Prod.mk.inj h
    exact Or.inr ⟨job, rest, hjobs, rfl, rfl⟩

/-- An operation is done, and then the thread is in its next phase. -/
theorem then_cases {φ : Type} {operation : Option Inner} {next q : φ}
    (h : (operation.bind fun t => some (t, next)) = some (s', q)) :
    operation = some s' ∧ next = q := by
  obtain ⟨t, ht, h⟩ := Option.bind_eq_some_iff.mp h
  obtain ⟨rfl, rfl⟩ := Prod.mk.inj (Option.some.inj h)
  exact ⟨ht, rfl⟩

/-- The monitor is taken where it is free. -/
theorem lock_cases {k : ℕ} (h : s.lock k = some s') :
    s.owner = none ∧ s' = { s with owner := some k } := by
  unfold lock at h
  split_ifs at h with hfree
  exact ⟨hfree, (Option.some.inj h).symm⟩

/-- A thread that waits goes on when it was notified and the monitor is free. -/
theorem unpark_cases {k : ℕ} (h : s.unpark k = some s') :
    k ∉ s.waiters ∧ s' = { s with owner := some k } := by
  unfold unpark at h
  split_ifs at h with hk
  exact ⟨hk, (lock_cases h).2⟩

/-- `notify_one` reaches nobody where nobody waits, and somebody who waits otherwise. -/
theorem notifyOne_cases {target : ℕ} (h : s.notifyOne target = some s') :
    (s.waiters = [] ∧ s' = s) ∨
      (target ∈ s.waiters ∧ s' = { s with waiters := s.waiters.erase target }) := by
  unfold notifyOne at h
  split_ifs at h with hnobody hmem
  · exact Or.inl ⟨hnobody, (Option.some.inj h).symm⟩
  · exact Or.inr ⟨hmem, (Option.some.inj h).symm⟩

end Inner

/-! ### Submissions -/

namespace SubmitPhase

/-- Whether a submission is on its way to a queue. -/
def isRouting : SubmitPhase → Bool
  | counting | probing _ | probingActive _ _ | pushing _ => true
  | _ => false

/-- What a submission does in one step. -/
inductive Turn (s s' : Inner) (job : Job) (c : Choice) : SubmitPhase → SubmitPhase → Prop
  /-- It finds the gate open. -/
  | check (hopen : s.accepting = true) (hs : s' = s) : Turn s s' job c checking entering
  /-- It finds the gate closed. -/
  | turnAway (hs : s' = s) : Turn s s' job c checking (returned (.error .shutdown))
  /-- It enters itself in the count. -/
  | enter (hs : s' = { s with inflightSubmissions := s.inflightSubmissions + 1 }) :
    Turn s s' job c entering rechecking
  /-- It finds the gate open again. -/
  | pass (hopen : s.accepting = true) (hs : s' = s) : Turn s s' job c rechecking reserving
  /-- It finds the gate closed, after it has entered itself. -/
  | refuse (hclosed : s.accepting = false) (hs : s' = s) : Turn s s' job c rechecking retreating
  /-- It takes itself out of the count, and leaves it at zero. -/
  | retreatLast (hone : s.inflightSubmissions = 1)
      (hs : s' = { s with inflightSubmissions := s.inflightSubmissions - 1 }) :
    Turn s s' job c retreating retreatAnnouncing
  /-- It takes itself out of the count, and others are left. -/
  | retreat (hne : s.inflightSubmissions ≠ 1)
      (hs : s' = { s with inflightSubmissions := s.inflightSubmissions - 1 }) :
    Turn s s' job c retreating (returned (.error .shutdown))
  /-- It finds the queue full. -/
  | full (hs : s' = s) : Turn s s' job c reserving (dropping (.error .saturated))
  /-- It finds room in the queue. -/
  | room (hroom : ∀ capacity ∈ s.queueCapacity, s.queuedTaskCount < capacity) (hs : s' = s) :
    Turn s s' job c reserving (reservingFrom s.queuedTaskCount)
  /-- It reserves a slot in a queue without a capacity. -/
  | reserve (hnone : s.queueCapacity = none)
      (hs : s' = { s with queuedTaskCount := s.queuedTaskCount + 1 }) :
    Turn s s' job c reserving reverifying
  /-- It reserves the slot it has seen. -/
  | reserveFrom (current : ℕ) (hcurrent : s.queuedTaskCount = current)
      (hs : s' = { s with queuedTaskCount := s.queuedTaskCount + 1 }) :
    Turn s s' job c (reservingFrom current) reverifying
  /-- Somebody else has come first. -/
  | reserveAgain (current : ℕ) (hs : s' = s) : Turn s s' job c (reservingFrom current) reserving
  /-- It finds the gate open for the third time: its job is accepted. -/
  | accept (hopen : s.accepting = true) (hs : s' = s) : Turn s s' job c reverifying counting
  /-- It finds the gate closed, after it has reserved a slot. -/
  | giveUp (hs : s' = s) : Turn s s' job c reverifying unreserving
  /-- It gives the slot back. -/
  | unreserve (hs : s' = { s with queuedTaskCount := s.queuedTaskCount - 1 }) :
    Turn s s' job c unreserving (dropping (.error .shutdown))
  /-- It looks for a queue. -/
  | route {q q' : SubmitPhase} (hq : q.isRouting = true) (hq' : q'.isRouting = true)
      (submitted next : ℕ)
      (hs : s' = { s with submittedTaskCount := submitted, nextEnqueueWorker := next }) :
    Turn s s' job c q q'
  /-- It pushes its job. -/
  | push (place : Place) (hs : s.push place [job] = some s') :
    Turn s s' job c (pushing place) waking
  /-- It finds no idle worker. -/
  | busy (hidle : s.idleWorkerCount = 0) (hs : s' = s) :
    Turn s s' job c waking (dropping (.ok ()))
  /-- It finds idle workers. -/
  | idle (hidle : 0 < s.idleWorkerCount) (hs : s' = s) :
    Turn s s' job c waking (wakingPending s.idleWorkerCount)
  /-- It finds as many tokens as idle workers. -/
  | covered (idleWorkers : ℕ) (hpending : idleWorkers ≤ s.pendingWorkerWakes) (hs : s' = s) :
    Turn s s' job c (wakingPending idleWorkers) (dropping (.ok ()))
  /-- It finds fewer tokens than idle workers. -/
  | uncovered (idleWorkers : ℕ) (hs : s' = s) :
    Turn s s' job c (wakingPending idleWorkers) (wakingFrom s.pendingWorkerWakes)
  /-- It raises a token. -/
  | raise (pendingWakes : ℕ)
      (hs : s' = { s with pendingWorkerWakes := s.pendingWorkerWakes + 1 }) :
    Turn s s' job c (wakingFrom pendingWakes) wakingNotify
  /-- The tokens have changed, or the exchange fails for no reason. -/
  | raiseAgain (pendingWakes : ℕ) (hs : s' = s) : Turn s s' job c (wakingFrom pendingWakes) waking
  /-- It notifies. -/
  | notify (hs : s.notifyOne c.target = some s') :
    Turn s s' job c wakingNotify (dropping (.ok ()))
  /-- Its guard takes it out of the count, and leaves it at zero. -/
  | dropLast (result : Except RejectedExecution Unit) (hone : s.inflightSubmissions = 1)
      (hs : s' = { s with inflightSubmissions := s.inflightSubmissions - 1 }) :
    Turn s s' job c (dropping result) (droppingLast result)
  /-- Its guard takes it out of the count, and others are left. -/
  | drop (result : Except RejectedExecution Unit) (hne : s.inflightSubmissions ≠ 1)
      (hs : s' = { s with inflightSubmissions := s.inflightSubmissions - 1 }) :
    Turn s s' job c (dropping result) (returned result)
  /-- Its guard finds the gate open: nobody waits for submissions. -/
  | dropOpen (result : Except RejectedExecution Unit) (hopen : s.accepting = true) (hs : s' = s) :
    Turn s s' job c (droppingLast result) (returned result)
  /-- Its guard finds the gate closed. -/
  | dropClosed (result : Except RejectedExecution Unit) (hs : s' = s) :
    Turn s s' job c (droppingLast result) (droppingAnnounce result)
  /-- It notifies all, after its roll-back. -/
  | announce (hs : s' = s.notifyAll) :
    Turn s s' job c retreatAnnouncing (returned (.error .shutdown))
  /-- Its guard notifies all. -/
  | dropAnnounce (result : Except RejectedExecution Unit) (hs : s' = s.notifyAll) :
    Turn s s' job c (droppingAnnounce result) (returned result)

variable {s s' : Inner} {job : Job} {c : Choice}

/-- **What a submission does is one of its turns.** -/
theorem turn {q q' : SubmitPhase} (h : q.advance s job c = some (s', q')) :
    Turn s s' job c q q' := by
  cases q with
  | checking =>
    obtain ⟨rfl, rfl⟩ := Prod.mk.inj (Option.some.inj h)
    split_ifs with hopen
    · exact .check hopen rfl
    · exact .turnAway rfl
  | entering =>
    obtain ⟨rfl, rfl⟩ := Prod.mk.inj (Option.some.inj h)
    exact .enter rfl
  | rechecking =>
    obtain ⟨rfl, rfl⟩ := Prod.mk.inj (Option.some.inj h)
    split_ifs with hopen
    · exact .pass hopen rfl
    · exact .refuse (Bool.eq_false_of_not_eq_true hopen) rfl
  | retreating =>
    obtain ⟨rfl, rfl⟩ := Prod.mk.inj (Option.some.inj h)
    split_ifs with hone
    · exact .retreatLast hone rfl
    · exact .retreat hone rfl
  | retreatAnnouncing =>
    obtain ⟨rfl, rfl⟩ := Prod.mk.inj (Option.some.inj h)
    exact .announce rfl
  | reserving =>
    rw [advance] at h
    split at h
    case h_1 capacity hcapacity =>
      obtain ⟨rfl, rfl⟩ := Prod.mk.inj (Option.some.inj h)
      split_ifs with hfull
      · exact .full rfl
      · refine .room (fun n hn => ?_) rfl
        obtain rfl := Option.some.inj (hcapacity.symm.trans hn)
        exact Nat.lt_of_not_le hfull
    case h_2 hnone =>
      obtain ⟨rfl, rfl⟩ := Prod.mk.inj (Option.some.inj h)
      exact .reserve hnone rfl
  | reservingFrom current =>
    rw [advance] at h
    split_ifs at h with hcurrent <;> obtain ⟨rfl, rfl⟩ := Prod.mk.inj (Option.some.inj h)
    · exact .reserveFrom current hcurrent (by rw [hcurrent])
    · exact .reserveAgain current rfl
  | reverifying =>
    obtain ⟨rfl, rfl⟩ := Prod.mk.inj (Option.some.inj h)
    split_ifs with hopen
    · exact .accept hopen rfl
    · exact .giveUp rfl
  | unreserving =>
    obtain ⟨rfl, rfl⟩ := Prod.mk.inj (Option.some.inj h)
    exact .unreserve rfl
  | counting =>
    obtain ⟨rfl, rfl⟩ := Prod.mk.inj (Option.some.inj h)
    exact .route rfl (by split_ifs <;> rfl) _ _ rfl
  | probing left =>
    cases left <;> obtain ⟨rfl, rfl⟩ := Prod.mk.inj (Option.some.inj h) <;>
      exact .route rfl rfl _ _ rfl
  | probingActive =>
    obtain ⟨queue, -, h⟩ := Option.bind_eq_some_iff.mp h
    obtain ⟨rfl, rfl⟩ := Prod.mk.inj (Option.some.inj h)
    exact .route rfl (by split_ifs <;> rfl) _ _ rfl
  | pushing place =>
    obtain ⟨ht, rfl⟩ := Inner.then_cases h
    exact .push place ht
  | waking =>
    obtain ⟨rfl, rfl⟩ := Prod.mk.inj (Option.some.inj h)
    split_ifs with hidle
    · exact .busy hidle rfl
    · exact .idle (Nat.pos_of_ne_zero hidle) rfl
  | wakingPending idleWorkers =>
    obtain ⟨rfl, rfl⟩ := Prod.mk.inj (Option.some.inj h)
    split_ifs with hpending
    · exact .covered _ hpending rfl
    · exact .uncovered _ rfl
  | wakingFrom pendingWakes =>
    rw [advance] at h
    split_ifs at h with hsame <;> obtain ⟨rfl, rfl⟩ := Prod.mk.inj (Option.some.inj h)
    · exact .raise _ (by rw [hsame.1])
    · exact .raiseAgain _ rfl
  | wakingNotify =>
    obtain ⟨ht, rfl⟩ := Inner.then_cases h
    exact .notify ht
  | dropping result =>
    obtain ⟨rfl, rfl⟩ := Prod.mk.inj (Option.some.inj h)
    split_ifs with hone
    · exact .dropLast result hone rfl
    · exact .drop result hone rfl
  | droppingLast result =>
    obtain ⟨rfl, rfl⟩ := Prod.mk.inj (Option.some.inj h)
    split_ifs with hopen
    · exact .dropOpen result hopen rfl
    · exact .dropClosed result rfl
  | droppingAnnounce result =>
    obtain ⟨rfl, rfl⟩ := Prod.mk.inj (Option.some.inj h)
    exact .dropAnnounce result rfl
  | returned => cases h

end SubmitPhase

/-! ### Those who shut down at once -/

namespace ShutdownNowPhase

/-- What a `shutdown_now` does in one step. -/
inductive Turn (s s' : Inner) (k : ℕ) : ShutdownNowPhase → ShutdownNowPhase → Prop
  /-- It closes the gate. -/
  | close (hs : s' = { s with accepting := false }) : Turn s s' k closing stopping
  /-- It tells the workers to stop. -/
  | stop (hs : s' = { s with stopNow := true }) : Turn s s' k stopping counting
  /-- It looks how many jobs are running. -/
  | count (hs : s' = s) : Turn s s' k counting (locking s.runningTaskCount)
  /-- It takes the monitor, and stops the pool. -/
  | lock (running : ℕ) (hs : s' = { s with owner := some k, lifecycle := .stopping }) :
    Turn s s' k (locking running) (testing running)
  /-- It finds a submission in flight. -/
  | wait (running : ℕ) (hinflight : 0 < s.inflightSubmissions) (hs : s' = s) :
    Turn s s' k (testing running) (parking running)
  /-- It finds no submission in flight. -/
  | pass (running : ℕ) (hzero : s.inflightSubmissions = 0) (hs : s' = s) :
    Turn s s' k (testing running) (unlocking running)
  /-- It waits. -/
  | park (running : ℕ) (hs : s' = s.park k) : Turn s s' k (parking running) (parked running)
  /-- It was woken up. -/
  | wake (running : ℕ) (hk : k ∉ s.waiters) (hs : s' = { s with owner := some k }) :
    Turn s s' k (parked running) (testing running)
  /-- It releases the monitor. -/
  | unlock (running : ℕ) (hs : s' = s.unlock) :
    Turn s s' k (unlocking running) (draining running [] 0 .injector)
  /-- It drains a queue. -/
  | drain (running : ℕ) (jobs : List Job) (previous : ℕ) (place : Place) {q' : ShutdownNowPhase}
      (hs : s.claim place 0 (drainNext running jobs previous (s.nextPlace place))
        (fun job _ => draining running (jobs ++ [job]) previous place) = some (s', q')) :
    Turn s s' k (draining running jobs previous place) q'
  /-- It accounts for the jobs it has drained. -/
  | uncount (running : ℕ) (jobs : List Job)
      (hs : s' = { s with queuedTaskCount := s.queuedTaskCount - jobs.length }) :
    Turn s s' k (uncounting running jobs) (countingCancelled running jobs)
  /-- It counts them as cancelled. -/
  | countCancelled (running : ℕ) (jobs : List Job)
      (hs : s' = { s with cancelledTaskCount := s.cancelledTaskCount + jobs.length }) :
    Turn s s' k (countingCancelled running jobs) (cancelling running jobs.length jobs)
  /-- It cancels one of them. -/
  | cancel (running count : ℕ) (job : Job) (jobs : List Job)
      (hs : s' = { s with cancelled := s.cancelled ++ [job] }) :
    Turn s s' k (cancelling running count (job :: jobs)) (cancelling running count jobs)
  /-- It has cancelled all of them. -/
  | done (running count : ℕ) (hs : s' = s) :
    Turn s s' k (cancelling running count []) (announcing running count)
  /-- It notifies all. -/
  | announce (running count : ℕ) (hs : s' = s.notifyAll) :
    Turn s s' k (announcing running count) (returned ⟨count, running, count⟩)

variable {s s' : Inner} {k : ℕ}

/-- **What a `shutdown_now` does is one of its turns.** -/
theorem turn {q q' : ShutdownNowPhase} (h : q.advance s k = some (s', q')) : Turn s s' k q q' := by
  cases q with
  | closing =>
    obtain ⟨rfl, rfl⟩ := Prod.mk.inj (Option.some.inj h)
    exact .close rfl
  | stopping =>
    obtain ⟨rfl, rfl⟩ := Prod.mk.inj (Option.some.inj h)
    exact .stop rfl
  | counting =>
    obtain ⟨rfl, rfl⟩ := Prod.mk.inj (Option.some.inj h)
    exact .count rfl
  | locking running =>
    obtain ⟨t, ht, h⟩ := Option.bind_eq_some_iff.mp h
    obtain ⟨rfl, rfl⟩ := Prod.mk.inj (Option.some.inj h)
    obtain ⟨-, rfl⟩ := Inner.lock_cases ht
    exact .lock running rfl
  | testing running =>
    obtain ⟨rfl, rfl⟩ := Prod.mk.inj (Option.some.inj h)
    split_ifs with hinflight
    · exact .wait running hinflight rfl
    · exact .pass running (Nat.eq_zero_of_not_pos hinflight) rfl
  | parking running =>
    obtain ⟨rfl, rfl⟩ := Prod.mk.inj (Option.some.inj h)
    exact .park running rfl
  | parked running =>
    obtain ⟨ht, rfl⟩ := Inner.then_cases h
    obtain ⟨hk, rfl⟩ := Inner.unpark_cases ht
    exact .wake running hk rfl
  | unlocking running =>
    obtain ⟨rfl, rfl⟩ := Prod.mk.inj (Option.some.inj h)
    exact .unlock running rfl
  | draining running jobs previous place =>
    rw [advance] at h
    exact .drain running jobs previous place h
  | uncounting running jobs =>
    obtain ⟨rfl, rfl⟩ := Prod.mk.inj (Option.some.inj h)
    exact .uncount running jobs rfl
  | countingCancelled running jobs =>
    obtain ⟨rfl, rfl⟩ := Prod.mk.inj (Option.some.inj h)
    exact .countCancelled running jobs rfl
  | cancelling running count jobs =>
    cases jobs with
    | nil =>
      obtain ⟨rfl, rfl⟩ := Prod.mk.inj (Option.some.inj h)
      exact .done running count rfl
    | cons job jobs =>
      obtain ⟨rfl, rfl⟩ := Prod.mk.inj (Option.some.inj h)
      exact .cancel running count job jobs rfl
  | announcing running count =>
    obtain ⟨rfl, rfl⟩ := Prod.mk.inj (Option.some.inj h)
    exact .announce running count rfl
  | returned => cases h

end ShutdownNowPhase

/-! ### Any thread -/

/-- A thread goes on as what it is. -/
inductive Thread.Goes (s s' : Inner) (k : ℕ) (c : Choice) : Thread → Thread → Prop
  /-- A worker. -/
  | worker {q q' : WorkerPhase} (h : q.advance s k c = some (s', q')) :
    Goes s s' k c (.worker q) (.worker q')
  /-- A submission. -/
  | submit {job : Job} {q q' : SubmitPhase} (h : q.Turn s s' job c q') :
    Goes s s' k c (.submit job q) (.submit job q')
  /-- Somebody who shuts down. -/
  | shutdown {q q' : ShutdownPhase} (h : q.advance s = some (s', q')) :
    Goes s s' k c (.shutdown q) (.shutdown q')
  /-- Somebody who shuts down at once. -/
  | shutdownNow {q q' : ShutdownNowPhase} (h : q.Turn s s' k q') :
    Goes s s' k c (.shutdownNow q) (.shutdownNow q')
  /-- Somebody who asks for the end. -/
  | termination {waits : Bool} {q q' : TerminationPhase} (h : q.advance s k waits = some (s', q')) :
    Goes s s' k c (.termination waits q) (.termination waits q')

/-- **What a thread does, it does as what it is.** -/
theorem Thread.goes {s s' : Inner} {k : ℕ} {c : Choice} {t t' : Thread}
    (h : t.advance s k c = some (s', t')) : Thread.Goes s s' k c t t' := by
  cases t with
  | worker q =>
    obtain ⟨⟨r, q'⟩, hq, h⟩ := Option.map_eq_some_iff.mp h
    obtain ⟨rfl, rfl⟩ := Prod.mk.inj h
    exact .worker hq
  | submit job q =>
    obtain ⟨⟨r, q'⟩, hq, h⟩ := Option.map_eq_some_iff.mp h
    obtain ⟨rfl, rfl⟩ := Prod.mk.inj h
    exact .submit (SubmitPhase.turn hq)
  | shutdown q =>
    obtain ⟨⟨r, q'⟩, hq, h⟩ := Option.map_eq_some_iff.mp h
    obtain ⟨rfl, rfl⟩ := Prod.mk.inj h
    exact .shutdown hq
  | shutdownNow q =>
    obtain ⟨⟨r, q'⟩, hq, h⟩ := Option.map_eq_some_iff.mp h
    obtain ⟨rfl, rfl⟩ := Prod.mk.inj h
    exact .shutdownNow (ShutdownNowPhase.turn hq)
  | termination waits q =>
    obtain ⟨⟨r, q'⟩, hq, h⟩ := Option.map_eq_some_iff.mp h
    obtain ⟨rfl, rfl⟩ := Prod.mk.inj h
    exact .termination hq

end FixedPool

end QubitConcurrent
