import QubitConcurrent.Services.TokioMoves

/-!
# Which tasks a `shutdown_now` of a Tokio service reaches

A `shutdown_now` signals the abort handles it finds in `abort_handles`. A submission puts its
handle there after it has released the submission lock, so a `shutdown_now` may come in
between: then the task was admitted before the flag was set, and its handle arrives in a list
that nobody drains any more.

This is the only way to be missed: in a run in which no submission
puts its handle into a list that was drained, every task whose submission has returned was
signalled (`QubitConcurrent.Tokio.signalled_of_reach`).
-/

namespace QubitConcurrent

namespace Tokio

open Services

open TaskHandle (TaskResult)

variable {R E : Type} {poll : Task.Poll R E} {s s' : Service R E} {i : ℕ}

/-! ### What was drained, and what was signalled -/

/-- Whether a call has returned the report of a `shutdown_now`. -/
def Reply.isShutdownNow : Reply → Bool
  | .shutdownNow _ => true
  | _ => false

/-- Whether a `shutdown_now` has drained `abort_handles`. -/
def Holder.hasDrained : Holder → Bool
  | shutdownNowAborting _ _ | shutdownNowAnnouncing _ _ => true
  | _ => false

/-- Whether a `shutdown_now` has signalled all it has drained. -/
def Holder.hasSignalled : Holder → Bool
  | shutdownNowAnnouncing _ _ => true
  | _ => false

/-- Who has not drained the list has not signalled what is in it. -/
theorem hasSignalled_eq_false {lock : Option Holder} (h : lock.any Holder.hasDrained = false) :
    lock.any Holder.hasSignalled = false := by
  cases lock with
  | none => rfl
  | some g =>
    rw [Option.any_some] at h ⊢
    cases g <;> first | rfl | exact absurd h (by simp [Holder.hasDrained])

namespace Service

/-- Whether some `shutdown_now` has drained `abort_handles`. -/
def hasDrained (s : Service R E) : Bool :=
  s.replies.any Reply.isShutdownNow || s.submissionLock.any Holder.hasDrained

/-- Whether some `shutdown_now` has signalled all it has drained. -/
def hasSignalled (s : Service R E) : Bool :=
  s.replies.any Reply.isShutdownNow || s.submissionLock.any Holder.hasSignalled

/-- Whether the submission of a task has returned. -/
def returnedAt (s : Service R E) (i : ℕ) : Bool :=
  (s.tasks[i]?).any fun t => t.submit == .returned

/-- Whether a task was signalled to abort. -/
def abortedAt (s : Service R E) (i : ℕ) : Bool := (s.tasks[i]?).any Task.aborted

/-- Whether the guard of a task has taken it out of `active_tasks`. -/
def releasedAt (s : Service R E) (i : ℕ) : Bool := (s.tasks[i]?).any Task.released

end Service

/-- A task moves, and its submission has returned as before. -/
theorem returnedAt_set {t t' : Task R E} (hi : s.tasks[i]? = some t)
    (htasks : s'.tasks = s.tasks.set i t')
    (ht : t'.submit = .returned ↔ t.submit = .returned) : s'.returnedAt = s.returnedAt := by
  have hsame : (t'.submit == .returned) = (t.submit == .returned) := by
    rw [Bool.eq_iff_iff, beq_iff_eq, beq_iff_eq, ht]
  funext j
  rw [Service.returnedAt, htasks]
  exact congrFun (any_getElem?_set_same hi (p := fun t => t.submit == .returned) hsame) j

/-- A task moves, and no signal is taken back. -/
theorem abortedAt_set {t t' : Task R E} (hi : s.tasks[i]? = some t)
    (htasks : s'.tasks = s.tasks.set i t') (ht : t.aborted = true → t'.aborted = true) (j : ℕ)
    (hj : s.abortedAt j = true) : s'.abortedAt j = true := by
  rw [Service.abortedAt, htasks]
  have hset := congrFun (any_getElem?_set hi Task.aborted t') j
  rw [show _ = _ from hset]
  rcases eq_or_ne j i with rfl | hne
  · rw [Function.update_self]
    rw [Service.abortedAt, hi, Option.any_some] at hj
    exact ht hj
  · rw [Function.update_of_ne hne]
    exact hj

/-- **What an abort does**: the task is signalled, and no other signal is taken back. -/
theorem abort_spec (s : Service R E) (i : ℕ) :
    (s.abort i).returnedAt = s.returnedAt ∧ (s.abort i).releasedAt = s.releasedAt ∧
      (∀ j, s.abortedAt j = true → (s.abort i).abortedAt j = true) ∧
        (i < s.tasks.length → (s.abort i).abortedAt i = true) := by
  rw [Service.abort]
  split
  · next t hi =>
    obtain ⟨hlt, -⟩ := List.getElem?_eq_some_iff.mp hi
    refine ⟨returnedAt_set hi rfl Iff.rfl, ?_, abortedAt_set hi rfl fun _ => rfl, fun _ => ?_⟩
    · exact any_getElem?_set_same hi rfl
    · simp [Service.abortedAt, Service.setTask, hlt]
  · next hi =>
    refine ⟨rfl, rfl, fun j => id, fun hlt => ?_⟩
    rw [List.getElem?_eq_none_iff] at hi
    omega

/-- A task whose submission has returned was admitted. -/
theorem lt_of_returnedAt (h : s.returnedAt i = true) : i < s.tasks.length := by
  by_contra hge
  rw [Service.returnedAt, List.getElem?_eq_none (by omega)] at h
  exact Bool.false_ne_true h

/-- **How the tasks are reached whose submissions have returned.** -/
structure Reaching (s : Service R E) : Prop where
  /-- They were signalled, or their handles are in `abort_handles`, or a `shutdown_now` has
  drained these and is about to signal them. -/
  listed : ∀ i, s.returnedAt i = true → s.abortedAt i = true ∨ i ∈ s.abortHandles ∨
    ∃ p r, s.submissionLock = some (.shutdownNowAborting p r) ∧ i ∈ p
  /-- Nothing comes into the list once it was drained. -/
  drained : s.hasDrained = true → s.abortHandles = []
  /-- Once a `shutdown_now` has signalled what it has drained, all are signalled. -/
  signalled : s.hasSignalled = true → ∀ i, s.returnedAt i = true → s.abortedAt i = true

/-- A submission does not put its handle into `abort_handles` after a `shutdown_now` has
drained it. -/
def Action.InTime (s : Service R E) (a : Action R E) : Prop :=
  ∀ i, a = .list i → s.hasDrained = false

/-- A step is in time, decided. -/
def Action.inTime (s : Service R E) : Action R E → Bool
  | .list _ => !s.hasDrained
  | _ => true

/-- What is decided is what is meant. -/
theorem Action.inTime_iff {a : Action R E} : a.inTime s = true ↔ a.InTime s := by
  cases a with
  | list i => simp [Action.inTime, Action.InTime]
  | _ => simp [Action.inTime, Action.InTime]

namespace Reaching

/-- A step that puts nothing into `abort_handles`, and of no `shutdown_now`. -/
theorem beside (h : Reaching s) (hlock : s'.submissionLock = s.submissionLock)
    (hhandles : s'.abortHandles = s.abortHandles)
    (hreplies : s'.replies.any Reply.isShutdownNow = s.replies.any Reply.isShutdownNow)
    (hreturned : ∀ i, s'.returnedAt i = true → s.returnedAt i = true)
    (haborted : ∀ i, s.abortedAt i = true → s'.abortedAt i = true) : Reaching s' := by
  refine ⟨fun i hi => ?_, fun hdrained => ?_, fun hall i hi => ?_⟩
  · rw [hlock, hhandles]
    exact (h.listed i (hreturned i hi)).imp_left (haborted i)
  · rw [Service.hasDrained, hreplies, hlock] at hdrained
    exact hhandles.trans (h.drained hdrained)
  · rw [Service.hasSignalled, hreplies, hlock] at hall
    exact haborted i (h.signalled hall i (hreturned i hi))

/-- The submission lock passes from one who has not drained the list to another. -/
theorem pass (h : Reaching s) (hbefore : s.submissionLock.any Holder.hasDrained = false)
    (hafter : s'.submissionLock.any Holder.hasDrained = false)
    (hreplies : s'.replies.any Reply.isShutdownNow = s.replies.any Reply.isShutdownNow)
    (hhandles : s'.abortHandles = s.abortHandles)
    (hreturned : ∀ i, s'.returnedAt i = true → s.returnedAt i = true)
    (haborted : s'.abortedAt = s.abortedAt) : Reaching s' := by
  have hafter' := hasSignalled_eq_false hafter
  refine ⟨fun i hi => ?_, fun hdrained => ?_, fun hall i hi => ?_⟩
  · rw [hhandles, haborted]
    rcases h.listed i (hreturned i hi) with hold | hold | ⟨p, r, hlock, hold⟩
    · exact Or.inl hold
    · exact Or.inr (Or.inl hold)
    · rw [hlock] at hbefore
      exact absurd hbefore (by simp [Holder.hasDrained])
  · rw [Service.hasDrained, hafter, Bool.or_false, hreplies] at hdrained
    refine hhandles.trans (h.drained ?_)
    rw [Service.hasDrained, hdrained, Bool.true_or]
  · rw [Service.hasSignalled, hafter', Bool.or_false, hreplies] at hall
    rw [haborted]
    refine h.signalled ?_ i (hreturned i hi)
    rw [Service.hasSignalled, hall, Bool.true_or]

/-- The task that is admitted is one whose submission has not returned. -/
theorem returnedAt_append (hi : (Service.returnedAt
    { s with submissionLock := none, tasks := s.tasks ++ [Task.new] } i) = true) :
    s.returnedAt i = true := by
  obtain ⟨t, ht, hreturned⟩ := (Option.any_eq_true ..).mp hi
  rcases getElem?_concat_cases ht with hold | ⟨-, rfl⟩
  · exact (Option.any_eq_true ..).mpr ⟨t, hold, hreturned⟩
  · cases hreturned

/-- The task that is admitted was not signalled. -/
theorem abortedAt_append :
    (Service.abortedAt { s with submissionLock := none, tasks := s.tasks ++ [Task.new] }) =
      s.abortedAt :=
  any_getElem?_append rfl

/-- The holder of the submission lock keeps the tasks in reach. -/
theorem holderNext (h : Reaching s) {holder : Holder} (hlock : s.submissionLock = some holder) :
    Reaching (s.holderNext holder) := by
  cases holder with
  | submitChecking =>
    rw [Service.holderNext]
    split_ifs
    · exact h.pass (by rw [hlock]; rfl) rfl (by simp [Service.release, Reply.isShutdownNow]) rfl
        (fun i => id) rfl
    · exact h.pass (by rw [hlock]; rfl) rfl rfl rfl (fun i => id) rfl
  | submitCounting | shutdownStoring | shutdownNowStoring | shutdownNowReading =>
    exact h.pass (by rw [hlock]; rfl) rfl rfl rfl (fun i => id) rfl
  | submitReleasing =>
    exact h.pass (by rw [hlock]; rfl) rfl rfl rfl (fun i => returnedAt_append) abortedAt_append
  | shutdownAnnouncing a =>
    rw [Service.holderNext]
    split
    · exact h.pass (by rw [hlock]; rfl) rfl rfl rfl (fun i => id) rfl
    · exact h.pass (by rw [hlock]; rfl) rfl (by simp [Service.release, Reply.isShutdownNow]) rfl
        (fun i => id) rfl
  | shutdownNowLocking running =>
    refine ⟨fun i hi => ?_, fun _ => rfl, fun hall i hi => ?_⟩
    · rcases h.listed i hi with hold | hold | ⟨p, r, hlock', -⟩
      · exact Or.inl hold
      · exact Or.inr (Or.inr ⟨_, _, rfl, hold⟩)
      · exact absurd (hlock.symm.trans hlock') (by simp)
    · refine h.signalled ?_ i hi
      simpa [Service.hasSignalled, Service.holderNext, Service.hold, hlock,
        Holder.hasSignalled] using hall
  | shutdownNowAborting pending report =>
    have hempty : s.abortHandles = [] :=
      h.drained (by simp [Service.hasDrained, hlock, Holder.hasDrained])
    cases pending with
    | nil =>
      -- whoever has returned by now was signalled
      have hall : ∀ i, s.returnedAt i = true → s.abortedAt i = true := by
        intro i hi
        rcases h.listed i hi with hold | hold | ⟨p, r, hlock', hold⟩
        · exact hold
        · rw [hempty] at hold
          exact absurd hold (by simp)
        · obtain ⟨rfl, -⟩ : [] = p ∧ report = r := by
            simpa [hlock] using hlock'
          exact absurd hold (by simp)
      exact ⟨fun i hi => Or.inl (hall i hi), fun _ => hempty, fun _ => hall⟩
    | cons j pending =>
      obtain ⟨hreturned, -, haborted, hnew⟩ := abort_spec s j
      have hsignalled : (s.holderNext (.shutdownNowAborting (j :: pending) report)).hasSignalled =
          true → s.hasSignalled = true := by
        obtain ⟨-, -, hreplies⟩ := abort_beside s j
        intro hall
        simpa [Service.hasSignalled, Service.holderNext, Service.hold, hreplies, hlock,
          Holder.hasSignalled] using hall
      have hhandles : (s.abort j).abortHandles = s.abortHandles := by
        rw [Service.abort]
        split <;> rfl
      refine ⟨fun i hi => ?_, fun _ => hhandles.trans hempty, fun hall i hi => ?_⟩
      · have hold' : s.returnedAt i = true := hreturned ▸ hi
        rcases h.listed i hold' with hold | hold | ⟨p, r, hlock', hold⟩
        · exact Or.inl (haborted i hold)
        · rw [hempty] at hold
          exact absurd hold (by simp)
        · obtain ⟨rfl, -⟩ : j :: pending = p ∧ report = r := by
            simpa [hlock] using hlock'
          rcases List.mem_cons.mp hold with rfl | hrest
          · exact Or.inl (hnew (lt_of_returnedAt hold'))
          · exact Or.inr (Or.inr ⟨_, _, rfl, hrest⟩)
      · exact haborted i (h.signalled (hsignalled hall) i (hreturned ▸ hi))
  | shutdownNowAnnouncing a report =>
    have hall := h.signalled (by simp [Service.hasSignalled, hlock, Holder.hasSignalled])
    have hempty := h.drained (by simp [Service.hasDrained, hlock, Holder.hasDrained])
    rw [Service.holderNext]
    split
    · exact ⟨fun i hi => Or.inl (hall i hi), fun _ => hempty, fun _ => hall⟩
    · exact ⟨fun i hi => Or.inl (hall i hi), fun _ => hempty, fun _ => hall⟩

/-- A submission that puts its handle into a list that was not drained is in reach. -/
theorem list (h : Reaching s) (hopen : s.hasDrained = false) {future : FuturePhase R E}
    {closure : ClosurePhase R E} {aborted : Bool}
    (hi : s.tasks[i]? = some ⟨.listing, future, closure, aborted⟩)
    (htasks : s'.tasks = s.tasks.set i ⟨.returned, future, closure, aborted⟩)
    (hlock : s'.submissionLock = s.submissionLock)
    (hhandles : s'.abortHandles = s.abortHandles ++ [i])
    (hreplies : s'.replies.any Reply.isShutdownNow = s.replies.any Reply.isShutdownNow) :
    Reaching s' := by
  rw [Service.hasDrained, Bool.or_eq_false_iff] at hopen
  have hopen' := hasSignalled_eq_false hopen.2
  refine ⟨fun j hj => ?_, fun hdrained => ?_, fun hall j hj => ?_⟩
  · rw [hlock, hhandles]
    rcases eq_or_ne j i with rfl | hne
    · exact Or.inr (Or.inl (List.mem_append_right _ (List.mem_singleton_self j)))
    · have hold : s.returnedAt j = true := by
        have hset := congrFun (any_getElem?_set hi (fun t => t.submit == .returned)
          ⟨.returned, future, closure, aborted⟩) j
        rw [Service.returnedAt, htasks, show _ = _ from hset, Function.update_of_ne hne] at hj
        exact hj
      refine (h.listed j hold).imp ?_ (Or.imp_left (List.mem_append_left _))
      exact abortedAt_set hi htasks id j
  · rw [Service.hasDrained, hreplies, hlock, hopen.1, hopen.2] at hdrained
    exact absurd hdrained Bool.false_ne_true
  · rw [Service.hasSignalled, hreplies, hlock, hopen.1, hopen'] at hall
    exact absurd hall Bool.false_ne_true

/-- **A step in time keeps the tasks in reach.** -/
theorem step (hpoll : Task.Modest poll) (h : Reaching s) {a : Action R E} (ha : a.InTime s)
    (hstep : s.step poll a = some s') : Reaching s' := by
  cases step_move hstep with
  | takes _ holder hfree hh =>
    refine h.pass (by rw [hfree]; rfl) ?_ rfl rfl (fun i => id) rfl
    rcases hh with rfl | rfl | rfl <;> rfl
  | holds holder hlock => exact h.holderNext hlock
  | task _ i t t' hi ht notes hnotes =>
    have hnone : notes.any Reply.isShutdownNow = false := by
      refine List.any_eq_false.mpr fun r hr => ?_
      rw [hnotes r hr]
      exact Bool.false_ne_true
    refine h.beside rfl rfl (by simp [hnone]) (fun j hj => ?_)
      (abortedAt_set hi rfl (ht.aborted hpoll))
    rwa [returnedAt_set hi rfl (ht.returned hpoll)] at hj
  | lists i future closure aborted hi hfree =>
    exact h.list (ha i rfl) hi rfl rfl rfl (by simp [Reply.isShutdownNow])
  | leaves i submit output closure aborted hi =>
    refine h.beside rfl rfl rfl (fun j hj => ?_) (abortedAt_set hi rfl id)
    rwa [returnedAt_set hi rfl (by rfl)] at hj
  | announces i submit a output closure aborted hi =>
    refine h.beside rfl rfl rfl (fun j hj => ?_) (abortedAt_set hi rfl id)
    rwa [returnedAt_set hi rfl (by rfl)] at hj
  | waits _ c hturn => exact h.beside rfl rfl rfl (fun i => id) fun i => id

end Reaching

/-! ### Every accepted task is reached, or some are not -/

/-- Whether the future of a task is gone. -/
def Task.ended (t : Task R E) : Bool := t.future matches .ended _

/-- Some `shutdown_now` has returned, and no submission of an accepted task is under way. -/
structure Service.ShutDown (s : Service R E) : Prop where
  /-- Some `shutdown_now` has returned. -/
  returned : ∃ report, .shutdownNow report ∈ s.replies
  /-- Submissions have returned, or were left by a panic, with the future gone. -/
  submitted : ∀ t ∈ s.tasks, t.submit = .returned ∨ (t.submit = .panicked ∧ t.ended = true)

/-- Every accepted task is gone or was signalled, and `abort_handles` keeps the handle of no
task that was not. -/
structure Service.AllReached (s : Service R E) : Prop where
  /-- Every task is gone or was signalled. -/
  tasks : ∀ t ∈ s.tasks, t.ended = true ∨ t.aborted = true
  /-- No handle that is kept was not signalled. -/
  handles : ∀ i ∈ s.abortHandles, s.abortedAt i = true

/-- Over every run in time, the tasks are in reach. -/
theorem reaching_of_reach (hpoll : Task.Modest poll)
    (hs : (machine poll).ReachVia (fun s a => a.InTime s) s) : Reaching s := by
  refine hs.invariant (I := Reaching) ?_ fun s a s' _ h ha hstep => h.step hpoll ha hstep
  rintro s rfl
  refine ⟨fun i hi => ?_, fun _ => rfl, fun _ i hi => ?_⟩
  · exact absurd (lt_of_returnedAt hi) (Nat.not_lt_zero i)
  · exact absurd (lt_of_returnedAt hi) (Nat.not_lt_zero i)

/-- Where tasks are in reach, a `shutdown_now` that has returned has reached them all. -/
theorem Reaching.allReached (h : Reaching s) (hdown : s.ShutDown) : s.AllReached := by
  obtain ⟨report, hreport⟩ := hdown.returned
  have hreturned : s.replies.any Reply.isShutdownNow = true :=
    List.any_eq_true.mpr ⟨_, hreport, rfl⟩
  have hempty := h.drained (by rw [Service.hasDrained, hreturned, Bool.true_or])
  refine ⟨fun t ht => ?_, fun i hi => absurd hi (by simp [hempty])⟩
  rcases hdown.submitted t ht with hsubmit | ⟨-, hended⟩
  · obtain ⟨i, hi⟩ := List.mem_iff_getElem?.mp ht
    have haborted := h.signalled (by rw [Service.hasSignalled, hreturned, Bool.true_or]) i
      (by rw [Service.returnedAt, hi, Option.any_some, hsubmit]; rfl)
    rw [Service.abortedAt, hi, Option.any_some] at haborted
    exact Or.inr haborted
  · exact Or.inl hended

/-- **In every run of either service in which no submission puts its handle into
`abort_handles` after a `shutdown_now` has drained it, `shutdown_now` reaches every accepted
task.** -/
theorem allReached_of_reach :
    (∀ s : Service R E, (executorMachine R E).ReachVia (fun s a => a.InTime s) s →
      s.ShutDown → s.AllReached) ∧
    ∀ s : Service R E, (ioExecutorMachine R E).ReachVia (fun s a => a.InTime s) s →
      s.ShutDown → s.AllReached :=
  ⟨fun _ hs => (reaching_of_reach modest_pollCallable hs).allReached,
    fun _ hs => (reaching_of_reach modest_pollFuture hs).allReached⟩

/-- A task that is admitted and put into `abort_handles` before `shutdown_now` is reached,
whatever it is. -/
theorem allReached_of_reach_one :
    (∃ s, (executorMachine Unit Unit).Reach s ∧ s.ShutDown ∧ s.tasks.length = 1 ∧
      s.AllReached) ∧
    ∃ s, (ioExecutorMachine Unit Unit).Reach s ∧ s.ShutDown ∧ s.tasks.length = 1 ∧
      s.AllReached := by
  have hrun : ∀ {poll : Task.Poll Unit Unit}, ((machine poll).exec Action.inTime .new
      ([.submit, .holderNext, .holderNext, .holderNext, .spawn 0 true, .list 0, .shutdownNow] ++
        List.replicate 7 .holderNext)).any (fun s => s.replies.any Reply.isShutdownNow &&
          s.tasks.all (fun t => t.submit == .returned) && s.tasks.length == 1) = true := by
    intro poll
    rfl
  have hdown : ∀ s : Service Unit Unit, (s.replies.any Reply.isShutdownNow &&
      s.tasks.all (fun t => t.submit == .returned) && s.tasks.length == 1) = true →
      s.ShutDown ∧ s.tasks.length = 1 := by
    intro s hs
    rw [Bool.and_eq_true, Bool.and_eq_true, List.any_eq_true, List.all_eq_true] at hs
    obtain ⟨⟨⟨r, hr, hshutdown⟩, hall⟩, hlength⟩ := hs
    refine ⟨⟨?_, fun t ht => Or.inl (by simpa using hall t ht)⟩, by simpa using hlength⟩
    cases r with
    | shutdownNow report => exact ⟨report, hr⟩
    | _ => exact absurd hshutdown Bool.false_ne_true
  constructor
  · obtain ⟨s, hs, hp⟩ := Machine.exists_reachVia_of_exec (M := executorMachine Unit Unit)
      (fun s a => a.InTime s) Action.inTime (fun _ _ => Action.inTime_iff.mp) rfl _ _ hrun
    obtain ⟨hdown, hlength⟩ := hdown s hp
    exact ⟨s, hs.reach, hdown, hlength, allReached_of_reach.1 s hs hdown⟩
  · obtain ⟨s, hs, hp⟩ := Machine.exists_reachVia_of_exec (M := ioExecutorMachine Unit Unit)
      (fun s a => a.InTime s) Action.inTime (fun _ _ => Action.inTime_iff.mp) rfl _ _ hrun
    obtain ⟨hdown, hlength⟩ := hdown s hp
    exact ⟨s, hs.reach, hdown, hlength, allReached_of_reach.2 s hs hdown⟩

/-- **A task admitted before the flag was set is not reached** if `shutdown_now` comes between
its admission and `abort_handles`: all have returned, the task was not signalled, and its
handle is kept. -/
theorem not_allReached :
    ¬ (∀ s : Service Unit Unit, (executorMachine Unit Unit).Reach s → s.ShutDown → s.AllReached) ∧
    ¬ ∀ s : Service Unit Unit, (ioExecutorMachine Unit Unit).Reach s →
      s.ShutDown → s.AllReached := by
  have hrun : ∀ {poll : Task.Poll Unit Unit}, ((machine poll).exec (fun _ _ => true) .new
      ([.submit, .holderNext, .holderNext, .holderNext, .shutdownNow] ++
        List.replicate 6 .holderNext ++ [.spawn 0 true, .list 0])).any (fun s =>
          s.replies.any Reply.isShutdownNow && s.tasks.all (fun t => t.submit == .returned) &&
            !s.abortedAt 0 && decide (s.abortHandles = [0])) = true := by
    intro poll
    rfl
  have hmissed : ∀ s : Service Unit Unit, (s.replies.any Reply.isShutdownNow &&
      s.tasks.all (fun t => t.submit == .returned) && !s.abortedAt 0 &&
        decide (s.abortHandles = [0])) = true → s.ShutDown ∧ ¬ s.AllReached := by
    intro s hs
    simp only [Bool.and_eq_true, List.any_eq_true, List.all_eq_true, decide_eq_true_eq] at hs
    obtain ⟨⟨⟨⟨r, hr, hshutdown⟩, hall⟩, haborted⟩, hhandles⟩ := hs
    refine ⟨⟨?_, fun t ht => Or.inl (by simpa using hall t ht)⟩, fun hreached => ?_⟩
    · cases r with
      | shutdownNow report => exact ⟨report, hr⟩
      | _ => exact absurd hshutdown Bool.false_ne_true
    · have hkept := hreached.handles 0 (by simp [hhandles])
      rw [hkept] at haborted
      exact absurd haborted (by simp)
  constructor
  · intro hall
    obtain ⟨s, hs, hp⟩ := Machine.exists_reachVia_of_exec (M := executorMachine Unit Unit)
      (fun _ _ => True) (fun _ _ => true) (fun _ _ _ => trivial) rfl _ _ hrun
    exact (hmissed s hp).2 (hall s hs (hmissed s hp).1)
  · intro hall
    obtain ⟨s, hs, hp⟩ := Machine.exists_reachVia_of_exec (M := ioExecutorMachine Unit Unit)
      (fun _ _ => True) (fun _ _ => true) (fun _ _ _ => trivial) rfl _ _ hrun
    exact (hmissed s hp).2 (hall s hs (hmissed s hp).1)

end Tokio

end QubitConcurrent
