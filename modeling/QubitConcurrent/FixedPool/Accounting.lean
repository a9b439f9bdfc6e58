import QubitConcurrent.FixedPool.Admission
import QubitConcurrent.FixedPool.Jobs
import QubitConcurrent.FixedPool.Loop

/-!
# The accounts of a fixed thread pool

In every run of a fixed pool the books are balanced, and what a thread has found out about the
pool stays true (`QubitConcurrent.FixedPool.Pool.Sound`). A worker that reads
`queued_task_count` at zero, after the pool was shut down, has found out that no job is
outstanding: and since the gate is closed by then, none will be again, whatever the
submissions do that are still in flight.
-/

namespace QubitConcurrent

namespace FixedPool

open Custody (Load Balanced Accounted)

/-! ### What there is to know -/

/-- What each thread has. -/
def Pool.loads (p : Pool) : List (Load Job) := p.threads.map Thread.load

/-- Whether a worker is counted by `live_workers`. -/
def WorkerPhase.isLive : WorkerPhase → Bool
  | exiting | exited => false
  | _ => true

/-- Whether a thread is counted by `live_workers`. -/
def Thread.isLive : Thread → Bool
  | worker q => q.isLive
  | _ => false

/-- The pool was shut down. -/
def Pool.Ended (p : Pool) : Prop := p.inner.lifecycle ≠ .running

/-- How often a job is in a queue, or in the hands of somebody who has not accounted for it. -/
def Pool.outstanding (p : Pool) (job : Job) : ℕ := Custody.outstanding p.inner.store p.loads job

/-- No job is outstanding. -/
def Pool.Empty (p : Pool) : Prop := ∀ job, p.outstanding job = 0

/-- All workers have left. -/
def Pool.Deserted (p : Pool) : Prop := ∀ t ∈ p.threads, t.isLive = false

/-- What a worker has found out. -/
def WorkerPhase.Known (p : Pool) : WorkerPhase → Prop
  | rejudging => p.Ended
  | judgingInflight => p.Ended ∧ p.Empty
  | unlocking false | deactivating | leaving | exiting | exited =>
    p.Ended ∧ (p.inner.lifecycle = .stopping ∨ p.Empty)
  | _ => True

/-- What somebody who shuts down has seen to. -/
def ShutdownPhase.Known (p : Pool) : ShutdownPhase → Prop
  | closing => True
  | _ => p.inner.accepting = false

/-- What somebody who shuts down at once has seen to. -/
def ShutdownNowPhase.Known (p : Pool) : ShutdownNowPhase → Prop
  | closing => True
  | _ => p.inner.accepting = false

/-- What somebody who asks for the end has found out. -/
def TerminationPhase.Known (p : Pool) : TerminationPhase → Prop
  | readingQueued => p.Ended ∧ p.Deserted
  | readingRunning | readingInflight | answering true | returned true =>
    p.Ended ∧ p.Deserted ∧ p.Empty
  | _ => True

/-- What a thread has found out. -/
def Thread.Known (p : Pool) : Thread → Prop
  | worker q => q.Known p
  | submit _ _ => True
  | shutdown q => q.Known p
  | shutdownNow q => q.Known p
  | termination _ q => q.Known p

/-! ### It stays true -/

/-- What is known of one state is true of the other. -/
structure Pool.Lasts (p p' : Pool) : Prop where
  /-- The pool stays shut down. -/
  ended : p.Ended → p'.Ended
  /-- The pool stays stopped. -/
  stopping : p.inner.lifecycle = .stopping → p'.inner.lifecycle = .stopping
  /-- The gate stays closed. -/
  closed : p.inner.accepting = false → p'.inner.accepting = false
  /-- No job turns up. -/
  empty : p.inner.accepting = false → p.Empty → p'.Empty
  /-- No worker comes back. -/
  deserted : p.Deserted → p'.Deserted

variable {p p' : Pool}

/-- What a thread has found out stays true. -/
theorem Thread.Known.lasts {t : Thread} (h : p.Lasts p')
    (hshut : p.Ended → p.inner.accepting = false) (ht : t.Known p) : t.Known p' := by
  have hempty : p.Ended → p.Empty → p'.Empty := fun hended => h.empty (hshut hended)
  cases t with
  | worker q =>
    cases q with
    | rejudging => exact h.ended ht
    | judgingInflight => exact ⟨h.ended ht.1, hempty ht.1 ht.2⟩
    | unlocking again =>
      cases again with
      | true => trivial
      | false => exact ⟨h.ended ht.1, ht.2.imp h.stopping (hempty ht.1)⟩
    | deactivating | leaving | exiting | exited =>
      exact ⟨h.ended ht.1, ht.2.imp h.stopping (hempty ht.1)⟩
    | _ => trivial
  | submit job q => trivial
  | shutdown q =>
    cases q with
    | closing => trivial
    | _ => exact h.closed ht
  | shutdownNow q =>
    cases q with
    | closing => trivial
    | _ => exact h.closed ht
  | termination waits q =>
    cases q with
    | readingQueued => exact ⟨h.ended ht.1, h.deserted ht.2⟩
    | readingRunning | readingInflight =>
      exact ⟨h.ended ht.1, h.deserted ht.2.1, hempty ht.1 ht.2.2⟩
    | answering terminated | returned terminated =>
      cases terminated with
      | true => exact ⟨h.ended ht.1, h.deserted ht.2.1, hempty ht.1 ht.2.2⟩
      | false => trivial
    | _ => trivial

/-! ### What a step finds out -/

variable {s s' : Inner} {k : ℕ} {c : Choice}

/-- A worker that is at work has found out nothing. -/
theorem WorkerPhase.known_of_isBusy {q : WorkerPhase} (h : q.isBusy = true) : q.Known p := by
  cases q with
  | unlocking again =>
    cases again with
    | true => trivial
    | false => cases h
  | rejudging | judgingInflight | deactivating | leaving | exiting | exited => cases h
  | _ => trivial

/-- What a worker finds out is true. -/
theorem WorkerPhase.Turn.known {q q' : WorkerPhase} (h : Turn p.inner s' k q q')
    (hzero : p.inner.queuedTaskCount = 0 → p.Empty) (hq : q.Known p) : q'.Known p := by
  cases h with
  | work hp hp' => exact known_of_isBusy hp'
  | stop hstopping =>
    refine ⟨?_, Or.inl hstopping⟩
    rw [Pool.Ended, hstopping]
    exact Lifecycle.noConfusion
  | ending hshutdown =>
    change p.inner.lifecycle ≠ .running
    rw [hshutdown]
    exact Lifecycle.noConfusion
  | empty hcount => exact ⟨hq, hzero hcount⟩
  | quit => exact ⟨hq.1, Or.inr hq.2⟩
  | blind orderly hcount hp => rcases hp with rfl | rfl <;> trivial
  | spare again | consume _ again => exact known_of_isBusy (isBusy_resumed again)
  | unlock | deactivate | leave | exit => exact hq
  | linger | mark | look | turnBack | decide | park | wake | unmark | find => trivial

/-- What the first two conjuncts of `is_terminated_locked` tell is true. -/
theorem TerminationPhase.known_judged (hlifecycle : s.lifecycle = p.inner.lifecycle)
    (hlive : s.liveWorkers = 0 → p.Deserted) : (judged s).Known p := by
  unfold judged
  split_ifs with h
  · exact ⟨fun hrunning => h.1 (hlifecycle.trans hrunning), hlive h.2⟩
  · trivial

/-- What somebody who asks for the end finds out is true. -/
theorem TerminationPhase.known_advance {q q' : TerminationPhase} {waits : Bool}
    (h : q.advance p.inner k waits = some (s', q'))
    (hzero : p.inner.queuedTaskCount = 0 → p.Empty)
    (hlive : p.inner.liveWorkers = 0 → p.Deserted) (hq : q.Known p) : q'.Known p := by
  cases q with
  | locking =>
    obtain ⟨ht, rfl⟩ := Inner.then_cases h
    exact known_judged rfl hlive
  | parked =>
    obtain ⟨ht, rfl⟩ := Inner.then_cases h
    exact known_judged rfl hlive
  | readingQueued =>
    obtain ⟨rfl, rfl⟩ := Prod.mk.inj (Option.some.inj h)
    split_ifs with hcount
    · exact ⟨hq.1, hq.2, hzero hcount⟩
    · trivial
  | readingRunning =>
    obtain ⟨rfl, rfl⟩ := Prod.mk.inj (Option.some.inj h)
    split_ifs
    · exact hq
    · trivial
  | readingInflight =>
    obtain ⟨rfl, rfl⟩ := Prod.mk.inj (Option.some.inj h)
    cases p.inner.inflightSubmissions == 0 with
    | true => exact hq
    | false => trivial
  | answering terminated =>
    rw [advance] at h
    split_ifs at h <;> obtain ⟨rfl, rfl⟩ := Prod.mk.inj (Option.some.inj h)
    · trivial
    · cases terminated with
      | true => exact hq
      | false => trivial
  | returned => cases h

/-- Whoever shuts down has closed the gate after its first step. -/
theorem ShutdownPhase.closed {q q' : ShutdownPhase} (h : q.advance p.inner = some (s', q'))
    (hq : q.Known p) : s'.accepting = false := by
  rcases (gate h).2 with hsame | hclosed
  · cases q with
    | closing =>
      obtain ⟨rfl, -⟩ := Prod.mk.inj (Option.some.inj h)
      rfl
    | _ => exact hsame.trans hq
  · exact hclosed

/-- So has whoever shuts down at once. -/
theorem ShutdownNowPhase.Turn.closed {q q' : ShutdownNowPhase} (h : Turn p.inner s' k q q')
    (hq : q.Known p) : s'.accepting = false := by
  rcases h.gate.2 with hsame | hclosed
  · cases h with
    | close hs => rw [hs]
    | _ => exact hsame.trans hq
  · exact hclosed

theorem ShutdownPhase.known_of_closed {q : ShutdownPhase} (h : p.inner.accepting = false) :
    q.Known p := by
  cases q with
  | closing => trivial
  | _ => exact h

theorem ShutdownNowPhase.known_of_closed {q : ShutdownNowPhase} (h : p.inner.accepting = false) :
    q.Known p := by
  cases q with
  | closing => trivial
  | _ => exact h

/-! ### What a step changes -/

/-- Who changes the lifecycle, and how. -/
theorem Thread.lifecycle_cases {t t' : Thread} (h : t.advance s k c = some (s', t')) :
    s'.lifecycle = s.lifecycle ∨
      (t = .shutdown .switching ∧ s.lifecycle = .running ∧ s'.lifecycle = .shutdown) ∨
      ((∃ running, t = .shutdownNow (.locking running)) ∧ s'.lifecycle = .stopping) := by
  cases Thread.goes h with
  | worker hq => exact Or.inl (WorkerPhase.same hq).lifecycle
  | submit hq => exact Or.inl hq.apart.2
  | shutdown hq =>
    rcases (ShutdownPhase.apart hq).2 with hsame | ⟨rfl, hrunning, hshutdown⟩
    · exact Or.inl hsame
    · exact Or.inr (Or.inl ⟨rfl, hrunning, hshutdown⟩)
  | shutdownNow hq =>
    rcases hq.apart.2 with hsame | ⟨⟨running, rfl⟩, hstopping⟩
    · exact Or.inl hsame
    · exact Or.inr (Or.inr ⟨⟨running, rfl⟩, hstopping⟩)
  | termination hq => exact Or.inl (TerminationPhase.same hq).lifecycle

/-- A closed gate stays closed. -/
theorem Thread.closed {t t' : Thread} (h : t.advance s k c = some (s', t'))
    (hclosed : s.accepting = false) : s'.accepting = false := by
  rcases Thread.turn h with ⟨hsame, -⟩ | ⟨hclose, -⟩
  · exact hsame.trans hclosed
  · exact hclose

/-- A job that is on its way to a queue was accepted. -/
theorem SubmitPhase.isAccepted_of_isRouting {q : SubmitPhase} (h : q.isRouting = true) :
    q.isAccepted = true := by
  cases q with
  | counting | probing | probingActive | pushing => rfl
  | _ => cases h

/-- A job is accepted by the third look at the gate, which finds it open. -/
theorem SubmitPhase.Turn.isAccepted {q q' : SubmitPhase} {job : Job} (h : Turn s s' job c q q')
    (hclosed : s.accepting = false) : q'.isAccepted = q.isAccepted := by
  cases h with
  | accept hopen => exact absurd (hclosed.symm.trans hopen) Bool.false_ne_true
  | route hq hq' => rw [isAccepted_of_isRouting hq, isAccepted_of_isRouting hq']
  | dropLast result | drop result | dropOpen result | dropClosed result | dropAnnounce result =>
    cases result <;> rfl
  | _ => rfl

/-- At a closed gate nothing is accepted. -/
theorem Thread.accepted_eq {t t' : Thread} (h : t.advance s k c = some (s', t'))
    (hclosed : s.accepting = false) : t'.load.accepted = t.load.accepted := by
  cases Thread.goes h with
  | @submit job q q' hq =>
    change (if q'.isAccepted then [job] else []) = if q.isAccepted then [job] else []
    rw [hq.isAccepted hclosed]
  | worker | shutdown | shutdownNow | termination => rfl

/-- A worker that is at work is counted by `live_workers`. -/
theorem WorkerPhase.isLive_of_isBusy {q : WorkerPhase} (h : q.isBusy = true) :
    q.isLive = true := by
  cases q with
  | exiting | exited => cases h
  | _ => rfl

/-- So is a worker that is about to wait. -/
theorem WorkerPhase.isLive_of_isRechecking {q : WorkerPhase} (h : q.isRechecking = true) :
    q.isLive = true := by
  cases q with
  | exiting | exited => cases h
  | _ => rfl

/-- And one that has waited. -/
theorem WorkerPhase.isLive_of_isConsuming {q : WorkerPhase} (h : q.isConsuming = true) :
    q.isLive = true := by
  cases q with
  | exiting | exited => cases h
  | _ => rfl

/-- A worker that has left does not come back. -/
theorem WorkerPhase.Turn.gone {q q' : WorkerPhase} (h : Turn s s' k q q')
    (hq : q.isLive = false) : q'.isLive = false := by
  cases h with
  | exit => rfl
  | work hp => exact absurd (hq.symm.trans (isLive_of_isBusy hp)) Bool.false_ne_true
  | turnBack again hp =>
    exact absurd (hq.symm.trans (isLive_of_isRechecking hp)) Bool.false_ne_true
  | find _ again hp | spare again hp =>
    exact absurd (hq.symm.trans (isLive_of_isConsuming hp)) Bool.false_ne_true
  | linger hp => rcases hp with rfl | rfl <;> cases hq
  | stop | ending | empty | quit | mark | blind | look | decide | park | wake | unmark | consume
  | unlock | deactivate | leave => cases hq

/-- `live_workers` counts the workers that have not left. -/
theorem WorkerPhase.Turn.live {q q' : WorkerPhase} (h : Turn s s' k q q')
    (hle : q.isLive.toNat ≤ s.liveWorkers) :
    s'.liveWorkers + q.isLive.toNat = s.liveWorkers + q'.isLive.toNat := by
  cases h with
  | work hp hp' hs => rw [isLive_of_isBusy hp, isLive_of_isBusy hp', hs.live]
  | leave hs =>
    rw [hs]
    exact Nat.sub_add_cancel hle
  | linger hp hs => rcases hp with rfl | rfl <;> rw [hs] <;> rfl
  | blind orderly hcount hp hs => rcases hp with rfl | rfl <;> rw [hs] <;> rfl
  | turnBack again hp hs =>
    rw [hs, isLive_of_isRechecking hp]
    rfl
  | find _ again hp hs =>
    rw [hs, isLive_of_isConsuming hp]
    rfl
  | spare again hp hpending hs =>
    rw [hs, isLive_of_isConsuming hp, isLive_of_isBusy (isBusy_resumed again)]
  | consume _ again hs =>
    rw [hs, isLive_of_isBusy (isBusy_resumed again)]
    rfl
  | stop _ hs | ending _ hs | empty _ hs | quit hs | mark _ hs | look hs | decide _ _ hs | park hs
  | wake _ hs | unmark _ hs | unlock hs | deactivate hs | exit hs =>
    rw [hs]
    rfl

/-- A thread that is not counted by `live_workers` will not be. -/
theorem Thread.gone {t t' : Thread} (h : t.advance s k c = some (s', t'))
    (ht : t.isLive = false) : t'.isLive = false := by
  cases Thread.goes h with
  | worker hq => exact (WorkerPhase.turn hq).gone ht
  | submit | shutdown | shutdownNow | termination => rfl

/-- `live_workers` follows the threads it counts. -/
theorem Thread.live {t t' : Thread} (h : t.advance s k c = some (s', t'))
    (hle : t.isLive.toNat ≤ s.liveWorkers) :
    s'.liveWorkers + t.isLive.toNat = s.liveWorkers + t'.isLive.toNat := by
  cases Thread.goes h with
  | worker hq => exact (WorkerPhase.turn hq).live hle
  | submit hq => exact hq.apart.1.live
  | shutdown hq => exact (ShutdownPhase.apart hq).1.live
  | shutdownNow hq => exact hq.apart.1.live
  | termination hq => exact (TerminationPhase.apart hq).live

/-- A thread that goes to reserve a slot has seen room for it. -/
theorem Thread.fits_advance {t t' : Thread} (h : t.advance s k c = some (s', t')) :
    t'.Fits s := by
  cases Thread.goes h with
  | @submit job q q' hq =>
    cases hq with
    | room hroom => exact hroom
    | route _ hq' =>
      cases q' with
      | counting | probing | probingActive | pushing => trivial
      | _ => cases hq'
    | _ => trivial
  | worker | shutdown | shutdownNow | termination => trivial

/-- The room in the queue depends on the capacity, and on nothing else. -/
theorem Thread.Fits.congr {t : Thread} (h : s'.queueCapacity = s.queueCapacity)
    (ht : t.Fits s) : t.Fits s' := by
  cases t with
  | submit job q =>
    cases q with
    | reservingFrom current =>
      change ∀ capacity ∈ s'.queueCapacity, current < capacity
      rw [h]
      exact ht
    | _ => trivial
  | _ => trivial

/-- A submission keeps its job. -/
theorem Thread.submit_of_advance {t : Thread} {job : Job} {q' : SubmitPhase}
    (h : t.advance s k c = some (s', .submit job q')) : ∃ q, t = .submit job q := by
  cases Thread.goes h with
  | submit => exact ⟨_, rfl⟩

/-! ### The books are balanced -/

/-- **The books are balanced, and what the threads have found out is true.** -/
structure Pool.Sound (p : Pool) : Prop where
  /-- Every job is in one place, and `queued_task_count` counts those not accounted for. -/
  books : Balanced p.inner.store p.loads
  /-- Whoever is to reserve a slot has seen room for it. -/
  fits : ∀ t ∈ p.threads, t.Fits p.inner
  /-- Every submission brings a job of its own. -/
  own : ∀ k job q, p.threads[k]? = some (Thread.submit job q) → job = k
  /-- `live_workers` counts the workers that have not left. -/
  live : p.inner.liveWorkers = p.threads.countP Thread.isLive
  /-- A pool that was shut down has its gate closed. -/
  shut : p.Ended → p.inner.accepting = false
  /-- What the threads have found out is true. -/
  known : ∀ t ∈ p.threads, t.Known p

/-- Where the counter is zero no job is outstanding. -/
theorem Pool.Sound.empty (h : p.Sound) (hzero : p.inner.queuedTaskCount = 0) : p.Empty :=
  fun i => h.books.outstanding_eq_zero hzero i

/-- Where `live_workers` is zero all workers have left. -/
theorem Pool.Sound.deserted (h : p.Sound) (hzero : p.inner.liveWorkers = 0) : p.Deserted := by
  intro t ht
  have hnobody := List.countP_eq_zero.mp (h.live.symm.trans hzero) t ht
  exact Bool.eq_false_of_not_eq_true hnobody

/-- At a closed gate no step of a thread leaves more jobs outstanding. -/
theorem Pool.Sound.outstanding_go {t t' : Thread} (h : p.Sound) (hk : p.threads[k]? = some t)
    (hadvance : t.advance p.inner k c = some (s', t')) (hclosed : p.inner.accepting = false)
    (job : Job) : Pool.outstanding ⟨s', p.threads.set k t'⟩ job ≤ p.outstanding job := by
  have hload : p.loads[k]? = some t.load := by
    rw [Pool.loads, List.getElem?_map, hk, Option.map_some]
  have hmove := Thread.move hadvance (h.fits t (List.mem_of_getElem? hk))
  rw [Pool.outstanding, Pool.loads, List.map_set]
  exact Custody.outstanding_move_le hload hmove (Thread.accepted_eq hadvance hclosed) job

/-- What is known when a thread takes a step is true after it. -/
theorem Pool.Sound.lasts_go {t t' : Thread} (h : p.Sound) (hk : p.threads[k]? = some t)
    (hadvance : t.advance p.inner k c = some (s', t')) : p.Lasts ⟨s', p.threads.set k t'⟩ where
  ended hended := by
    rcases Thread.lifecycle_cases hadvance with hsame | ⟨-, hrunning, -⟩ | ⟨-, hstopping⟩
    · exact fun hrunning => hended (hsame.symm.trans hrunning)
    · exact absurd hrunning hended
    · exact fun hrunning => Lifecycle.noConfusion (hstopping.symm.trans hrunning)
  stopping hstopping := by
    rcases Thread.lifecycle_cases hadvance with hsame | ⟨-, hrunning, -⟩ | ⟨-, hnew⟩
    · exact hsame.trans hstopping
    · exact Lifecycle.noConfusion (hstopping.symm.trans hrunning)
    · exact hnew
  closed := Thread.closed hadvance
  empty hclosed hempty job :=
    Nat.le_zero.mp ((h.outstanding_go hk hadvance hclosed job).trans (hempty job).le)
  deserted hdeserted u hu := by
    rcases List.mem_or_eq_of_mem_set hu with hu | rfl
    · exact hdeserted u hu
    · exact Thread.gone hadvance (hdeserted t (List.mem_of_getElem? hk))

/-- What a thread finds out is true. -/
theorem Pool.Sound.known_go {t t' : Thread} (h : p.Sound) (hk : p.threads[k]? = some t)
    (hadvance : t.advance p.inner k c = some (s', t')) :
    t'.Known ⟨s', p.threads.set k t'⟩ := by
  have hlasts := h.lasts_go hk hadvance
  have hknown := h.known t (List.mem_of_getElem? hk)
  cases Thread.goes hadvance with
  | @worker q q' hq =>
    have hnew : Thread.Known p (.worker q') := (WorkerPhase.turn hq).known h.empty hknown
    exact hnew.lasts hlasts h.shut
  | submit => trivial
  | shutdown hq => exact ShutdownPhase.known_of_closed (ShutdownPhase.closed hq hknown)
  | shutdownNow hq => exact ShutdownNowPhase.known_of_closed (hq.closed hknown)
  | @termination waits q q' hq =>
    have hnew : Thread.Known p (.termination waits q') :=
      TerminationPhase.known_advance hq h.empty h.deserted hknown
    exact hnew.lasts hlasts h.shut

/-- A pool that is shut down has closed its gate before. -/
theorem Pool.Sound.shut_go {t t' : Thread} (h : p.Sound) (hk : p.threads[k]? = some t)
    (hadvance : t.advance p.inner k c = some (s', t')) (hended : s'.lifecycle ≠ .running) :
    s'.accepting = false := by
  have hknown := h.known t (List.mem_of_getElem? hk)
  refine Thread.closed hadvance ?_
  rcases Thread.lifecycle_cases hadvance with hsame | ⟨rfl, -⟩ | ⟨⟨running, rfl⟩, -⟩
  · exact h.shut fun hrunning => hended (hsame.trans hrunning)
  · exact hknown
  · exact hknown

/-- **A step of a thread keeps the books.** -/
theorem Pool.Sound.go {t t' : Thread} (h : p.Sound) (hk : p.threads[k]? = some t)
    (hadvance : t.advance p.inner k c = some (s', t')) :
    Pool.Sound ⟨s', p.threads.set k t'⟩ := by
  have hload : p.loads[k]? = some t.load := by
    rw [Pool.loads, List.getElem?_map, hk, Option.map_some]
  have hmove := Thread.move hadvance (h.fits t (List.mem_of_getElem? hk))
  have hcapacity : s'.queueCapacity = p.inner.queueCapacity := hmove.capacity_eq
  constructor
  case books =>
    rw [Pool.loads, List.map_set]
    exact h.books.move hload hmove
  case fits =>
    intro u hu
    rcases List.mem_or_eq_of_mem_set hu with hu | rfl
    · exact (h.fits u hu).congr hcapacity
    · exact (Thread.fits_advance hadvance).congr hcapacity
  case own =>
    intro j job q hj
    rcases getElem?_set_cases hk hj with ⟨rfl, rfl⟩ | ⟨-, hold⟩
    · obtain ⟨q₀, rfl⟩ := Thread.submit_of_advance hadvance
      exact h.own j job q₀ hk
    · exact h.own j job q hold
  case live =>
    obtain ⟨n, hold, hnew⟩ := countP_set_toNat Thread.isLive hk t'
    have hlive := h.live
    have := Thread.live hadvance (by omega)
    simp only
    omega
  case shut => exact h.shut_go hk hadvance
  case known =>
    intro u hu
    rcases List.mem_or_eq_of_mem_set hu with hu | rfl
    · exact (h.known u hu).lasts (h.lasts_go hk hadvance) h.shut
    · exact h.known_go hk hadvance

/-- What somebody has who calls. -/
theorem Call.load_thread (k : ℕ) (call : Call) : (call.thread k).load = .none := by
  cases call <;> rfl

/-- A call brings nothing. -/
theorem Pool.loads_call (p : Pool) (call : Call) :
    Pool.loads { p with threads := p.threads ++ [call.thread p.threads.length] } =
      p.loads ++ [.none] := by
  rw [Pool.loads, List.map_append, List.map_singleton, Call.load_thread]
  rfl

/-- A call leaves as many jobs outstanding. -/
theorem Pool.outstanding_call (p : Pool) (call : Call) (job : Job) :
    Pool.outstanding { p with threads := p.threads ++ [call.thread p.threads.length] } job =
      p.outstanding job := by
  rw [Pool.outstanding, Pool.loads_call]
  exact Custody.outstanding_join ..

/-- **A call keeps the books.** -/
theorem Pool.Sound.call (h : p.Sound) (call : Call) :
    Pool.Sound { p with threads := p.threads ++ [call.thread p.threads.length] } := by
  have hbooks : Balanced p.inner.store (p.loads ++ [.none]) := h.books.join
  have hgone : (call.thread p.threads.length).isLive = false := by cases call <;> rfl
  have hlasts : p.Lasts { p with threads := p.threads ++ [call.thread p.threads.length] } := by
    refine ⟨id, id, id, fun _ hempty job => ?_, fun hdeserted t ht => ?_⟩
    · rw [Pool.outstanding_call]
      exact hempty job
    · rcases List.mem_append.mp ht with ht | ht
      · exact hdeserted t ht
      · rw [List.mem_singleton.mp ht]
        exact hgone
  constructor
  case books =>
    rw [Pool.loads_call]
    exact hbooks
  case fits =>
    intro t ht
    rcases List.mem_append.mp ht with ht | ht
    · exact h.fits t ht
    · rw [List.mem_singleton.mp ht]
      cases call <;> trivial
  case own =>
    intro j job q hj
    rcases getElem?_concat_cases hj with hold | ⟨rfl, hnew⟩
    · exact h.own j job q hold
    · cases call <;> cases hnew
      rfl
  case live =>
    rw [List.countP_append, List.countP_singleton, hgone]
    exact h.live
  case shut => exact h.shut
  case known =>
    intro t ht
    rcases List.mem_append.mp ht with ht | ht
    · exact (h.known t ht).lasts hlasts h.shut
    · rw [List.mem_singleton.mp ht]
      cases call <;> trivial

/-- A wake-up keeps the books. -/
theorem Pool.Sound.wakeUp (h : p.Sound) (waiters : List ℕ) :
    Pool.Sound { p with inner := { p.inner with waiters } } where
  books := h.books
  fits t ht := (h.fits t ht).congr rfl
  own := h.own
  live := h.live
  shut := h.shut
  known t ht := (h.known t ht).lasts ⟨id, id, id, fun _ hempty => hempty, id⟩ h.shut

/-- A pool begins with nothing in its books. -/
theorem Pool.Sound.start (poolSize : ℕ) (queueCapacity : Option ℕ) :
    Pool.Sound
      ⟨.initial poolSize queueCapacity, List.replicate poolSize (.worker .activating)⟩ := by
  have hthread : ∀ t ∈ List.replicate poolSize (Thread.worker .activating),
      t = .worker .activating := fun t ht => (List.mem_replicate.mp ht).2
  constructor
  case books =>
    rw [Pool.loads, List.map_replicate]
    refine Balanced.start rfl ?_ rfl _
    change [] ++ _ = []
    rw [List.nil_append, List.flatMap_eq_nil_iff]
    rintro q hq
    obtain ⟨i, -, rfl⟩ := List.mem_map.mp hq
    rfl
  case fits =>
    intro t ht
    rw [hthread t ht]
    trivial
  case own =>
    intro k job q hk
    exact Thread.noConfusion (hthread _ (List.mem_of_getElem? hk))
  case live => simp [Inner.initial, Thread.isLive, WorkerPhase.isLive, List.countP_replicate]
  case shut => exact fun hended => absurd rfl hended
  case known =>
    intro t ht
    rw [hthread t ht]
    trivial

/-- A step keeps the books. -/
theorem Pool.Sound.step {a : Action} (h : p.Sound) (hstep : step p a = some p') : p'.Sound := by
  rcases step_cases hstep with ⟨call, -, rfl⟩ | ⟨k, c, t, s', t', -, hk, hadvance, rfl⟩ |
    ⟨k, -, -, rfl⟩
  · exact h.call call
  · exact h.go hk hadvance
  · exact h.wakeUp _

/-- **At a closed gate no step leaves more jobs outstanding.** -/
theorem Pool.Sound.outstanding_step {a : Action} (h : p.Sound)
    (hstep : FixedPool.step p a = some p') (hclosed : p.inner.accepting = false) (job : Job) :
    p'.outstanding job ≤ p.outstanding job := by
  rcases step_cases hstep with ⟨call, -, rfl⟩ | ⟨k, c, t, s', t', -, hk, hadvance, rfl⟩ |
    ⟨k, -, -, rfl⟩
  · exact (Pool.outstanding_call p call job).le
  · exact h.outstanding_go hk hadvance hclosed job
  · exact le_rfl

/-- **In every run the books are balanced.** -/
theorem sound_of_reach {ok : Pool → Action → Prop} (h : machine.ReachVia ok p) : p.Sound := by
  refine h.invariant ?_ fun _ _ _ _ hsound _ hstep => hsound.step hstep
  rintro _ ⟨poolSize, queueCapacity, -, -, rfl⟩
  exact .start poolSize queueCapacity

/-! ### What the books tell -/

/-- The jobs that were accepted. -/
def Pool.acceptedJobs (p : Pool) : List Job := Custody.allAccepted p.loads

/-- The jobs that are accounted for as running or cancelled. -/
def Pool.accountedJobs (p : Pool) : List Job :=
  p.loads.flatMap Load.owned ++ (p.inner.ran ++ p.inner.cancelled)

/-- The slots that submissions have reserved whose jobs are not accepted. -/
def Pool.reservedSlots (p : Pool) : ℕ := Custody.reserved p.loads

/-- What a worker is about to subtract from `queued_task_count`. -/
def WorkerPhase.uncounts : WorkerPhase → ℕ
  | marking _ | cancelling .uncounting _ _ => 1
  | _ => 0

/-- What a thread is about to subtract from `queued_task_count`. -/
def Thread.uncounts : Thread → ℕ
  | worker q => q.uncounts
  | submit _ .unreserving => 1
  | shutdownNow (.uncounting _ jobs) => jobs.length
  | _ => 0

/-- Whether a worker has left its loop. -/
def WorkerPhase.hasLeft : WorkerPhase → Bool
  | unlocking false | deactivating | leaving | exiting | exited => true
  | _ => false

/-- `is_terminated_locked`. -/
def Inner.isTerminatedLocked (s : Inner) : Bool :=
  s.lifecycle ≠ .running ∧ s.liveWorkers = 0 ∧ s.queuedTaskCount = 0 ∧ s.runningTaskCount = 0 ∧
    s.inflightSubmissions = 0

/-- Whether somebody asked for the end, and was told that it has come. -/
def Pool.SaidTerminated (p : Pool) : Prop :=
  ∃ waits, Thread.termination waits (.returned true) ∈ p.threads

/-- **No job is lost, and none is accounted for twice.** -/
structure Pool.Accounts (p : Pool) : Prop where
  /-- `queued_task_count` counts the accepted jobs not accounted for, and the slots. -/
  count : p.inner.queuedTaskCount =
    (p.acceptedJobs.filter fun job => job ∉ p.accountedJobs).length + p.reservedSlots
  /-- It stays within the capacity. -/
  capacity : ∀ n ∈ p.inner.queueCapacity, p.inner.queuedTaskCount ≤ n
  /-- Nobody subtracts more from it than it is. -/
  noUnderflow : ∀ t ∈ p.threads, t.uncounts ≤ p.inner.queuedTaskCount
  /-- No job is accounted for twice. -/
  once : p.accountedJobs.Nodup
  /-- Only accepted jobs are accounted for. -/
  accepted : p.accountedJobs ⊆ p.acceptedJobs
  /-- Where a worker has left its loop and the pool was not stopped, all are. -/
  left : ∀ q, Thread.worker q ∈ p.threads → q.hasLeft = true → p.inner.lifecycle = .shutdown →
    p.acceptedJobs ⊆ p.accountedJobs
  /-- After the end, and when nobody is in `shutdown_now` any more, all were run or cancelled. -/
  ended : p.inner.isTerminatedLocked = true ∨ p.SaidTerminated →
    (∀ q, Thread.shutdownNow q ∈ p.threads → ∃ report, q = .returned report) →
    ∀ job ∈ p.acceptedJobs, p.inner.ran.count job + p.inner.cancelled.count job = 1

namespace Pool.Sound

/-- No job is accepted twice. -/
theorem nodup_accepted (h : p.Sound) : p.acceptedJobs.Nodup := by
  refine Custody.allAccepted_nodup id (fun l hl => ?_) fun k l hk job hjob => ?_
  · obtain ⟨t, -, rfl⟩ := List.mem_map.mp hl
    cases t with
    | submit job q =>
      change (if q.isAccepted then [job] else []).Nodup
      split_ifs
      · exact List.nodup_singleton job
      · exact List.nodup_nil
    | _ => exact List.nodup_nil
  · rw [Pool.loads, List.getElem?_map] at hk
    obtain ⟨t, ht, rfl⟩ := Option.map_eq_some_iff.mp hk
    cases t with
    | submit j q =>
      change job ∈ if q.isAccepted then [j] else [] at hjob
      split_ifs at hjob
      · rw [List.mem_singleton.mp hjob]
        exact h.own k j q ht
      · cases hjob
    | _ => cases hjob

/-- To be accounted for is to be among the accounted jobs. -/
theorem accounted_iff (job : Job) :
    Accounted p.inner.store p.loads job ↔ job ∈ p.accountedJobs := by
  unfold Accounted accountedJobs
  rw [Custody.total_eq_count, List.mem_append, Nat.add_pos_iff_pos_or_pos, List.count_pos_iff,
    List.count_pos_iff]
  rfl

/-- Only accepted jobs are accounted for. -/
theorem accepted_of_accounted (h : p.Sound) : p.accountedJobs ⊆ p.acceptedJobs := by
  intro job hjob
  have hconserved := h.books.conserved job
  rw [← accounted_iff, Accounted] at hjob
  have haccepted : 0 < Custody.total p.loads Load.accepted job := by omega
  rw [Custody.total_eq_count] at haccepted
  exact List.count_pos_iff.mp haccepted

/-- **After the end all jobs were run or cancelled**, if no `shutdown_now` still has some. -/
theorem settled (h : p.Sound) (hdeserted : p.Deserted) (hempty : p.Empty)
    (hreturned : ∀ q, Thread.shutdownNow q ∈ p.threads → ∃ report, q = .returned report)
    {job : Job} (hjob : job ∈ p.acceptedJobs) :
    p.inner.ran.count job + p.inner.cancelled.count job = 1 := by
  have howned : ∀ l ∈ p.loads, l.owned = [] := by
    intro l hl
    obtain ⟨t, ht, rfl⟩ := List.mem_map.mp hl
    cases t with
    | worker q =>
      have hgone := hdeserted _ ht
      cases q with
      | exiting | exited => rfl
      | _ => cases hgone
    | shutdownNow q =>
      obtain ⟨report, rfl⟩ := hreturned q ht
      rfl
    | _ => rfl
  have hdone := h.books.settled (hempty job) howned
  have hone : p.acceptedJobs.count job = 1 := List.count_eq_one_of_mem h.nodup_accepted hjob
  rw [Custody.total_eq_count] at hdone
  rw [← List.count_append]
  exact hdone.trans hone

end Pool.Sound

end FixedPool

end QubitConcurrent
