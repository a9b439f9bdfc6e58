import QubitConcurrent.Lib.Contract
import QubitConcurrent.Services.RayonEnd
import QubitConcurrent.Services.ThreadPerTaskEnd

/-!
# What the services promise

A service with a thread for each task and a Rayon service have next to nothing in common in how
they keep their tasks, and promise the same (`QubitConcurrent.Contract`). How a task stands is read
off the cell of its handle; a task is taken on where it gets its place in the list of tasks, which
happens under the submission lock and while the flag is not set.

What the cell does by itself is enough for most of the promise: a start is refused where the task
was cancelled, and a cancellation where it was started. A cell does not know whether a result it is
given is that of a task that was started; that it is, is a matter of the threads
(`QubitConcurrent.TaskHandle.TaskHandleInner.leads_complete`).
-/

namespace QubitConcurrent

open Relation (ReflTransGen)

variable {R E W : Type}

/-! ### The cell -/

namespace TaskHandle

open Contract (Act Leads)

namespace TaskHandleInner

variable {c : TaskHandleInner R E W} {i : ℕ}

/-- How the task of a cell stands. -/
def standing (c : TaskHandleInner R E W) : Standing :=
  if c.completed then if c.started then .over else .cancelled
  else if c.started then .running else .waiting

/-- A task that is completed is done with. -/
theorem isFinal_standing (h : c.completed = true) : c.standing.isFinal = true := by
  rw [standing, if_pos h]
  split_ifs <;> rfl

/-- **A start keeps the promise**: it is refused where there is a result. -/
theorem leads_start (c : TaskHandleInner R E W) :
    ReflTransGen (Leads Act.Orderly i) c.standing c.start.2.standing := by
  cases hcompleted : c.completed with
  | true => rw [start, if_pos hcompleted]
  | false =>
    rw [start, if_neg (by simp [hcompleted])]
    cases hstarted : c.started with
    | true => simp [standing, hcompleted, hstarted, ReflTransGen.refl]
    | false =>
      refine .single ⟨.start i, rfl, rfl, by simp, ?_⟩
      simp [standing, hcompleted, hstarted, Act.leads]

/-- **A cancellation keeps the promise**: it is refused where the task was started. -/
theorem leads_cancel (c : TaskHandleInner R E W) :
    ReflTransGen (Leads Act.Orderly i) c.standing c.cancel.2.standing := by
  rw [cancel, finish]
  split_ifs with hrefused
  · rfl
  · obtain ⟨hcompleted, hstarted⟩ : c.completed = false ∧ c.started = false := by
      simpa using hrefused
    refine .single ⟨.cancel i, rfl, rfl, by simp, ?_⟩
    simp [standing, hcompleted, hstarted, Act.leads]

/-- **A completion keeps the promise** where the task was started. -/
theorem leads_complete (c : TaskHandleInner R E W) {result : TaskResult R E}
    (hstarted : c.started = true) :
    ReflTransGen (Leads Act.Orderly i) c.standing (c.complete result).2.standing := by
  rw [complete, finish]
  split_ifs with hrefused
  · rfl
  · have hcompleted : c.completed = false := by simpa using hrefused
    refine .single ⟨.finish i, rfl, rfl, by simp, ?_⟩
    simp [standing, hcompleted, hstarted, Act.leads]

end TaskHandleInner

end TaskHandle

/-! ### The services -/

namespace Services

open Contract (Act Goes Leads Keeps Records ofList covers_ofList goes_close goes_concat goes_set)

variable {A ρ : Type} {c c' : Core A} {f : ρ → Standing} {tasks : List ρ} {allowed : Act ℕ → Prop}

/-- A service, as its users see it: its flag and its tasks. -/
def Core.contract (c : Core A) (f : ρ → Standing) (tasks : List ρ) : Contract ℕ :=
  ofList (!c.shutdown) f tasks

/-- A step that touches neither the flag nor the tasks. -/
theorem goes_beside (hshutdown : c'.shutdown = c.shutdown) :
    ReflTransGen (Goes allowed) (c.contract f tasks) (c'.contract f tasks) := by
  rw [Core.contract, Core.contract, hshutdown]

/-- A task is admitted. -/
theorem goes_admit {t : ρ} (ha : allowed (.accept tasks.length)) (hopen : c.shutdown = false)
    (ht : f t = .waiting) :
    ReflTransGen (Goes allowed) (c.contract f tasks) (c.contract f (tasks ++ [t])) := by
  rw [Core.contract, Core.contract, hopen]
  exact .single (goes_concat ha ht)

/-- A task goes on. -/
theorem goes_task {i : ℕ} {t t' : ρ} (hi : tasks[i]? = some t)
    (h : ReflTransGen (Leads allowed i) (f t) (f t')) (hshutdown : c'.shutdown = c.shutdown) :
    ReflTransGen (Goes allowed) (c.contract f tasks) (c'.contract f (tasks.set i t')) := by
  rw [Core.contract, Core.contract, hshutdown]
  exact goes_set hi h

/-- The flag is set. -/
theorem goes_store (ha : allowed .close) :
    ReflTransGen (Goes allowed) (c.contract f tasks) (c.close.contract f tasks) :=
  .single (goes_close ha rfl rfl)

/-- The observer of a service knows the tasks by their places. -/
def watch {σ α : Type} (view : σ → Contract ℕ) (tasks : σ → List ρ) : σ → α → σ → List (Act ℕ) :=
  Contract.watch view fun s => List.range (tasks s).length

/-- **What the promise of a service is worth**, if nothing is left to do where it is
terminated. -/
theorem worth {σ α : Type} {M : Machine σ α} {core : σ → Core A} {tasks : σ → List ρ}
    (h : Keeps M allowed fun s => (core s).contract f (tasks s))
    (hcancel : ∀ i, allowed (.abort i) → allowed (.cancel i)) {t : σ × List (Act ℕ)}
    (ht : (M.observe (watch (fun s => (core s).contract f (tasks s)) tasks)).Reach t)
    (hend : (core t.1).isTerminated = true → ((core t.1).contract f (tasks t.1)).Settled) :
    Records allowed ((core t.1).contract f (tasks t.1)) t.2 ∧
      ((core t.1).isTerminated = true → ((core t.1).contract f (tasks t.1)).Settled) ∧
      ∀ u, M.Later t.1 u →
        ((core t.1).shutdown = true → (core u).shutdown = true ∧
          ∀ i, ((core u).contract f (tasks u)).standing i = .unknown ↔
            ((core t.1).contract f (tasks t.1)).standing i = .unknown) ∧
        ((core t.1).isTerminated = true →
          (core u).contract f (tasks u) = (core t.1).contract f (tasks t.1)) := by
  have hs := Machine.observe_reach ht
  refine ⟨h.records (fun s _ => covers_ofList) hcancel ht, hend,
    fun u hu => ⟨fun hshutdown => ?_, fun hterm => ?_⟩⟩
  · obtain ⟨hclosed, hsame⟩ := (h.closed hs hu).1 (by simp [Core.contract, ofList, hshutdown])
    exact ⟨by simpa [Core.contract, ofList] using hclosed, hsame⟩
  · exact (h.closed hs hu).2 (hend hterm)

end Services

open Contract (Act Goes Keeps Records actsOn settled_ofList)

open Services

/-! ### One thread for each task -/

namespace ThreadPerTask

variable {s s' : Service R E W}

/-- How a task stands. -/
def Task.standing (t : Task R E W) : Standing := t.cell.standing

/-- The service, as its users see it. -/
def Service.contract (s : Service R E W) : Contract ℕ := s.toCore.contract Task.standing s.tasks

/-- The holder of the submission lock keeps the promise. -/
theorem goes_holderNext (hs : Sound s) {h : Holder} (hlock : s.submissionLock = some h) :
    ReflTransGen (Goes Act.Orderly) s.contract (s.holderNext h).contract := by
  cases h with
  | submitChecking =>
    rw [Service.holderNext]
    split_ifs
    · rfl
    · rfl
  | submitReleasing =>
    have hopen := hs.entering (Or.inr hlock)
    exact goes_admit rfl hopen rfl
  | shutdownStoring | shutdownNowStoring => exact goes_store rfl
  | shutdownAnnouncing a | shutdownNowAnnouncing a report =>
    have hshutdown := s.toCore.shutdown_announce a
    rw [Service.holderNext]
    split
    · next a' c hc =>
      rw [hc] at hshutdown
      exact goes_beside hshutdown
    · next c hc =>
      rw [hc] at hshutdown
      exact goes_beside hshutdown
  | submitCounting | shutdownNowReading => rfl

/-- A call of `wait_for_termination` touches neither the flag nor the tasks. -/
theorem goes_waitNext {k : ℕ} (hstep : s.waitNext k = some s') :
    ReflTransGen (Goes Act.Orderly) s.contract s'.contract := by
  rw [Service.waitNext] at hstep
  split at hstep
  · split_ifs at hstep
    rw [← Option.some.inj hstep]
    rfl
  · split_ifs at hstep
    rw [← Option.some.inj hstep]
    rfl
  · rw [← Option.some.inj hstep]
    rfl
  · split_ifs at hstep
    · rw [← Option.some.inj hstep]
      rfl
    · rw [← Option.some.inj hstep]
      rfl
  · rw [← Option.some.inj hstep]
    rfl
  · exact absurd hstep (by simp)

/-- **Every step keeps the promise.** -/
theorem goes_step (hs : Sound s) {a : Action R E} (hstep : s.step a = some s') :
    ReflTransGen (Goes Act.Orderly) s.contract s'.contract := by
  cases a with
  | submit | shutdown | shutdownNow =>
    simp only [Service.step, Service.acquire] at hstep
    split_ifs at hstep
    obtain rfl := Option.some.inj hstep
    rfl
  | holderNext =>
    obtain ⟨h, hlock, rfl⟩ := Option.map_eq_some_iff.mp hstep
    exact goes_holderNext hs hlock
  | spawn i created =>
    simp only [Service.step, Service.spawn] at hstep
    split at hstep
    · next cell hi =>
      obtain rfl := Option.some.inj hstep
      split_ifs
      · exact goes_task hi .refl rfl
      · exact goes_task hi .refl rfl
    · exact absurd hstep (by simp)
  | taskNext i =>
    simp only [Service.step, Service.taskNext] at hstep
    split at hstep
    · next cell hi =>
      obtain rfl := Option.some.inj hstep
      exact goes_task hi cell.leads_start rfl
    · next cell hi =>
      obtain rfl := Option.some.inj hstep
      exact goes_task hi .refl rfl
    · next cell a hi =>
      obtain rfl := Option.some.inj hstep
      exact goes_task hi .refl (Core.shutdown_announce ..)
    · exact absurd hstep (by simp)
  | callReturns i outcome =>
    simp only [Service.step, Service.callReturns] at hstep
    split at hstep
    · next cell hi =>
      obtain rfl := Option.some.inj hstep
      have hstarted := (hs.agrees _ (List.mem_of_getElem? hi)).2
      exact goes_task hi (cell.leads_complete hstarted) rfl
    · exact absurd hstep (by simp)
  | taskUnwinds i =>
    simp only [Service.step, Service.taskUnwinds] at hstep
    split at hstep
    · next cell hi =>
      obtain rfl := Option.some.inj hstep
      exact goes_task hi .refl rfl
    · next cell hi =>
      obtain rfl := Option.some.inj hstep
      exact goes_task hi .refl rfl
    · exact absurd hstep (by simp)
  | handleCancel i =>
    simp only [Service.step, Service.handleCancel] at hstep
    split at hstep
    · exact absurd hstep (by simp)
    · exact absurd hstep (by simp)
    · exact absurd hstep (by simp)
    · next t _ _ hi =>
      obtain rfl := Option.some.inj hstep
      exact goes_task hi t.cell.leads_cancel rfl
  | wait | isTerminated =>
    obtain rfl := Option.some.inj hstep
    rfl
  | waitNext k => exact goes_waitNext hstep
  | wakeWaiter k =>
    simp only [Service.step, Service.wakeWaiter] at hstep
    split at hstep
    · obtain rfl := Option.some.inj hstep
      rfl
    · exact absurd hstep (by simp)
  | queryNext k =>
    obtain ⟨c, hc, rfl⟩ := Option.map_eq_some_iff.mp hstep
    exact goes_beside (Core.shutdown_queryNext hc)

/-- **A thread-per-task service keeps the promise of an executor service.** -/
theorem keeps_contract (R E W : Type) :
    Contract.Keeps (machine R E W) Act.Orderly Service.contract where
  init s hinit := by
    rw [hinit]
    rfl
  step _ _ _ hr hstep := goes_step (sound_of_reach hr) hstep

/-- **Where the flag is set and the count is zero, nothing is left to do.** -/
theorem settled_of_isTerminated (hs : (machine R E W).Reach s) (hterm : s.isTerminated = true) :
    s.contract.Settled := by
  have hshutdown := (Core.isTerminated_iff.mp hterm).1
  refine settled_ofList (by simp [hshutdown]) fun t ht => ?_
  have hcompleted := ((sound_of_reach hs).agrees t ht).1
  rw [(done_of_isTerminated hs hterm t ht).1] at hcompleted
  exact TaskHandle.TaskHandleInner.isFinal_standing hcompleted.symm

end ThreadPerTask

/-! ### A Rayon service -/

namespace Rayon

variable {s s' : Service R E W}

/-- How a task stands. -/
def Task.standing (t : Task R E W) : Standing := t.cell.standing

/-- The service, as its users see it. -/
def Service.contract (s : Service R E W) : Contract ℕ := s.toCore.contract Task.standing s.tasks

/-- The closure of a task keeps the promise. -/
theorem goes_runNext {i : ℕ} (hstep : s.runNext i = some s') :
    ReflTransGen (Goes Act.Orderly) s.contract s'.contract := by
  cases runNext_move hstep with
  | starts cell hi hcompleted =>
    have hstart : cell.start = (true, { cell with started := true }) := by
      rw [TaskHandle.TaskHandleInner.start, if_neg (by simp [hcompleted])]
    have hleads := cell.leads_start (i := i)
    rw [hstart] at hleads
    exact goes_task hi hleads rfl
  | skips cell hi | unregisters cell hi | unqueues cell hi | leaves cell hi =>
    exact goes_task hi .refl rfl
  | announces cell a hi => exact goes_task hi .refl (Core.shutdown_announce ..)

/-- A call that cancels keeps the promise. -/
theorem goes_cancelNext {c : Cancel} {r : Cancel × Service R E W}
    (hstep : s.cancelNext c = some r) :
    ReflTransGen (Goes Act.Orderly) s.contract r.2.contract := by
  obtain ⟨i, phase⟩ := c
  rw [Service.cancelNext] at hstep
  cases phase with
  | publishing =>
    simp only at hstep
    split at hstep
    · next t hi =>
      obtain rfl := Option.some.inj hstep
      exact goes_task hi t.cell.leads_cancel rfl
    · exact absurd hstep (by simp)
  | unregistering | unqueueing | leaving =>
    obtain rfl := Option.some.inj hstep
    rfl
  | announcing a =>
    obtain rfl := Option.some.inj hstep
    exact goes_beside (Core.shutdown_announce ..)
  | returned answer => exact absurd hstep (by simp)

/-- A `shutdown_now` that has released the submission lock keeps the promise. -/
theorem goes_sweepNext {k : ℕ} (hstep : s.sweepNext k = some s') :
    ReflTransGen (Goes Act.Orderly) s.contract s'.contract := by
  cases sweepNext_move hstep with
  | counts | picks | ends => rfl
  | cancels pending c report hk r hr => exact goes_cancelNext hr
  | announces => exact goes_beside (Core.shutdown_announce ..)

/-- The holder of the submission lock keeps the promise. -/
theorem goes_holderNext (hadmitting : s.Admitting) {h : Holder} {order : List ℕ}
    (hlock : s.submissionLock = some h) (hstep : s.holderNext order h = some s') :
    ReflTransGen (Goes Act.Orderly) s.contract s'.contract := by
  cases h with
  | submitChecking =>
    obtain rfl := Option.some.inj hstep
    split_ifs
    · rfl
    · rfl
  | submitNumbering =>
    obtain rfl := Option.some.inj hstep
    have hopen := hadmitting (Or.inl hlock)
    exact goes_admit rfl hopen rfl
  | submitReleasing i =>
    obtain ⟨cell, hi, rfl⟩ := holderNext_submitReleasing hstep
    exact goes_task hi .refl rfl
  | shutdownStoring | shutdownNowStoring =>
    obtain rfl := Option.some.inj hstep
    exact goes_store rfl
  | shutdownAnnouncing a =>
    obtain rfl := holderNext_shutdownAnnouncing hstep
    exact goes_beside (Core.shutdown_announce ..)
  | shutdownNowDraining queued running =>
    obtain ⟨-, rfl⟩ := holderNext_shutdownNowDraining hstep
    rfl
  | _ =>
    obtain rfl := Option.some.inj hstep
    rfl

/-- **Every step keeps the promise.** -/
theorem goes_step (hadmitting : s.Admitting) (hs : Sound s) {a : Action R E}
    (hstep : s.step a = some s') : ReflTransGen (Goes Act.Orderly) s.contract s'.contract := by
  cases a with
  | submit | shutdown | shutdownNow =>
    simp only [Service.step, Service.acquire] at hstep
    split_ifs at hstep
    obtain rfl := Option.some.inj hstep
    rfl
  | holderNext order =>
    obtain ⟨h, hlock, hnext⟩ := Option.bind_eq_some_iff.mp hstep
    exact goes_holderNext hadmitting hlock hnext
  | spawn i =>
    simp only [Service.step, Service.spawn] at hstep
    split at hstep
    · next cell hi =>
      obtain rfl := Option.some.inj hstep
      exact goes_task hi .refl rfl
    · exact absurd hstep (by simp)
  | runNext i => exact goes_runNext hstep
  | callReturns i outcome =>
    simp only [Service.step, Service.callReturns] at hstep
    split at hstep
    · next cell hi =>
      obtain rfl := Option.some.inj hstep
      have hstarted := (hs.agrees _ (List.mem_of_getElem? hi)).2.1
      exact goes_task hi (cell.leads_complete hstarted) rfl
    · exact absurd hstep (by simp)
  | cancel i =>
    simp only [Service.step, Service.cancel] at hstep
    split_ifs at hstep
    obtain rfl := Option.some.inj hstep
    rfl
  | handleNext k =>
    simp only [Service.step, Service.handleNext] at hstep
    split at hstep
    · obtain ⟨r, hr, rfl⟩ := Option.map_eq_some_iff.mp hstep
      exact goes_cancelNext hr
    · exact absurd hstep (by simp)
  | sweepNext k => exact goes_sweepNext hstep
  | await | awaitNext k | awaitDrop k | isTerminated | queryNext k =>
    obtain ⟨c, hturn, rfl⟩ := step_turn rfl hstep
    exact goes_beside hturn.shutdown

/-- **A Rayon service keeps the promise of an executor service.** -/
theorem keeps_contract (R E W : Type) :
    Contract.Keeps (machine R E W) Act.Orderly Service.contract where
  init s hinit := by
    rw [hinit]
    rfl
  step _ _ _ hr hstep := goes_step (admitting_of_reach hr) (sound_of_reach hr) hstep

/-- **Where the flag is set and the count is zero, nothing is left to do.** -/
theorem settled_of_isTerminated (hs : (machine R E W).Reach s) (hterm : s.isTerminated = true) :
    s.contract.Settled := by
  have hshutdown := (Core.isTerminated_iff.mp hterm).1
  refine settled_ofList (by simp [hshutdown]) fun t ht => ?_
  have hcompleted := ((sound_of_reach hs).agrees t ht).1
  rw [(done_of_isTerminated hs hterm t ht).1] at hcompleted
  exact TaskHandle.TaskHandleInner.isFinal_standing hcompleted.symm

end Rayon

end QubitConcurrent
