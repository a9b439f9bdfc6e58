import QubitConcurrent.Services.Contract
import QubitConcurrent.Services.TokioCallables

/-!
# What a Tokio service promises

The future of a task is where its join handle looks, and how the task stands is read off it: it
waits until it is polled first, runs until it is done with, and is over unless its output is
`Cancelled`, or there is none. The runtime takes an abort to heed in the midst of a task as well as
before it, so a Tokio service promises less than the others: what it has started it may abort
(`QubitConcurrent.Contract.Act.abort`).

It is not free to do so, though. A poll ends a task in no way but that of its callable or its
future, whatever these are (`QubitConcurrent.Tokio.Task.Honours`), so that a task is cancelled only
if somebody has signalled it, or if there was no runtime to spawn it in.
-/

namespace QubitConcurrent

namespace Tokio

open Relation (ReflTransGen)

open Contract (Act Goes Leads Keeps Records actsOn settled_ofList)

open Services

open TaskHandle (TaskResult Outcome runCallable)

variable {R E : Type} {poll : Task.Poll R E} {s s' : Service R E} {i : ℕ}

/-! ### How tasks stand -/

/-- How a task stands that is done with, by its output. -/
def standingOf : Option (TaskResult R E) → Standing
  | none | some (.error .cancelled) => .cancelled
  | some _ => .over

/-- How a task stands. -/
def Task.standing (t : Task R E) : Standing :=
  match t.future with
  | .unspawned | .scheduled => .waiting
  | .suspended => .running
  | .dropping output | .announcing _ output | .ended output => standingOf output

/-- A task that is done with is over where its output is not `Cancelled`. -/
theorem standingOf_some {result : TaskResult R E} (h : result ≠ .error .cancelled) :
    standingOf (some result) = .over := by
  unfold standingOf
  split
  · exact absurd ‹_› (by simp)
  · next heq => exact absurd (Option.some.inj heq) h
  · rfl

/-- What `run_callable` makes of a callable is never `Cancelled`. -/
theorem runCallable_ne (outcome : Outcome R E) : runCallable outcome ≠ .error .cancelled := by
  cases outcome <;> simp [runCallable]

/-- The guard of a task does not change how it stands. -/
theorem standing_guardAfter (submit : SubmitPhase) (output : Option (TaskResult R E))
    (r : Option Announce) (closure : ClosurePhase R E) (aborted : Bool) :
    Task.standing ⟨submit, Service.guardAfter output r, closure, aborted⟩ = standingOf output := by
  cases r <;> rfl

/-- A task whose guard has taken it out of `active_tasks` is done with. -/
theorem Task.isFinal_standing {t : Task R E} (h : t.released = true) :
    t.standing.isFinal = true := by
  have hfinal : ∀ output : Option (TaskResult R E), (standingOf output).isFinal = true := by
    intro output
    unfold standingOf
    split <;> rfl
  obtain ⟨submit, future, closure, aborted⟩ := t
  cases future with
  | announcing a output | ended output => exact hfinal output
  | _ => exact absurd h Bool.false_ne_true

/-! ### How tasks go on -/

/-- A callable that has returned has returned what `run_callable` makes of it. -/
def Task.Plain (t : Task R E) : Prop := ∀ result, t.closure = .returned result →
  result ≠ .error .cancelled

/-- **What is known of a task**: if it was cancelled, somebody has signalled it, or there was no
runtime to spawn its future in. -/
structure Task.Sincere (t : Task R E) : Prop where
  /-- Callables are not cancelled. -/
  plain : t.Plain
  /-- Cancelled tasks were signalled, or were not spawned. -/
  explained : t.standing = .cancelled → t.aborted = true ∨ t.submit = .panicked

/-- A way to poll that starts tasks and ends them, and cancels none. -/
def Task.Honours (poll : Task.Poll R E) : Prop :=
  ∀ t answer t', t.Plain → poll t answer = some t' →
    t'.Plain ∧ t'.standing ≠ .cancelled ∧
      ∀ i : ℕ, ReflTransGen (Leads Act.Orderly i) t.standing t'.standing

/-- A task is started. -/
theorem leads_run : ReflTransGen (Leads Act.Orderly i) .waiting .running :=
  .single ⟨.start i, rfl, rfl, by simp, rfl⟩

/-- A task runs to its end. -/
theorem leads_over : ReflTransGen (Leads Act.Orderly i) .running .over :=
  .single ⟨.finish i, rfl, rfl, by simp, rfl⟩

/-- The futures of `TokioExecutorService` are polled so. -/
theorem honours_pollCallable : Task.Honours (Task.pollCallable : Task.Poll R E) := by
  intro t answer t' hplain h
  unfold Task.pollCallable at h
  split at h
  · obtain rfl := Option.some.inj h
    exact ⟨by simp [Task.Plain], by simp [Task.standing], fun i => leads_run⟩
  · next submit result =>
    obtain rfl := Option.some.inj h
    have hover : Task.standing ⟨submit, .dropping (some result), .returned result, false⟩ = .over :=
      standingOf_some (hplain result rfl)
    refine ⟨hplain, by simp [hover], fun i => ?_⟩
    rw [hover]
    exact leads_over
  · exact absurd h (by simp)

/-- The futures of `TokioIoExecutorService` are polled so. -/
theorem honours_pollFuture : Task.Honours (Task.pollFuture : Task.Poll R E) := by
  intro t answer t' hplain h
  have hover : ∀ submit closure outcome, Task.standing (R := R) (E := E)
      ⟨submit, .dropping (some (runCallable outcome)), closure, false⟩ = .over :=
    fun _ _ outcome => standingOf_some (runCallable_ne outcome)
  unfold Task.pollFuture at h
  split at h
  · obtain rfl := Option.some.inj h
    cases answer with
    | none => exact ⟨hplain, by simp [Task.standing], fun i => leads_run⟩
    | some outcome =>
      refine ⟨hplain, by simp [hover], fun i => ?_⟩
      rw [Option.elim_some, hover]
      exact leads_run.trans leads_over
  · obtain rfl := Option.some.inj h
    cases answer with
    | none => exact ⟨hplain, by simp [Task.standing], fun i => .refl⟩
    | some outcome =>
      refine ⟨hplain, by simp [hover], fun i => ?_⟩
      rw [Option.elim_some, hover]
      exact leads_over
  · exact absurd h (by simp)

/-- What leads orderly, leads. -/
theorem leads_of_orderly {r r' : Standing} (h : ReflTransGen (Leads Act.Orderly i) r r') :
    ReflTransGen (Leads (fun _ => True) i) r r' :=
  h.lift id fun _ _ ⟨a, _, hrest⟩ => ⟨a, trivial, hrest⟩

namespace Task.Sincere

variable {t t' : Task R E}

/-- A task that was just admitted was not cancelled. -/
theorem new : (Task.new : Task R E).Sincere :=
  ⟨by simp [Plain, Task.new], by simp [standing, Task.new]⟩

/-- **A move keeps the promise**: who is cancelled was signalled, or was not spawned. -/
theorem move (hhonours : Honours poll) (h : t.Sincere) (ht : t.Move poll t') :
    t'.Sincere ∧ ReflTransGen (Leads (fun _ => True) i) t.standing t'.standing := by
  cases ht with
  | spawns closure aborted => exact ⟨⟨h.plain, by simp [standing]⟩, .refl⟩
  | panics closure aborted =>
    exact ⟨⟨h.plain, fun _ => Or.inr rfl⟩, .single ⟨.cancel i, trivial, rfl, by simp, rfl⟩⟩
  | polls _ _ answer hanswer =>
    obtain ⟨hplain, hnot, hleads⟩ := hhonours _ _ _ h.plain hanswer
    exact ⟨⟨hplain, fun heq => absurd heq hnot⟩, leads_of_orderly (hleads i)⟩
  | drops submit future closure hfuture =>
    refine ⟨⟨h.plain, fun _ => Or.inl rfl⟩, ?_⟩
    rcases hfuture with rfl | rfl
    · exact .single ⟨.cancel i, trivial, rfl, by simp, rfl⟩
    · exact .single ⟨.abort i, trivial, rfl, by simp, rfl⟩
  | starts submit future aborted => exact ⟨⟨by simp [Plain], h.explained⟩, .refl⟩
  | returns submit future aborted outcome =>
    refine ⟨⟨fun result hresult => ?_, h.explained⟩, .refl⟩
    obtain rfl : runCallable outcome = result := by simpa using hresult
    exact runCallable_ne outcome
  | cancels _ hreturned => exact ⟨⟨h.plain, fun _ => Or.inl rfl⟩, .refl⟩

/-- Who is signalled may be cancelled. -/
theorem abort (h : t.Sincere) : Task.Sincere { t with aborted := true } :=
  ⟨h.plain, fun _ => Or.inl rfl⟩

/-- A submission that puts its handle into `abort_handles` was not left by a panic. -/
theorem list {future : FuturePhase R E} {closure : ClosurePhase R E} {aborted : Bool}
    (h : Task.Sincere ⟨.listing, future, closure, aborted⟩) :
    Task.Sincere ⟨.returned, future, closure, aborted⟩ :=
  ⟨h.plain, fun heq => Or.inl ((h.explained heq).resolve_right (by simp))⟩

/-- The guard of a task knows what is known of it. -/
theorem guard {submit : SubmitPhase} {future : FuturePhase R E} {closure : ClosurePhase R E}
    {aborted : Bool} {output : Option (TaskResult R E)}
    (h : Task.Sincere ⟨submit, future, closure, aborted⟩)
    (hfuture : Task.standing ⟨submit, future, closure, aborted⟩ = standingOf output)
    (r : Option Announce) :
    Task.Sincere ⟨submit, Service.guardAfter output r, closure, aborted⟩ := by
  refine ⟨h.plain, fun heq => h.explained ?_⟩
  rwa [hfuture, ← standing_guardAfter submit output r closure aborted]

end Task.Sincere

/-! ### Every step keeps the promise -/

/-- The service, as its users see it. -/
def Service.contract (s : Service R E) : Contract ℕ := s.toCore.contract Task.standing s.tasks

/-- What a step does to the promise: what is known of the tasks is known further, and they go on as
they may. -/
structure Honouring (s s' : Service R E) : Prop where
  /-- What is known of the tasks. -/
  sincere : ∀ t ∈ s'.tasks, t.Sincere
  /-- How the tasks go on. -/
  goes : ReflTransGen (Goes fun _ => True) s.contract s'.contract

/-- One task goes on. -/
theorem honouring_set (hs : ∀ t ∈ s.tasks, t.Sincere) {t t' : Task R E}
    (hi : s.tasks[i]? = some t) (htasks : s'.tasks = s.tasks.set i t') (ht' : t'.Sincere)
    (hleads : ReflTransGen (Leads (fun _ => True) i) t.standing t'.standing)
    (hshutdown : s'.shutdown = s.shutdown) : Honouring s s' where
  sincere u hu := by
    rw [htasks] at hu
    rcases List.mem_or_eq_of_mem_set hu with hold | rfl
    · exact hs u hold
    · exact ht'
  goes := by
    rw [Service.contract, Service.contract, htasks]
    exact goes_task hi hleads hshutdown

/-- A step that touches neither the flag nor the tasks. -/
theorem honouring_beside (hs : ∀ t ∈ s.tasks, t.Sincere) (htasks : s'.tasks = s.tasks)
    (hshutdown : s'.shutdown = s.shutdown) : Honouring s s' where
  sincere := htasks ▸ hs
  goes := by
    rw [Service.contract, Service.contract, htasks]
    exact goes_beside hshutdown

/-- The holder of the submission lock keeps the promise. -/
theorem honouring_holderNext (hs : ∀ t ∈ s.tasks, t.Sincere) (hsound : Sound s) {h : Holder}
    (hlock : s.submissionLock = some h) : Honouring s (s.holderNext h) := by
  cases h with
  | submitChecking =>
    rw [Service.holderNext]
    split_ifs
    · exact honouring_beside hs rfl rfl
    · exact honouring_beside hs rfl rfl
  | submitReleasing =>
    refine ⟨fun t ht => ?_, goes_admit trivial (hsound.entering (Or.inr hlock)) rfl⟩
    rcases List.mem_append.mp ht with hold | hnew
    · exact hs t hold
    · rw [List.mem_singleton.mp hnew]
      exact .new
  | shutdownStoring | shutdownNowStoring => exact ⟨hs, goes_store trivial⟩
  | submitCounting | shutdownNowReading | shutdownNowLocking running =>
    exact honouring_beside hs rfl rfl
  | shutdownNowAborting pending report =>
    cases pending with
    | nil => exact honouring_beside hs rfl rfl
    | cons i pending =>
      rw [Service.holderNext, Service.abort]
      split
      · next t hi =>
        exact honouring_set hs hi rfl (hs t (List.mem_of_getElem? hi)).abort .refl rfl
      · exact honouring_beside hs rfl rfl
  | shutdownAnnouncing a | shutdownNowAnnouncing a report =>
    have hshutdown := s.toCore.shutdown_announce a
    rw [Service.holderNext]
    split
    · next a' c hc =>
      rw [hc] at hshutdown
      exact honouring_beside hs rfl hshutdown
    · next c hc =>
      rw [hc] at hshutdown
      exact honouring_beside hs rfl hshutdown

/-- **Every step keeps the promise.** -/
theorem honouring_step (hhonours : Task.Honours poll) (hs : ∀ t ∈ s.tasks, t.Sincere)
    (hsound : Sound s) {a : Action R E} (hstep : s.step poll a = some s') : Honouring s s' := by
  cases step_move hstep with
  | takes => exact honouring_beside hs rfl rfl
  | holds h hlock => exact honouring_holderNext hs hsound hlock
  | task _ i t t' hi ht notes hnotes =>
    obtain ⟨hsincere, hleads⟩ := (hs t (List.mem_of_getElem? hi)).move hhonours ht
    exact honouring_set hs hi rfl hsincere hleads rfl
  | lists i future closure aborted hi =>
    exact honouring_set hs hi rfl (hs _ (List.mem_of_getElem? hi)).list .refl rfl
  | leaves i submit output closure aborted hi =>
    refine honouring_set hs hi rfl ((hs _ (List.mem_of_getElem? hi)).guard rfl _) ?_ rfl
    rw [standing_guardAfter]
    exact .refl
  | announces i submit a output closure aborted hi =>
    refine honouring_set hs hi rfl ((hs _ (List.mem_of_getElem? hi)).guard rfl _) ?_
      (Core.shutdown_announce ..)
    rw [standing_guardAfter]
    exact .refl
  | waits _ c hturn => exact honouring_beside hs rfl hturn.shutdown

/-- Over every run, no task is cancelled that was not signalled, and that could be spawned. -/
theorem sincere_of_reach (hhonours : Task.Honours poll) (hs : (machine poll).Reach s) :
    ∀ t ∈ s.tasks, t.Sincere := by
  refine hs.invariant (I := fun s : Service R E => ∀ t ∈ s.tasks, t.Sincere) ?_ ?_
  · rintro s rfl
    simp [Service.new]
  · exact fun s a s' hr hall _ hstep =>
      (honouring_step hhonours hall (sound_of_reach hr) hstep).sincere

/-- **A Tokio service keeps the promise of an executor service that may abort.** -/
theorem keeps_contract (hhonours : Task.Honours poll) :
    Contract.Keeps (machine poll) (fun _ => True) Service.contract where
  init s hinit := by
    rw [hinit]
    rfl
  step _ _ _ hr hstep :=
    (honouring_step hhonours (sincere_of_reach hhonours hr) (sound_of_reach hr) hstep).goes

/-- **Where the flag is set and the count is zero, nothing is left to do.** -/
theorem settled_of_isTerminated (hpoll : Task.Modest poll) (hs : (machine poll).Reach s)
    (hterm : s.isTerminated = true) : s.contract.Settled := by
  obtain ⟨hshutdown, hzero⟩ := Core.isTerminated_iff.mp hterm
  have hlock : s.submissionLock ≠ some .submitReleasing := by
    intro hlock
    have hopen := (sound_of_reach hs).entering (Or.inr hlock)
    exact Bool.false_ne_true (hopen.symm.trans hshutdown)
  have hcounted := counted_of_reach hpoll hs
  rw [Counted, hzero, if_neg hlock, Nat.add_zero] at hcounted
  refine settled_ofList (by simp [hshutdown]) fun t ht => Task.isFinal_standing ?_
  simpa using List.countP_eq_zero.mp hcounted.symm t ht

/-- **What the promise of a Tokio service is worth**, with what an observer has written down. -/
structure Promised (poll : Task.Poll R E) (s : Service R E) (log : List (Act ℕ)) : Prop where
  /-- What is written down is a run of the promise, in which each task is admitted at most once,
  started at most once and ended at most once, in this order, and none is admitted after the flag
  was set. -/
  records : Records (fun _ => True) s.contract log
  /-- Only tasks that were signalled, or could not be spawned, are cancelled. -/
  explained : ∀ (i : ℕ) (t : Task R E), s.tasks[i]? = some t →
    s.contract.standing i = .cancelled → t.aborted = true ∨ t.submit = .panicked
  /-- Once the flag is set, no later task is admitted. -/
  closed : s.shutdown = true → ∀ t, (machine poll).Later s t → t.shutdown = true ∧
    ∀ i, t.contract.standing i = .unknown ↔ s.contract.standing i = .unknown
  /-- Where the count is zero besides, nothing is left to do, then or later. -/
  settled : s.isTerminated = true →
    s.contract.Settled ∧ ∀ t, (machine poll).Later s t → t.contract = s.contract

/-- A service keeps its promise, however its futures are polled, if polls do not cancel. -/
theorem promised_of_reach (hpoll : Task.Modest poll) (hhonours : Task.Honours poll)
    {t : Service R E × List (Act ℕ)}
    (ht : ((machine poll).observe (watch Service.contract Service.tasks)).Reach t) :
    Promised poll t.1 t.2 := by
  have hs := Machine.observe_reach ht
  obtain ⟨hrecords, hsettled, hlater⟩ :=
    worth (keeps_contract hhonours) (fun _ _ => trivial) ht (settled_of_isTerminated hpoll hs)
  refine ⟨hrecords, fun i t hi hcancelled => ?_, fun hshutdown u hu => (hlater u hu).1 hshutdown,
    fun hterm => ⟨hsettled hterm, fun u hu => (hlater u hu).2 hterm⟩⟩
  refine (sincere_of_reach hhonours hs t (List.mem_of_getElem? hi)).explained ?_
  simpa [Service.contract, Core.contract, Contract.ofList, hi] using hcancelled

/-- **Tokio services keep their promise**: a `TokioExecutorService` and a
`TokioIoExecutorService`, in every run, whatever is aborted and whenever. -/
theorem tokio_meets_contract :
    (Keeps (executorMachine R E) (fun _ => True) Service.contract ∧
      ∀ t : Service R E × List (Act ℕ),
        ((executorMachine R E).observe (watch Service.contract Service.tasks)).Reach t →
          Promised Task.pollCallable t.1 t.2) ∧
    Keeps (ioExecutorMachine R E) (fun _ => True) Service.contract ∧
      ∀ t : Service R E × List (Act ℕ),
        ((ioExecutorMachine R E).observe (watch Service.contract Service.tasks)).Reach t →
          Promised Task.pollFuture t.1 t.2 :=
  ⟨⟨keeps_contract honours_pollCallable,
      fun _ => promised_of_reach modest_pollCallable honours_pollCallable⟩,
    keeps_contract honours_pollFuture,
    fun _ => promised_of_reach modest_pollFuture honours_pollFuture⟩

/-- Of two callables one runs to its end, and the other is aborted while it runs; after that a
service is terminated. A future that was never polled is aborted. -/
theorem tokio_meets_contract_terminated :
    (∃ t : Service Unit Unit × List (Act ℕ), actsOn 0 t.2 = [.accept 0, .start 0, .finish 0] ∧
      t.1.contract.standing 1 = .cancelled ∧ t.1.contract.Settled) ∧
    ∃ t : Service Unit Unit × List (Act ℕ), t.1.contract.standing 0 = .cancelled ∧
      Promised Task.pollFuture t.1 t.2 := by
  constructor
  · obtain ⟨s, hs, hp⟩ := Machine.exists_reachVia_of_exec (M := executorMachine Unit Unit)
      (fun _ _ => True) (fun _ _ => true) (fun _ _ _ => trivial) rfl
      (admitOne 0 ++ endCallable 0 ++ admitOne 1 ++ [.poll 1 none, .cancel 1, .drop 1,
        .guardNext 1, .guardNext 1, .shutdown] ++ List.replicate 4 .holderNext)
      (fun s => s.isTerminated && s.contract.standing 0 == .over &&
        s.contract.standing 1 == .cancelled) (by decide)
    simp only [Bool.and_eq_true, beq_iff_eq] at hp
    obtain ⟨⟨hterm, hover⟩, hcancelled⟩ := hp
    obtain ⟨log, hlog⟩ := Machine.exists_observe (watch Service.contract Service.tasks) hs
    have hpromised := tokio_meets_contract.1.2 (s, log) hlog
    have htold := hpromised.records.history.told 0
    rw [hover] at htold
    exact ⟨(s, log), htold, hcancelled, (hpromised.settled hterm).1⟩
  · obtain ⟨s, hs, hp⟩ := Machine.exists_reachVia_of_exec (M := ioExecutorMachine Unit Unit)
      (fun _ _ => True) (fun _ _ => true) (fun _ _ _ => trivial) rfl
      (admitOne 0 ++ [.cancel 0, .drop 0])
      (fun s => s.contract.standing 0 == .cancelled) (by decide)
    obtain ⟨log, hlog⟩ := Machine.exists_observe (watch Service.contract Service.tasks) hs
    exact ⟨(s, log), beq_iff_eq.mp hp, tokio_meets_contract.2.2 (s, log) hlog⟩

end Tokio

end QubitConcurrent
