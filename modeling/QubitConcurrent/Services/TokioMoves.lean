import QubitConcurrent.Services.TokioEnd

/-!
# What the threads of a Tokio service do

Most steps of a Tokio service concern one task, and most of these nobody else: its submission
goes on, the runtime polls its future or drops it, a blocking thread runs its callable, its
handle is asked to cancel it. What such a step does to the task is said here once
(`QubitConcurrent.Tokio.Task.Move`), and then what any step does to the service
(`QubitConcurrent.Tokio.Move`).
-/

namespace QubitConcurrent

namespace Tokio

open Services

open TaskHandle (TaskResult Outcome runCallable)

variable {R E : Type} {poll : Task.Poll R E} {s s' : Service R E}

/-- **What a step that concerns one task alone does to it.** -/
inductive Task.Move (poll : Task.Poll R E) : Task R E → Task R E → Prop
  /-- The future is spawned. -/
  | spawns (closure : ClosurePhase R E) (aborted : Bool) :
      Move poll ⟨.spawning, .unspawned, closure, aborted⟩ ⟨.listing, .scheduled, closure, aborted⟩
  /-- There is no runtime to spawn the future in. -/
  | panics (closure : ClosurePhase R E) (aborted : Bool) :
      Move poll ⟨.spawning, .unspawned, closure, aborted⟩
        ⟨.panicked, .dropping none, closure, aborted⟩
  /-- The future is polled. -/
  | polls (t t' : Task R E) (answer : Option (Outcome R E)) (h : poll t answer = some t') :
      Move poll t t'
  /-- The future of a task that was aborted is dropped. -/
  | drops (submit : SubmitPhase) (future : FuturePhase R E) (closure : ClosurePhase R E)
      (hfuture : future = .scheduled ∨ future = .suspended) :
      Move poll ⟨submit, future, closure, true⟩
        ⟨submit, .dropping (some (.error .cancelled)), closure, true⟩
  /-- A blocking thread takes the callable. -/
  | starts (submit : SubmitPhase) (future : FuturePhase R E) (aborted : Bool) :
      Move poll ⟨submit, future, .queued, aborted⟩ ⟨submit, future, .executing, aborted⟩
  /-- The callable ends. -/
  | returns (submit : SubmitPhase) (future : FuturePhase R E) (aborted : Bool)
      (outcome : Outcome R E) :
      Move poll ⟨submit, future, .executing, aborted⟩
        ⟨submit, future, .returned (runCallable outcome), aborted⟩
  /-- The handle is asked to cancel the task. -/
  | cancels (t : Task R E) (h : t.submit = .returned) : Move poll t { t with aborted := true }

/-- **What a step does to a service.** -/
inductive Move (poll : Task.Poll R E) (s : Service R E) : Action R E → Service R E → Prop
  /-- A call takes the submission lock. -/
  | takes (a : Action R E) (h : Holder) (hfree : s.submissionLock = none)
      (hh : h = .submitChecking ∨ h = .shutdownStoring ∨ h = .shutdownNowStoring) :
      Move poll s a (s.hold h)
  /-- The holder of the submission lock moves on. -/
  | holds (h : Holder) (hlock : s.submissionLock = some h) :
      Move poll s .holderNext (s.holderNext h)
  /-- A task moves that concerns nobody else. -/
  | task (a : Action R E) (i : ℕ) (t t' : Task R E) (hi : s.tasks[i]? = some t)
      (ht : t.Move poll t') (notes : List Reply) (hnotes : ∀ r ∈ notes, r = .submitPanicked) :
      Move poll s a { s.setTask i t' with replies := s.replies ++ notes }
  /-- A submission puts its abort handle into `abort_handles`, and returns. -/
  | lists (i : ℕ) (future : FuturePhase R E) (closure : ClosurePhase R E) (aborted : Bool)
      (hi : s.tasks[i]? = some ⟨.listing, future, closure, aborted⟩)
      (hfree : s.submissionLock.any Holder.locksHandles = false) :
      Move poll s (.list i) { s.setTask i ⟨.returned, future, closure, aborted⟩ with
        abortHandles := s.abortHandles ++ [i], replies := s.replies ++ [.submit (.ok i)] }
  /-- A guard takes its task out of `active_tasks`. -/
  | leaves (i : ℕ) (submit : SubmitPhase) (output : Option (TaskResult R E))
      (closure : ClosurePhase R E) (aborted : Bool)
      (hi : s.tasks[i]? = some ⟨submit, .dropping output, closure, aborted⟩) :
      Move poll s (.guardNext i) ({ s with toCore := s.leave.2 }.setTask i
        ⟨submit, Service.guardAfter output s.leave.1, closure, aborted⟩)
  /-- A guard takes a step inside `notify_if_terminated`. -/
  | announces (i : ℕ) (submit : SubmitPhase) (a : Announce) (output : Option (TaskResult R E))
      (closure : ClosurePhase R E) (aborted : Bool)
      (hi : s.tasks[i]? = some ⟨submit, .announcing a output, closure, aborted⟩) :
      Move poll s (.guardNext i) ({ s with toCore := (s.announce a).2 }.setTask i
        ⟨submit, Service.guardAfter output (s.announce a).1, closure, aborted⟩)
  /-- Somebody waits for termination, or asks for it. -/
  | waits (a : Action R E) (c : Core Await) (hturn : s.toCore.Turn c) :
      Move poll s a { s with toCore := c }

/-- A step of one task that concerns nobody else is a move of it. -/
theorem onTask_move (a : Action R E) {i : ℕ} {f : Task R E → Option (Task R E)}
    (hf : ∀ t t', f t = some t' → t.Move poll t') (hstep : s.onTask i f = some s') :
    Move poll s a s' := by
  obtain ⟨t, hi, hmap⟩ := Option.bind_eq_some_iff.mp hstep
  obtain ⟨t', ht', rfl⟩ := Option.map_eq_some_iff.mp hmap
  have hmove := Move.task a i t t' hi (hf t t' ht') [] (by simp)
  rwa [List.append_nil] at hmove

/-- A call of `tokio::spawn` is a move of the task. -/
theorem spawn_move {inRuntime : Bool} {t t' : Task R E} (h : t.spawn inRuntime = some t') :
    t.Move poll t' := by
  unfold Task.spawn at h
  split at h
  · next closure aborted =>
    obtain rfl := Option.some.inj h
    cases inRuntime with
    | true => exact .spawns closure aborted
    | false => exact .panics closure aborted
  · exact absurd h (by simp)

/-- Dropping a future is a move of the task. -/
theorem drop_move {t t' : Task R E} (h : t.drop = some t') : t.Move poll t' := by
  unfold Task.drop at h
  split at h
  · obtain rfl := Option.some.inj h
    exact .drops _ _ _ (Or.inl rfl)
  · obtain rfl := Option.some.inj h
    exact .drops _ _ _ (Or.inr rfl)
  · exact absurd h (by simp)

/-- What a blocking thread does is a move of the task. -/
theorem closure_move {t t' : Task R E} :
    (t.closureStarts = some t' → t.Move poll t') ∧
      ∀ outcome, t.closureReturns outcome = some t' → t.Move poll t' := by
  refine ⟨fun h => ?_, fun outcome h => ?_⟩
  · unfold Task.closureStarts at h
    split at h
    · obtain rfl := Option.some.inj h
      exact .starts ..
    · exact absurd h (by simp)
  · unfold Task.closureReturns at h
    split at h
    · obtain rfl := Option.some.inj h
      exact .returns ..
    · exact absurd h (by simp)

/-- A cancellation is a move of the task. -/
theorem cancel_move {t t' : Task R E} (h : t.cancel = some t') : t.Move poll t' := by
  rw [Task.cancel] at h
  split_ifs at h with hreturned
  obtain rfl := Option.some.inj h
  exact .cancels t hreturned

/-- **Every step is a move.** -/
theorem step_move {a : Action R E} (hstep : s.step poll a = some s') : Move poll s a s' := by
  cases a with
  | submit | shutdown | shutdownNow =>
    simp only [Service.step, Service.acquire] at hstep
    split_ifs at hstep with hfree
    obtain rfl := Option.some.inj hstep
    exact .takes _ _ hfree (by simp)
  | holderNext =>
    obtain ⟨h, hlock, rfl⟩ := Option.map_eq_some_iff.mp hstep
    exact .holds h hlock
  | spawn i inRuntime =>
    obtain ⟨u, hu, rfl⟩ := Option.map_eq_some_iff.mp hstep
    obtain ⟨t, hi, hmap⟩ := Option.bind_eq_some_iff.mp hu
    obtain ⟨t', ht', rfl⟩ := Option.map_eq_some_iff.mp hmap
    have ht : t.Move poll t' := spawn_move ht'
    cases inRuntime with
    | true =>
      have hmove := Move.task (.spawn i true) i t t' hi ht [] (by simp)
      rwa [List.append_nil] at hmove
    | false => exact .task _ i t t' hi ht [.submitPanicked] (by simp)
  | list i =>
    simp only [Service.step, Service.list] at hstep
    split at hstep
    · next future closure aborted hi =>
      split_ifs at hstep with hlocked
      obtain rfl := Option.some.inj hstep
      exact .lists i future closure aborted hi (Bool.eq_false_iff.mpr hlocked)
    · exact absurd hstep (by simp)
  | poll i answer => exact onTask_move _ (fun t t' h => .polls t t' answer h) hstep
  | drop i => exact onTask_move _ (fun _ _ => drop_move) hstep
  | guardNext i =>
    simp only [Service.step, Service.guardNext] at hstep
    split at hstep
    · next hi =>
      obtain rfl := Option.some.inj hstep
      exact .leaves _ _ _ _ _ hi
    · next hi =>
      obtain rfl := Option.some.inj hstep
      exact .announces _ _ _ _ _ _ hi
    · exact absurd hstep (by simp)
  | closureStarts i => exact onTask_move _ (fun _ _ => closure_move.1) hstep
  | closureReturns i outcome => exact onTask_move _ (fun _ _ => closure_move.2 outcome) hstep
  | cancel i => exact onTask_move _ (fun _ _ => cancel_move) hstep
  | await | awaitNext k | awaitDrop k | isTerminated | queryNext k =>
    obtain ⟨c, hturn, rfl⟩ := step_turn rfl hstep
    exact .waits _ c hturn

/-! ### What a poll leaves alone -/

/-- Whether the guard of a task has taken it out of `active_tasks`. -/
def Task.released (t : Task R E) : Bool := t.future matches .announcing .. | .ended _

/-- A way to poll that leaves to the submission, to whoever aborts the task and to the guard
what is theirs. -/
def Task.Modest (poll : Task.Poll R E) : Prop :=
  ∀ t answer t', poll t answer = some t' →
    t'.submit = t.submit ∧ t'.aborted = t.aborted ∧ t'.released = t.released

/-- The futures of `TokioExecutorService` are polled so. -/
theorem modest_pollCallable : Task.Modest (Task.pollCallable : Task.Poll R E) := by
  intro t answer t' h
  unfold Task.pollCallable at h
  split at h
  · obtain rfl := Option.some.inj h
    exact ⟨rfl, rfl, rfl⟩
  · obtain rfl := Option.some.inj h
    exact ⟨rfl, rfl, rfl⟩
  · exact absurd h (by simp)

/-- The futures of `TokioIoExecutorService` are polled so. -/
theorem modest_pollFuture : Task.Modest (Task.pollFuture : Task.Poll R E) := by
  intro t answer t' h
  unfold Task.pollFuture at h
  split at h
  · obtain rfl := Option.some.inj h
    cases answer <;> exact ⟨rfl, rfl, rfl⟩
  · obtain rfl := Option.some.inj h
    cases answer <;> exact ⟨rfl, rfl, rfl⟩
  · exact absurd h (by simp)

/-- What comes after a step of a guard has released the task. -/
theorem released_guardAfter (submit : SubmitPhase) (output : Option (TaskResult R E))
    (r : Option Announce) (closure : ClosurePhase R E) (aborted : Bool) :
    Task.released ⟨submit, Service.guardAfter output r, closure, aborted⟩ = true := by
  cases r <;> rfl

namespace Task.Move

variable {t t' : Task R E}

/-- Only its submission makes a task one whose submission has returned. -/
theorem returned (hpoll : Task.Modest poll) (h : t.Move poll t') :
    t'.submit = .returned ↔ t.submit = .returned := by
  cases h with
  | polls _ _ answer h => rw [(hpoll _ _ _ h).1]
  | spawns | panics => simp
  | _ => rfl

/-- A signal is not taken back. -/
theorem aborted (hpoll : Task.Modest poll) (h : t.Move poll t') (ha : t.aborted = true) :
    t'.aborted = true := by
  cases h with
  | polls _ _ answer h => rw [(hpoll _ _ _ h).2.1, ha]
  | cancels => rfl
  | _ => exact ha

/-- Only the guard releases a task. -/
theorem released (hpoll : Task.Modest poll) (h : t.Move poll t') : t'.released = t.released := by
  cases h with
  | polls _ _ answer h => exact (hpoll _ _ _ h).2.2
  | drops submit future closure hfuture =>
    rcases hfuture with rfl | rfl
    · rfl
    · rfl
  | _ => rfl

end Task.Move

end Tokio

end QubitConcurrent
