import QubitConcurrent.Services.TokioReports

/-!
# The callables of a Tokio service that has ended

The guard of a task is in its future, and its callable runs on a blocking thread. Where nobody
aborts the task, its future is done with only after the callable has returned. An abort drops
the future, and the guard in it, at its await point, and leaves the callable to itself.

So what is over when a service has ended is what was not aborted
(`QubitConcurrent.Tokio.callables_over`).
-/

namespace QubitConcurrent

namespace Tokio

open Services

open TaskHandle (TaskResult)

variable {R E : Type} {s s' : Service R E} {i : ℕ}

/-- Whether nothing is left of a callable: it has returned, or there was no runtime to spawn
its future in. -/
def Task.Over (t : Task R E) : Prop :=
  (∃ result, t.closure = .returned result) ∨ (t.submit = .panicked ∧ t.closure = .absent)

/-- **The future of a task says what its callable has come to.** -/
def Task.Agrees (t : Task R E) : Prop :=
  match t.future with
  | .unspawned => t.submit = .spawning ∧ t.closure = .absent
  | .scheduled => t.closure = .absent
  | .suspended => True
  | .dropping _ | .announcing _ _ | .ended _ => t.aborted = true ∨ t.Over

/-- Whether a task is done with, and nothing is left of its callable. -/
def Task.Gone (t : Task R E) : Prop := t.released = true ∧ t.Over

namespace Task.Agrees

/-- A task that was just admitted agrees. -/
theorem new : (Task.new : Task R E).Agrees := ⟨rfl, rfl⟩

/-- Who is aborted agrees all the more. -/
theorem abort {t : Task R E} (h : t.Agrees) : Task.Agrees { t with aborted := true } := by
  obtain ⟨submit, future, closure, aborted⟩ := t
  cases future with
  | unspawned | scheduled | suspended => exact h
  | dropping | announcing | ended => exact Or.inl rfl

/-- A submission that puts its handle into `abort_handles` was not left by a panic. -/
theorem list {future : FuturePhase R E} {closure : ClosurePhase R E} {aborted : Bool}
    (h : Task.Agrees ⟨.listing, future, closure, aborted⟩) :
    Task.Agrees ⟨.returned, future, closure, aborted⟩ := by
  have hover : Task.Over ⟨.listing, future, closure, aborted⟩ →
      Task.Over ⟨.returned, future, closure, aborted⟩ := by
    rintro (hreturned | ⟨hpanicked, -⟩)
    · exact Or.inl hreturned
    · exact absurd hpanicked (by simp)
  cases future with
  | unspawned => exact absurd h.1 (by simp)
  | scheduled | suspended => exact h
  | dropping | announcing | ended => exact Or.imp_right hover h

/-- What comes after a step of a guard agrees if its future was done with. -/
theorem guard {submit : SubmitPhase} {future : FuturePhase R E} {closure : ClosurePhase R E}
    {aborted : Bool} {output : Option (TaskResult R E)}
    (h : aborted = true ∨ Task.Over ⟨submit, future, closure, aborted⟩) (r : Option Announce) :
    Task.Agrees ⟨submit, Service.guardAfter output r, closure, aborted⟩ := by
  cases r <;> exact h

/-- **A move of a task keeps its callable in step with its future.** -/
theorem move {t t' : Task R E} (h : t.Agrees) (ht : t.Move Task.pollCallable t') :
    t'.Agrees := by
  cases ht with
  | spawns closure aborted => exact h.2
  | panics closure aborted => exact Or.inr (Or.inr ⟨rfl, h.2⟩)
  | polls _ _ answer hpoll =>
    unfold Task.pollCallable at hpoll
    split at hpoll
    · obtain rfl := Option.some.inj hpoll
      trivial
    · next submit result =>
      obtain rfl := Option.some.inj hpoll
      exact Or.inr (Or.inl ⟨result, rfl⟩)
    · exact absurd hpoll (by simp)
  | drops => exact Or.inl rfl
  | starts submit future aborted =>
    have hnot : ¬ Task.Over (⟨submit, future, .queued, aborted⟩ : Task R E) := by simp [Task.Over]
    cases future with
    | unspawned => exact absurd h.2 (by simp)
    | scheduled => exact absurd h (by simp [Task.Agrees])
    | suspended => trivial
    | dropping | announcing | ended => exact Or.inl (Or.resolve_right h hnot)
  | returns submit future aborted outcome =>
    cases future with
    | unspawned => exact absurd h.2 (by simp)
    | scheduled => exact absurd h (by simp [Task.Agrees])
    | suspended => trivial
    | dropping | announcing | ended => exact Or.inr (Or.inl ⟨_, rfl⟩)
  | cancels _ hreturned => exact h.abort

end Task.Agrees

namespace Task.Gone

/-- **Nothing comes of a callable of which nothing is left.** -/
theorem move {t t' : Task R E} (h : t.Gone) (ht : t.Move Task.pollCallable t') : t'.Gone := by
  obtain ⟨hreleased, hover⟩ := h
  refine ⟨(ht.released modest_pollCallable).trans hreleased, ?_⟩
  cases ht with
  | spawns | panics => exact absurd hreleased Bool.false_ne_true
  | polls _ _ answer hpoll =>
    unfold Task.pollCallable at hpoll
    split at hpoll
    · exact absurd hreleased Bool.false_ne_true
    · exact absurd hreleased Bool.false_ne_true
    · exact absurd hpoll (by simp)
  | drops submit future closure hfuture =>
    rcases hfuture with rfl | rfl
    · exact absurd hreleased Bool.false_ne_true
    · exact absurd hreleased Bool.false_ne_true
  | starts => simp [Task.Over] at hover
  | returns => exact Or.inl ⟨_, rfl⟩
  | cancels => exact hover

end Task.Gone

/-! ### What becomes of a task in a step -/

/-- **What a step does to a task.** -/
inductive Task.Turn (poll : Task.Poll R E) (t : Task R E) : Task R E → Prop
  /-- Nothing. -/
  | stays : Turn poll t t
  /-- The task moves by itself. -/
  | moves (t' : Task R E) (h : t.Move poll t') : Turn poll t t'
  /-- A `shutdown_now` signals it. -/
  | aborts : Turn poll t { t with aborted := true }
  /-- Its submission puts its handle into `abort_handles`, and returns. -/
  | lists (h : t.submit = .listing) : Turn poll t { t with submit := .returned }
  /-- Its guard takes a step. -/
  | guards (output : Option (TaskResult R E)) (r : Option Announce)
      (h : t.future matches .dropping _ | .announcing _ _) :
      Turn poll t { t with future := Service.guardAfter output r }

/-- **A turn of a task keeps its callable in step with its future.** -/
theorem Task.Agrees.turn {t t' : Task R E} (h : t.Agrees) (ht : t.Turn Task.pollCallable t') :
    t'.Agrees := by
  cases ht with
  | stays => exact h
  | moves _ hmove => exact h.move hmove
  | aborts => exact h.abort
  | lists hlisting =>
    obtain ⟨submit, future, closure, aborted⟩ := t
    obtain rfl : submit = .listing := hlisting
    exact h.list
  | guards output r hfuture =>
    obtain ⟨submit, future, closure, aborted⟩ := t
    cases future with
    | dropping | announcing => exact .guard h r
    | _ => exact absurd hfuture (by simp)

/-- **Nothing comes of a callable of which nothing is left**, whatever happens to the task. -/
theorem Task.Gone.turn {t t' : Task R E} (h : t.Gone) (ht : t.Turn Task.pollCallable t') :
    t'.Gone := by
  cases ht with
  | stays => exact h
  | moves _ hmove => exact h.move hmove
  | aborts => exact h
  | lists hlisting =>
    obtain ⟨hreleased, hreturned | ⟨hpanicked, -⟩⟩ := h
    · exact ⟨hreleased, Or.inl hreturned⟩
    · exact absurd (hlisting.symm.trans hpanicked) (by simp)
  | guards output r hfuture =>
    obtain ⟨submit, future, closure, aborted⟩ := t
    exact ⟨released_guardAfter submit output r closure aborted, h.2⟩

/-- Whether a callable is inside `run_callable`. -/
def Task.executing (t : Task R E) : Bool := t.closure matches .executing

end Tokio

end QubitConcurrent
