import QubitConcurrent.DoubleChecked.Lifecycle

/-!
# What a panic leaves undone

`finalize_prepare` is plain code behind `lock.write(..)`, and no guard. It is reached where the
critical section returns: where the second check is false, or the task returns. Where one of
them panics, or the lock is poisoned and cannot be taken, control leaves the invocation past it,
and what was prepared is neither committed nor rolled back. Nor is it where the task has
returned an error whose `fmt` panics: the error is made text before the rollback action is
invoked.

So there are stories besides those of `QubitConcurrent.DoubleChecked.Told`: those of the
invocations that a panic has left (`QubitConcurrent.DoubleChecked.Unwound`). A panic of one
invocation is nothing to the stories of the others, except that it may poison the lock.
-/

namespace QubitConcurrent

namespace DoubleChecked

variable {T R E : Type}

/-! ### Leaving an invocation -/

/-- Whether control has left an invocation. -/
def Phase.isOver : Phase R E → Bool
  | returned _ | unwound => true
  | _ => false

/-- The critical section has returned: the second check was false, or the task has returned. -/
def SectionReturned (es : List (Event T R E)) : Prop :=
  .retested (.returned false) ∈ es ∨ ∃ t outcome, .ran t (.returned outcome) ∈ es

/-- Whether the prepare action returned `Ok`. -/
def Event.isPrepared : Event T R E → Bool
  | prepared (.returned (.ok _)) => true
  | _ => false

theorem mem_of_any_isPrepared {es : List (Event T R E)} (h : es.any Event.isPrepared = true) :
    .prepared (.returned (.ok ())) ∈ es := by
  obtain ⟨e, he, h⟩ := List.any_eq_true.mp h
  unfold Event.isPrepared at h
  split at h
  · exact he
  · cases h

/-- How often a finalization action was invoked. -/
def finalizations (es : List (Event T R E)) : ℕ :=
  es.countP Event.isCommit + es.countP Event.isRollback

/-- The steps that do not keep an invocation from its commit or rollback: the lock that is taken
is not poisoned, neither the second check nor the task panics, and neither does `fmt` of an error
that the task has returned. -/
def Action.Unhindered (s : State T R E) : Action T R E → Prop
  | .move _ .lock => s.lock.poisoned = false
  | .move _ (.retest answer) => answer.returns = true
  | .move _ (.task t) => (t.run s.lock.value).2.returns = true
  | .move _ (.format answer) => answer.returns = true
  | _ => True

instance (s : State T R E) : DecidablePred (Action.Unhindered s)
  | .invoke => isTrue trivial
  | .move _ .lock => inferInstanceAs (Decidable (s.lock.poisoned = false))
  | .move _ (.retest answer) => inferInstanceAs (Decidable (answer.returns = true))
  | .move _ (.format answer) => inferInstanceAs (Decidable (answer.returns = true))
  | .move _ (.task t) => inferInstanceAs (Decidable ((t.run s.lock.value).2.returns = true))
  | .move _ (.test _) | .move _ (.prepare _) | .move _ .release | .move _ (.commit _)
  | .move _ (.rollback _) => isTrue trivial

/-- **The story of an invocation that a panic has left**; if it is `calm`, then none of the
steps was hindered. -/
inductive Unwound (x : Executor) (calm : Prop) : List (Event T R E) → Prop
  /-- The first check panics. -/
  | tested : Unwound x calm [.tested .panicked]
  /-- The prepare action panics. -/
  | prepared : Unwound x calm (opening false ++ [.prepared .panicked])
  /-- The lock is poisoned. -/
  | poisoned (h : ¬calm) : Unwound x calm (opening x.prepareAction ++ [.acquired])
  /-- The second check panics. -/
  | retested (h : ¬calm) :
      Unwound x calm (opening x.prepareAction ++ [.acquired, .retested .panicked])
  /-- The task panics. -/
  | ran (t : Task T R E) (h : ¬calm) :
      Unwound x calm
        (opening x.prepareAction ++ [.acquired, .retested (.returned true), .ran t .panicked])
  /-- The commit action panics. -/
  | committed (body : Body T R E) :
      Unwound x calm (opening true ++ body.events ++ [.released, .committed .panicked])
  /-- Making the original error text panics. -/
  | formatted (body : Body T R E) (h : ¬calm) :
      Unwound x calm (opening true ++ body.events ++ [.released, .formatted .panicked])
  /-- The rollback action panics. -/
  | rolledBack (body : Body T R E) :
      Unwound x calm (opening true ++ body.events ++
        .released :: (body.result.formatting ++ [.rolledBack .panicked]))

section Run

variable [ToString E] {x : Executor} {first : T} {calm : Prop}

/-- The story so far of any invocation. -/
def Recounted (x : Executor) (calm : Prop) (phase : Phase R E) (es : List (Event T R E)) : Prop :=
  Told x phase es ∨ phase = .unwound ∧ Unwound x calm es

/-- **Every move goes on with the story**, also a move that ends in a panic. -/
theorem Told.recounted {s : State T R E} {k : ℕ} {lock' : LockCell T} {phase phase' : Phase R E}
    {m : Move T R E} {es : List (Event T R E)} (hes : Told x phase es)
    (h : Turn x k s.lock phase m lock' phase')
    (hcalm : calm → (Action.move k m).Unhindered s) :
    Recounted x calm phase' (es ++ [m.event s.lock.value]) := by
  by_cases hphase' : phase' = .unwound
  · -- the move is a panic
    cases h with
    | testPanics =>
      obtain rfl : es = [] := hes
      exact Or.inr ⟨rfl, .tested⟩
    | preparePanics =>
      obtain ⟨-, rfl⟩ := hes
      exact Or.inr ⟨rfl, .prepared⟩
    | lockPoisoned completed hpoisoned =>
      obtain ⟨rfl, rfl⟩ := hes
      exact Or.inr ⟨rfl, .poisoned fun hc => Bool.false_ne_true ((hcalm hc).symm.trans hpoisoned)⟩
    | retestPanics completed =>
      obtain ⟨rfl, rfl⟩ := hes
      rw [List.append_assoc]
      exact Or.inr ⟨rfl, .retested fun hc => Bool.false_ne_true (hcalm hc)⟩
    | taskPanics completed t data hrun =>
      obtain ⟨rfl, rfl⟩ := hes
      have hpanics : (t.run s.lock.value).2 = .panicked := by rw [hrun]
      rw [List.append_assoc, Move.event, hpanics]
      refine Or.inr ⟨rfl, .ran t fun hc => ?_⟩
      have hreturns : (t.run s.lock.value).2.returns = true := hcalm hc
      rw [hpanics] at hreturns
      exact Bool.false_ne_true hreturns
    | commitPanics result =>
      obtain ⟨body, -, -, -, -, rfl⟩ := hes
      exact Or.inr ⟨rfl, List.append_assoc .. ▸ .committed body⟩
    | formatPanics err =>
      obtain ⟨body, -, -, rfl⟩ := hes
      exact Or.inr ⟨rfl, List.append_assoc .. ▸
        .formatted body fun hc => Bool.false_ne_true (hcalm hc)⟩
    | rollbackPanics original result =>
      obtain ⟨body, -, -, rfl, -, -, rfl⟩ := hes
      exact Or.inr ⟨rfl, List.append_assoc .. ▸ .rolledBack body⟩
    -- the moves that compute the next phase do not compute `unwound`
    | test =>
      unfold Executor.runPrepareAction at hphase'
      split_ifs at hphase'
    | release completed result =>
      exact absurd hphase' (finalizePrepare_ne_unwound completed result)
    | format err => exact absurd hphase' (rollBack_ne_unwound _ _)
    | _ => cases hphase'
  · exact Or.inl (hes.turn h hphase')

/-- **The stories of all the invocations**, in every run. -/
theorem recounted_of_reach (calm : Prop) (ok : State T R E → Action T R E → Prop)
    (hok : ∀ s a, ok s a → calm → a.Unhindered s)
    {t : State T R E × List (ℕ × Event T R E)}
    (ht : ((machine x first).observe watch).ReachVia (fun t a => ok t.1 a) t) :
    Storied (Recounted x calm) t.1 t.2 := by
  have hinit : ∀ s : State T R E, (machine x first).init s → Storied (Recounted x calm) s [] :=
    fun s h => .start h.2.2.2.1
  have hstep : ∀ (s : State T R E) a s' log, (machine x first).ReachVia ok s →
      Storied (Recounted x calm) s log → ok s a → step x s a = some s' →
      Storied (Recounted x calm) s' (log ++ watch s a s') := by
    intro s a s' log _ h hmeets hstep
    refine h.step (Or.inl rfl) ?_ hstep
    rintro k m phase lock' phase' es rfl (hes | ⟨rfl, -⟩) hturn
    · exact hes.recounted hturn (hok _ _ hmeets)
    · -- whoever a panic has made leave makes no move
      cases hturn
  exact (Machine.observe_invariant hinit hstep ht).2

/-! ### Where an invocation finalizes -/

omit [ToString E] in
/-- A critical section that has gone through its body has returned. -/
theorem sectionReturned_of_body (body : Body T R E) (before after : List (Event T R E)) :
    SectionReturned (before ++ body.events ++ after) := by
  cases body with
  | unmet => exact Or.inl (by simp [Body.events])
  | worked t outcome => exact Or.inr ⟨t, outcome, by simp [Body.events]⟩

/-- Where the invocation has returned its critical section has, and the error has been made text
if there was one. -/
theorem Ended.sectionReturned {result : ExecutionResult R E} {es : List (Event T R E)}
    (h : Ended x result es) (hprepared : .prepared (.returned (.ok ())) ∈ es) :
    SectionReturned es ∧ .formatted .panicked ∉ es := by
  cases h with
  | unmet => simp at hprepared
  | prepareFailed err hx => simp at hprepared
  | unprepared body hx => cases body <;> simp [opening, Body.events] at hprepared
  | finalized body hooks result hx hhooks =>
    refine ⟨sectionReturned_of_body .., ?_⟩
    rcases body with - | ⟨t, err | value⟩ <;> cases hhooks <;> simp [opening, Body.events]

/-- With a commit and a rollback action, an invocation that has prepared and returned has
invoked one of the two. -/
theorem Ended.finalizations_eq {result : ExecutionResult R E} {es : List (Event T R E)}
    (h : Ended x result es) (hcommit : x.commitPrepareAction = true)
    (hrollback : x.rollbackPrepareAction = true)
    (hprepared : .prepared (.returned (.ok ())) ∈ es) : finalizations es = 1 := by
  obtain ⟨hcommits, hrollbacks⟩ := h.observed.branch result rfl hprepared
  rw [finalizations, hcommits, hrollbacks, hcommit, hrollback]
  cases es.any Event.isRanOk <;> rfl

omit [ToString E] in
/-- An invocation left by a panic has invoked one of the two actions only if its critical section
had returned and the error was made text, and the action it was that panicked. -/
theorem Unwound.finalizations_eq_iff {es : List (Event T R E)} (h : Unwound x calm es) :
    finalizations es = 1 ↔ SectionReturned es ∧ .formatted .panicked ∉ es := by
  cases h with
  | tested => simp [finalizations, SectionReturned]
  | prepared => simp [finalizations, SectionReturned, opening]
  | poisoned hcalm | retested hcalm | ran t hcalm =>
    cases hx : x.prepareAction <;> simp [finalizations, SectionReturned, opening]
  | formatted body hcalm =>
    rcases body with - | ⟨t, outcome⟩ <;>
      simp [finalizations, opening, Body.events]
  | committed body | rolledBack body =>
    rcases body with - | ⟨t, err | value⟩ <;>
      simp [finalizations, SectionReturned, opening, Body.events, List.countP_cons]

omit [ToString E] in
/-- The steps of a calm run leave it to the hooks to panic, once something is prepared. -/
theorem Unwound.sectionReturned {es : List (Event T R E)} (h : Unwound x calm es) (hcalm : calm)
    (hprepared : .prepared (.returned (.ok ())) ∈ es) :
    SectionReturned es ∧ .formatted .panicked ∉ es := by
  cases h with
  | tested => simp at hprepared
  | prepared => simp [opening] at hprepared
  | poisoned h | retested h | ran t h | formatted body h => exact absurd hcalm h
  | committed body | rolledBack body =>
    refine ⟨sectionReturned_of_body .., ?_⟩
    rcases body with - | ⟨t, err | value⟩ <;> simp [opening, Body.events]

/-- **What is prepared is finalized exactly where the critical section returns, and the error of
a task that has failed is made text.** The invocations are those of an executor with a commit and
a rollback action, and their control has left them, by returning or by unwinding. So it is in
every run; and where no step of the run is hindered, all that is prepared is finalized. -/
theorem finalized_iff_of_reach (hcommit : x.commitPrepareAction = true)
    (hrollback : x.rollbackPrepareAction = true) :
    (∀ t : State T R E × List (ℕ × Event T R E),
      ((machine x first).observe watch).Reach t →
      ∀ k phase, t.1.invocations[k]? = some phase → phase.isOver = true →
        .prepared (.returned (.ok ())) ∈ story k t.2 →
        (finalizations (story k t.2) = 1 ↔
          SectionReturned (story k t.2) ∧ .formatted .panicked ∉ story k t.2)) ∧
    ∀ t : State T R E × List (ℕ × Event T R E),
      ((machine x first).observe watch).ReachVia (fun t a => a.Unhindered t.1) t →
      ∀ k phase, t.1.invocations[k]? = some phase → phase.isOver = true →
        .prepared (.returned (.ok ())) ∈ story k t.2 →
        finalizations (story k t.2) = 1 := by
  have hended : ∀ {phase : Phase R E} {es : List (Event T R E)}, Told x phase es →
      phase.isOver = true → ∃ result, Ended x result es := by
    intro phase es htold hover
    cases phase with
    | returned result => exact ⟨result, htold⟩
    | unwound => exact absurd htold id
    | _ => cases hover
  constructor
  · -- in any run: with `calm` false, a step may be hindered
    intro t ht k phase hk hover hprepared
    have hstories := recounted_of_reach False (fun _ _ => True) (fun _ _ _ h => h.elim) ht
    rcases hstories.told k phase hk with htold | ⟨-, hunwound⟩
    · obtain ⟨result, h⟩ := hended htold hover
      exact iff_of_true (h.finalizations_eq hcommit hrollback hprepared)
        (h.sectionReturned hprepared)
    · exact hunwound.finalizations_eq_iff
  · intro t ht k phase hk hover hprepared
    have hstories := recounted_of_reach True (fun s a => a.Unhindered s) (fun _ _ h _ => h) ht
    rcases hstories.told k phase hk with htold | ⟨-, hunwound⟩
    · obtain ⟨result, h⟩ := hended htold hover
      exact h.finalizations_eq hcommit hrollback hprepared
    · exact hunwound.finalizations_eq_iff.mpr (hunwound.sectionReturned trivial hprepared)

end Run

/-- A task that fails returns: once its error is made text, what was prepared is rolled back, and
the rollback action has been invoked although it panics. -/
theorem finalized_iff_of_reach_rollback :
    ∃ t : State ℕ ℕ String × List (ℕ × Event ℕ ℕ String),
      t.1.invocations = [.unwound] ∧ finalizations (story 0 t.2) = 1 := by
  obtain ⟨t, ht, h⟩ := Machine.exists_reachVia_of_exec
    (M := (machine hooked 10 : Machine (State ℕ ℕ String) _).observe watch)
    (fun t a => a.Unhindered t.1) (fun t a => decide (a.Unhindered t.1))
    (fun _ _ => of_decide_eq_true)
    (s := (⟨⟨10, none, true, false⟩, [], []⟩, [])) ⟨⟨rfl, rfl, rfl, rfl, rfl⟩, rfl⟩
    [.invoke, .move 0 (.test (.returned true)), .move 0 (.prepare (.returned (.ok ()))),
      .move 0 .lock, .move 0 (.retest (.returned true)),
      .move 0 (.task (.plain (.returned (.error "no")))), .move 0 .release,
      .move 0 (.format (.returned ())), .move 0 (.rollback .panicked)]
    (fun t => decide (t.1.invocations = [.unwound]) && (story 0 t.2).any Event.isPrepared)
    (by decide)
  obtain ⟨hleft, hprepared⟩ := Bool.and_eq_true_iff.mp h
  have hinvocations := of_decide_eq_true hleft
  refine ⟨t, hinvocations, ?_⟩
  exact (finalized_iff_of_reach rfl rfl).2 t ht 0 .unwound (by rw [hinvocations]; rfl) rfl
    (mem_of_any_isPrepared hprepared)

/-- **A panic of the task leaves the prepared undone**: the invocation has prepared, the task
panics, and neither the commit nor the rollback action is invoked. -/
theorem exists_reach_not_finalized :
    ∃ t : State ℕ ℕ String × List (ℕ × Event ℕ ℕ String),
      ((machine hooked 10).observe watch).Reach t ∧ t.1.invocations = [.unwound] ∧
        .prepared (.returned (.ok ())) ∈ story 0 t.2 ∧ finalizations (story 0 t.2) = 0 := by
  obtain ⟨t, ht, h⟩ := Machine.exists_reachVia_of_exec
    (M := (machine hooked 10 : Machine (State ℕ ℕ String) _).observe watch)
    (fun _ _ => True) (fun _ _ => true) (fun _ _ _ => trivial)
    (s := (⟨⟨10, none, true, false⟩, [], []⟩, [])) ⟨⟨rfl, rfl, rfl, rfl, rfl⟩, rfl⟩
    [.invoke, .move 0 (.test (.returned true)), .move 0 (.prepare (.returned (.ok ()))),
      .move 0 .lock, .move 0 (.retest (.returned true)), .move 0 (.task (.plain .panicked))]
    (fun t => decide (t.1.invocations = [.unwound] ∧ finalizations (story 0 t.2) = 0) &&
      (story 0 t.2).any Event.isPrepared) (by decide)
  obtain ⟨hend, hprepared⟩ := Bool.and_eq_true_iff.mp h
  obtain ⟨hinvocations, hnone⟩ := of_decide_eq_true hend
  exact ⟨t, ht, hinvocations, mem_of_any_isPrepared hprepared, hnone⟩

end DoubleChecked

end QubitConcurrent
