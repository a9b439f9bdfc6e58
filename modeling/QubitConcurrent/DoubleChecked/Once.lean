import QubitConcurrent.DoubleChecked.Lifecycle

/-!
# Double-checked locking runs the guarded action once

What the executor is for: the tester reads a flag, the task is what the flag asks for, and it
turns the flag off. The flag is shared, and read by the first checks at any time; it is
written by the tasks only, inside the critical section, and as they like, but it is off when
they return.

Every caller may pass the first check before any of them has the lock. The second check is
what counts: nobody else is inside the critical section then, so the flag is what the last
task has left, or what it was at the beginning
(`QubitConcurrent.DoubleChecked.Once`).
-/

namespace QubitConcurrent

namespace DoubleChecked

variable {T R E : Type}

/-! ### The flag -/

/-- The executor with a flag beside it. -/
structure Flagged (T R E : Type) where
  /-- The executor. -/
  state : State T R E
  /-- The flag. -/
  flag : Bool

/-- The steps of a run with a flag. -/
inductive FlagAction (T R E : Type)
  /-- A step of the executor. -/
  | act (a : Action T R E)
  /-- The task of an invocation sets the flag. -/
  | set (k : ℕ) (on : Bool)

/-- The tester reads the flag, and a task returns with the flag off. -/
def Flagged.allows (s : Flagged T R E) : Action T R E → Bool
  | .move _ (.test (.returned answer)) | .move _ (.retest (.returned answer)) => answer == s.flag
  | .move _ (.task _) => !s.flag
  | _ => true

/-- Whether an invocation is about to run its task, or in it. -/
def Phase.isRunning : Phase R E → Bool
  | running _ => true
  | _ => false

section Machine

variable [ToString E] (x : Executor)

/-- One step. -/
def flagStep (s : Flagged T R E) : FlagAction T R E → Option (Flagged T R E)
  | .act a => if s.allows a then (step x s.state a).map fun state => ⟨state, s.flag⟩ else none
  | .set k on =>
    if (s.state.invocations[k]?).any Phase.isRunning then some { s with flag := on } else none

/-- The executor, and a flag that is on or off at first. -/
def flagMachine (first : T) (on : Bool) : Machine (Flagged T R E) (FlagAction T R E) where
  init s := (machine x first).init s.state ∧ s.flag = on
  step := flagStep x

end Machine

/-- The steps at which no callback panics. -/
def FlagAction.Returns (s : Flagged T R E) : FlagAction T R E → Prop
  | .act a => a.Returns s.state
  | .set _ _ => True

instance (s : Flagged T R E) : DecidablePred (FlagAction.Returns s)
  | .act a => inferInstanceAs (Decidable (a.Returns s.state))
  | .set _ _ => isTrue trivial

/-- The observer does not see the flag. -/
def watchFlag (s : Flagged T R E) (a : FlagAction T R E) (s' : Flagged T R E) :
    List (ℕ × Event T R E) :=
  match a with
  | .act a => watch s.state a s'.state
  | .set _ _ => []

/-! ### What the flag tells -/

/-- Whether a check was false. -/
def Event.isRefusal : Event T R E → Bool
  | tested (.returned false) | retested (.returned false) => true
  | _ => false

/-- Somebody is about to run its task, or in it. -/
def Flagged.Busy (s : Flagged T R E) : Prop :=
  ∃ k : ℕ, (s.state.invocations[k]?).any Phase.isRunning = true

/-- An event is written into the one story or into another one. -/
theorem mem_story_append {log : List (ℕ × Event T R E)} {j k : ℕ} {e e' : Event T R E}
    (h : e' ∈ story j (log ++ [(k, e)])) : e' ∈ story j log ∨ e' = e := by
  rcases eq_or_ne k j with rfl | hne
  · rw [story_append_self, List.mem_append, List.mem_singleton] at h
    exact h
  · rw [story_append_ne _ _ _ hne] at h
    exact Or.inl h

/-- Neither finalization nor the prepare action is the task. -/
theorem isRunning_of_not_isCritical {phase : Phase R E} (h : phase.isCritical = false) :
    phase.isRunning = false := by
  cases phase <;> first | rfl | cases h

section Once

variable [ToString E] {x : Executor} {first : T} {on : Bool}

/-- **The flag is what it was, or off.** -/
structure Once (x : Executor) (first : T) (on : Bool) (s : Flagged T R E)
    (log : List (ℕ × Event T R E)) : Prop where
  /-- The stories, and the lock. -/
  narrated : Narrated x first s.state log
  /-- Before the first task the flag is as it was, and no check was false if it was on. -/
  fresh : runners log = [] → ¬s.Busy → s.flag = on ∧
    (on = true → ∀ k, ∀ e ∈ story k log, e.isRefusal = false)
  /-- After the first task it is off, and no other task begins. -/
  spent : runners log ≠ [] → s.flag = false ∧ ¬s.Busy
  /-- No second task has run. -/
  at_most : (runners log).length ≤ 1

/-- Where a task is about to run, or in it, none has run. -/
theorem Once.runners_of_busy {s : Flagged T R E} {log : List (ℕ × Event T R E)}
    (h : Once x first on s log) (hbusy : s.Busy) : runners log = [] := by
  by_contra hne
  exact (h.spent hne).2 hbusy

/-- A move by which no task begins or ends. A check is false only where the flag is off. -/
theorem Once.aside {s : Flagged T R E} {log : List (ℕ × Event T R E)} {k : ℕ}
    {phase phase' : Phase R E} {lock : LockCell T} {lines : List Line} {e : Event T R E}
    (h : Once x first on s log) (hk : s.state.invocations[k]? = some phase)
    (hphase : phase'.isRunning = phase.isRunning) (hran : e.isRan = false)
    (hrefusal : e.isRefusal = true → s.flag = false)
    (hnarrated : Narrated x first ⟨lock, s.state.invocations.set k phase', lines⟩
      (log ++ [(k, e)])) :
    Once x first on ⟨⟨lock, s.state.invocations.set k phase', lines⟩, s.flag⟩
      (log ++ [(k, e)]) := by
  have hrunners : runners (log ++ [(k, e)]) = runners log := by
    rw [runners_append, hran, if_neg Bool.false_ne_true, List.append_nil]
  have hbusy : Flagged.Busy ⟨⟨lock, s.state.invocations.set k phase', lines⟩, s.flag⟩ ↔
      s.Busy := by
    unfold Flagged.Busy
    exact exists_congr fun j =>
      iff_of_eq (congrArg (· = true) (congrFun (any_getElem?_set_same hk hphase) j))
  refine ⟨hnarrated, fun hnone hidle => ?_, fun hsome => ?_, hrunners ▸ h.at_most⟩
  · obtain ⟨hflag, hchecks⟩ := h.fresh (hrunners ▸ hnone) fun hb => hidle (hbusy.mpr hb)
    refine ⟨hflag, fun hon j e' he' => ?_⟩
    rcases mem_story_append he' with hold | rfl
    · exact hchecks hon j e' hold
    · refine Bool.eq_false_iff.mpr fun hno => ?_
      have hoff := hrefusal hno
      rw [hflag, hon] at hoff
      cases hoff
  · obtain ⟨hflag, hidle⟩ := h.spent (hrunners ▸ hsome)
    exact ⟨hflag, fun hb => hidle (hbusy.mp hb)⟩

/-- The second check is true: the flag was on, so no task has run yet. -/
theorem Once.begins {s : Flagged T R E} {log : List (ℕ × Event T R E)} {k : ℕ} {completed : Bool}
    {phase : Phase R E} {lock : LockCell T} {lines : List Line} {e : Event T R E}
    (h : Once x first on s log) (hk : s.state.invocations[k]? = some phase) (hon : s.flag = true)
    (hran : e.isRan = false)
    (hnarrated : Narrated x first ⟨lock, s.state.invocations.set k (.running completed), lines⟩
      (log ++ [(k, e)])) :
    Once x first on ⟨⟨lock, s.state.invocations.set k (.running completed), lines⟩, s.flag⟩
      (log ++ [(k, e)]) := by
  have hnone : runners (log ++ [(k, e)]) = [] := by
    rw [runners_append, hran, if_neg Bool.false_ne_true, List.append_nil]
    by_contra hne
    rw [(h.spent hne).1] at hon
    cases hon
  refine ⟨hnarrated, fun _ hidle => ?_, fun hsome => absurd hnone hsome, by simp [hnone]⟩
  refine absurd ⟨k, ?_⟩ hidle
  rw [getElem?_set_of_some hk, Option.any_some]
  rfl

/-- The task returns: it was the first one, and the flag is off. -/
theorem Once.ends {s : Flagged T R E} {log : List (ℕ × Event T R E)} {k : ℕ}
    {phase phase' : Phase R E} {lock : LockCell T} {lines : List Line} {e : Event T R E}
    (h : Once x first on s log) (hk : s.state.invocations[k]? = some phase)
    (hphase : phase.isRunning = true) (hphase' : phase'.isRunning = false)
    (hran : e.isRan = true) (hoff : s.flag = false)
    (hnarrated : Narrated x first ⟨lock, s.state.invocations.set k phase', lines⟩
      (log ++ [(k, e)])) :
    Once x first on ⟨⟨lock, s.state.invocations.set k phase', lines⟩, s.flag⟩
      (log ++ [(k, e)]) := by
  have hrunners : runners (log ++ [(k, e)]) = [k] := by
    rw [runners_append, hran, if_pos rfl, h.runners_of_busy ⟨k, by rw [hk]; exact hphase⟩]
    rfl
  have hcritical : ∀ {j : ℕ} {p : Phase R E}, s.state.invocations[j]? = some p →
      p.isRunning = true → s.state.lock.holder = some j := by
    intro j p hj hp
    refine h.narrated.guarded.holds hj ?_
    cases p <;> first | rfl | cases hp
  refine ⟨hnarrated, fun hnone => absurd (hrunners ▸ hnone) (List.cons_ne_nil k []),
    fun _ => ⟨hoff, ?_⟩, by simp [hrunners]⟩
  rintro ⟨j, hj⟩
  rcases eq_or_ne k j with rfl | hne
  · rw [getElem?_set_of_some hk, Option.any_some, hphase'] at hj
    cases hj
  · rw [List.getElem?_set_ne hne] at hj
    cases hp : s.state.invocations[j]? with
    | none =>
      rw [hp] at hj
      cases hj
    | some p =>
      rw [hp, Option.any_some] at hj
      exact hne (Option.some.inj ((hcritical hk hphase).symm.trans (hcritical hp hj)))

/-- A task of an invocation sets the flag. -/
theorem Once.set {s : Flagged T R E} {log : List (ℕ × Event T R E)} {k : ℕ} {flag : Bool}
    (h : Once x first on s log)
    (hk : (s.state.invocations[k]?).any Phase.isRunning = true) :
    Once x first on { s with flag } log :=
  ⟨h.narrated, fun _ hidle => absurd ⟨k, hk⟩ hidle,
    fun hsome => absurd (h.runners_of_busy ⟨k, hk⟩) hsome, h.at_most⟩

/-- An invocation begins. -/
theorem Once.invoke {s : Flagged T R E} {log : List (ℕ × Event T R E)}
    (h : Once x first on s log)
    (hnarrated : Narrated x first
      { s.state with invocations := s.state.invocations ++ [.testing] } log) :
    Once x first on
      ⟨{ s.state with invocations := s.state.invocations ++ [.testing] }, s.flag⟩ log := by
  have hbusy : Flagged.Busy
      ⟨{ s.state with invocations := s.state.invocations ++ [.testing] }, s.flag⟩ ↔ s.Busy := by
    unfold Flagged.Busy
    exact exists_congr fun j =>
      iff_of_eq (congrArg (· = true) (congrFun (any_getElem?_append rfl) j))
  exact ⟨hnarrated, fun hnone hidle => h.fresh hnone fun hb => hidle (hbusy.mpr hb),
    fun hsome => ⟨(h.spent hsome).1, fun hb => (h.spent hsome).2 (hbusy.mp hb)⟩, h.at_most⟩

/-- **What the flag tells is kept by every step.** -/
theorem Once.step {s s' : Flagged T R E} {a : FlagAction T R E} {log : List (ℕ × Event T R E)}
    (h : Once x first on s log) (hreturns : a.Returns s) (hstep : flagStep x s a = some s') :
    Once x first on s' (log ++ watchFlag s a s') := by
  cases a with
  | set k flag =>
    rw [flagStep] at hstep
    split_ifs at hstep with hk
    cases hstep
    rw [watchFlag, List.append_nil]
    exact h.set hk
  | act a =>
    rw [flagStep] at hstep
    split_ifs at hstep with hallowed
    obtain ⟨state, hstate, rfl⟩ := Option.map_eq_some_iff.mp hstep
    have hnarrated := h.narrated.step hreturns hstate
    rcases step_cases hstate with
      ⟨rfl, rfl⟩ | ⟨k, m, phase, lock, phase', lines, rfl, hk, hturn, rfl⟩
    · rw [watchFlag, watch, List.append_nil]
      rw [watch, List.append_nil] at hnarrated
      exact h.invoke hnarrated
    · rw [watchFlag, watch]
      rw [watch] at hnarrated
      cases hturn with
      | test =>
        exact h.aside hk (isRunning_of_not_isCritical (isCritical_runPrepareAction x)) rfl
          (fun hno => absurd hno Bool.false_ne_true) hnarrated
      | testUnmet => exact h.aside hk rfl rfl (fun _ => (beq_iff_eq.mp hallowed).symm) hnarrated
      | retest completed =>
        exact h.begins hk (beq_iff_eq.mp hallowed).symm rfl hnarrated
      | retestUnmet completed =>
        exact h.aside hk rfl rfl (fun _ => (beq_iff_eq.mp hallowed).symm) hnarrated
      | task completed t data outcome hrun =>
        exact h.ends hk rfl rfl rfl (by simpa [Flagged.allows] using hallowed) hnarrated
      | release completed result =>
        exact h.aside hk
          (isRunning_of_not_isCritical (isCritical_finalizePrepare x completed result)) rfl
          (fun hno => absurd hno Bool.false_ne_true) hnarrated
      | format err =>
        exact h.aside hk (isRunning_of_not_isCritical (isCritical_rollBack x _ _)) rfl
          (fun hno => absurd hno Bool.false_ne_true) hnarrated
      | prepare | prepareFails | lock | lockPoisoned | commit | commitFails | rollback
      | rollbackFails =>
        exact h.aside hk rfl rfl (fun hno => absurd hno Bool.false_ne_true) hnarrated
      | taskPanics completed t data hrun =>
        have hpanics : (t.run s.state.lock.value).2.returns = true := hreturns
        rw [hrun] at hpanics
        exact absurd hpanics Bool.false_ne_true
      | retestPanics | testPanics | preparePanics | commitPanics | formatPanics
      | rollbackPanics =>
        exact absurd hreturns Bool.false_ne_true

/-- What the flag tells, in every run. -/
theorem once_of_reach {t : Flagged T R E × List (ℕ × Event T R E)}
    (ht : ((flagMachine x first on).observe watchFlag).ReachVia (fun t a => a.Returns t.1) t) :
    Once x first on t.1 t.2 := by
  have hinit : ∀ s : Flagged T R E, (flagMachine x first on).init s → Once x first on s [] := by
    rintro s ⟨hs, rfl⟩
    refine ⟨.init hs, fun _ _ => ⟨rfl, ?_⟩, fun hsome => absurd rfl hsome, Nat.zero_le _⟩
    rintro _ k e he
    cases he
  have hstep : ∀ (s : Flagged T R E) a s' log,
      (flagMachine x first on).ReachVia (fun s a => a.Returns s) s → Once x first on s log →
      a.Returns s → flagStep x s a = some s' → Once x first on s' (log ++ watchFlag s a s') :=
    fun s a s' log _ h hreturns hstep => h.step hreturns hstep
  exact (Machine.observe_invariant hinit hstep ht).2

/-! ### The guarded action runs once -/

/-- An invocation that has returned without running its task: what it returned, and how it
finalized. -/
structure Refused (x : Executor) (result : ExecutionResult R E) (es : List (Event T R E)) :
    Prop where
  /-- It returned `ConditionNotMet`, or the failure of a hook of its own. -/
  result : result = .conditionNotMet ∨
    (∃ err, result = .prepareFailed err ∧ .prepared (.returned (.error err)) ∈ es) ∨
    ∃ err, result = .prepareRollbackFailed "Condition not met" err ∧
      .rolledBack (.returned (.error err)) ∈ es
  /-- It never committed, -/
  commit : es.countP Event.isCommit = 0
  /-- and what it had prepared it rolled back once, where that is configured. -/
  rollback : .prepared (.returned (.ok ())) ∈ es →
    es.countP Event.isRollback = if x.rollbackPrepareAction then 1 else 0

/-- **Double-checked locking.** -/
structure RunOnce (x : Executor) (on : Bool) (s : Flagged T R E)
    (log : List (ℕ × Event T R E)) : Prop where
  /-- At most one task runs. -/
  at_most : (runners log).length ≤ 1
  /-- Exactly one has run when everybody has returned, and there was somebody, if the flag was
  on at first and no prepare action failed. -/
  exactly : on = true → s.state.invocations ≠ [] →
    (∀ phase ∈ s.state.invocations, ∃ result, phase = .returned result) →
    (∀ k err, .prepared (.returned (.error err)) ∉ story k log) → (runners log).length = 1
  /-- Everybody else was refused. -/
  others : ∀ k result, s.state.invocations[k]? = some (.returned result) → k ∉ runners log →
    Refused x result (story k log)

/-- Who has not run the task was refused. -/
theorem Ended.refused {result : ExecutionResult R E} {es : List (Event T R E)}
    (h : Ended x result es) (hran : ∀ e ∈ es, e.isRan = false) : Refused x result es := by
  have hunmet : ∀ body : Body T R E, (∀ e ∈ body.events, e.isRan = false) → body = .unmet := by
    rintro (- | ⟨t, outcome⟩) hbody
    · rfl
    · have hran := hbody (.ran t (.returned outcome)) (by simp [Body.events])
      exact absurd hran Bool.false_ne_true.symm
  cases h with
  | unmet => exact ⟨Or.inl rfl, by simp, by simp⟩
  | prepareFailed err hx => exact ⟨Or.inr (Or.inl ⟨err, rfl, by simp⟩), by simp, by simp⟩
  | unprepared body hx =>
    obtain rfl := hunmet body fun e he => hran e (by simp [he])
    exact ⟨Or.inl rfl, by simp [opening, Body.events], by simp [opening, Body.events]⟩
  | finalized body hooks result hx hhooks =>
    obtain rfl := hunmet body fun e he => hran e (by simp [he])
    cases hhooks with
    | bare h =>
      have hbare : x.rollbackPrepareAction = false := h
      exact ⟨Or.inl rfl, by simp [opening, Body.events], by simp [opening, Body.events, hbare]⟩
    | rolledBack h hrollback =>
      exact ⟨Or.inl rfl, by simp [opening, Body.events], by simp [opening, Body.events, hrollback]⟩
    | rollbackFailed err h hrollback =>
      exact ⟨Or.inr (Or.inr ⟨err, rfl, by simp⟩), by simp [opening, Body.events],
        by simp [opening, Body.events, hrollback]⟩
    | committed h | commitFailed err h => cases h

/-- Who has returned has run the task, or its prepare action failed, or a check was false. -/
theorem Ended.cause {result : ExecutionResult R E} {es : List (Event T R E)}
    (h : Ended x result es) :
    (∃ e ∈ es, e.isRan = true) ∨ (∃ err, .prepared (.returned (.error err)) ∈ es) ∨
      ∃ e ∈ es, e.isRefusal = true := by
  have hbody : ∀ body : Body T R E, (∃ e ∈ body.events, e.isRan = true) ∨
      ∃ e ∈ body.events, e.isRefusal = true := by
    rintro (- | ⟨t, outcome⟩)
    · exact Or.inr ⟨.retested (.returned false), by simp [Body.events], rfl⟩
    · exact Or.inl ⟨.ran t (.returned outcome), by simp [Body.events], rfl⟩
  cases h with
  | unmet => exact Or.inr (Or.inr ⟨_, List.mem_singleton_self _, rfl⟩)
  | prepareFailed err hx => exact Or.inr (Or.inl ⟨err, by simp⟩)
  | unprepared body hx =>
    rcases hbody body with ⟨e, he, hran⟩ | ⟨e, he, hno⟩
    · exact Or.inl ⟨e, by simp [he], hran⟩
    · exact Or.inr (Or.inr ⟨e, by simp [he], hno⟩)
  | finalized body hooks result hx hhooks =>
    rcases hbody body with ⟨e, he, hran⟩ | ⟨e, he, hno⟩
    · exact Or.inl ⟨e, by simp [he], hran⟩
    · exact Or.inr (Or.inr ⟨e, by simp [he], hno⟩)

/-- **Double-checked locking runs the guarded action once.** -/
theorem runOnce_of_reach {t : Flagged T R E × List (ℕ × Event T R E)}
    (ht : ((flagMachine x first on).observe watchFlag).ReachVia (fun t a => a.Returns t.1) t) :
    RunOnce x on t.1 t.2 := by
  have h := once_of_reach ht
  refine ⟨h.at_most, fun hon hsome hreturned hprepared => ?_, fun k result hk hrunner => ?_⟩
  · have hidle : ¬t.1.Busy := by
      rintro ⟨k, hk⟩
      cases hphase : t.1.state.invocations[k]? with
      | none =>
        rw [hphase] at hk
        cases hk
      | some phase =>
        obtain ⟨result, rfl⟩ := hreturned phase (List.mem_of_getElem? hphase)
        rw [hphase] at hk
        cases hk
    have hne : runners t.2 ≠ [] := by
      intro hnone
      obtain ⟨phase, rest, hlist⟩ := List.exists_cons_of_ne_nil hsome
      have h0 : t.1.state.invocations[0]? = some phase := by rw [hlist]; rfl
      obtain ⟨result, rfl⟩ := hreturned phase (List.mem_of_getElem? h0)
      rcases Ended.cause (h.narrated.told 0 _ h0) with hran | ⟨err, herr⟩ | ⟨e, he, hno⟩
      · have hmem := (mem_runners_iff _ _).mpr hran
        rw [hnone] at hmem
        cases hmem
      · exact hprepared 0 err herr
      · rw [(h.fresh hnone hidle).2 hon 0 e he] at hno
        cases hno
    have hpos := List.length_pos_iff.mpr hne
    have := h.at_most
    omega
  · refine Ended.refused (h.narrated.told k _ hk) fun e he => ?_
    by_contra hran
    exact hrunner ((mem_runners_iff _ _).mpr ⟨e, he, by simpa using hran⟩)

end Once

/-- Both callers pass the first check and prepare; the second one then finds the flag off. -/
theorem runOnce_of_reach_two :
    ∃ t : Flagged ℕ ℕ String × List (ℕ × Event ℕ ℕ String),
      t.1.state.invocations = [.returned .conditionNotMet, .returned (.success 1)] ∧
      RunOnce hooked true t.1 t.2 := by
  obtain ⟨t, ht, hresults⟩ := Machine.exists_reachVia_of_exec
    (M := (flagMachine hooked 0 true : Machine (Flagged ℕ ℕ String) _).observe watchFlag)
    (fun t a => a.Returns t.1) (fun t a => decide (a.Returns t.1)) (fun _ _ => of_decide_eq_true)
    (s := (⟨⟨⟨0, none, true, false⟩, [], []⟩, true⟩, [])) ⟨⟨⟨rfl, rfl, rfl, rfl, rfl⟩, rfl⟩, rfl⟩
    [.act .invoke, .act .invoke, .act (.move 0 (.test (.returned true))),
      .act (.move 1 (.test (.returned true))), .act (.move 0 (.prepare (.returned (.ok ())))),
      .act (.move 1 (.prepare (.returned (.ok ())))), .act (.move 1 .lock),
      .act (.move 1 (.retest (.returned true))), .set 1 false,
      .act (.move 1 (.task (.withData fun n => (n + 1, .returned (.ok (n + 1)))))),
      .act (.move 1 .release), .act (.move 0 .lock), .act (.move 0 (.retest (.returned false))),
      .act (.move 0 .release), .act (.move 0 (.rollback (.returned (.ok ())))),
      .act (.move 1 (.commit (.returned (.ok ()))))]
    (fun t => decide (t.1.state.invocations =
      [.returned .conditionNotMet, .returned (.success 1)])) (by decide)
  exact ⟨t, of_decide_eq_true hresults, runOnce_of_reach ht⟩

end DoubleChecked

end QubitConcurrent
