import Mathlib.Logic.Relation

/-!
# Guarded machines and their runs

A concurrent component is a machine: a set of initial states and, for every
action some thread may take next, the state that action leads to – or `none`
where the action is not enabled. An interleaving is then nothing but a list of
actions, and a property of every interleaving is a property of every reachable
state.

Two things are said here once and used by every development on top.

* **Restricted runs.** A statement of the form “in every run whose steps all
  meet a condition” is about `QubitConcurrent.Machine.ReachVia`, the states
  reached by such runs. The condition may look at the state the step starts
  from.
* **Effects.** A step of a real program is a critical section that does several
  things at once. When it decomposes into a chain of smaller effects, an
  invariant only has to be checked on the effects
  (`QubitConcurrent.Machine.ReachVia.invariant_of_effects`).
-/

namespace QubitConcurrent

/-- A machine: its initial states, and what each action does to a state, if it
is enabled there. -/
structure Machine (σ α : Type) where
  /-- The states a run may start from. -/
  init : σ → Prop
  /-- The state an action leads to, `none` where it is not enabled. -/
  step : σ → α → Option σ

namespace Machine

variable {σ α : Type} (M : Machine σ α)

/-- The states reached by runs all of whose steps meet `ok`. -/
inductive ReachVia (ok : σ → α → Prop) : σ → Prop
  /-- A run may stop where it starts. -/
  | start {s : σ} : M.init s → ReachVia ok s
  /-- A run may be extended by one more step. -/
  | next {s : σ} {a : α} {s' : σ} :
      ReachVia ok s → ok s a → M.step s a = some s' → ReachVia ok s'

/-- The states reached by any run at all. -/
abbrev Reach : σ → Prop := M.ReachVia fun _ _ => True

/-- Take the actions one after the other, as long as each of them is enabled
and allowed by `ok`. -/
def exec (ok : σ → α → Bool) : σ → List α → Option σ
  | s, [] => some s
  | s, a :: as => if ok s a then (M.step s a).bind fun s' => exec ok s' as else none

variable {M} {ok ok' : σ → α → Prop}

/-- A weaker condition on the steps reaches at least as much. -/
theorem ReachVia.mono (h : ∀ s a, ok s a → ok' s a) {s : σ} (hs : M.ReachVia ok s) :
    M.ReachVia ok' s := by
  induction hs with
  | start hi => exact .start hi
  | next _ ha hstep ih => exact .next ih (h _ _ ha) hstep

/-- A state reached under a condition is reached. -/
theorem ReachVia.reach {s : σ} (hs : M.ReachVia ok s) : M.Reach s :=
  hs.mono fun _ _ _ => trivial

/-- **The invariant rule**: what holds initially and is kept by every allowed
step holds in every state reached. -/
theorem ReachVia.invariant {I : σ → Prop} (hinit : ∀ s, M.init s → I s)
    (hstep : ∀ s a s', M.ReachVia ok s → I s → ok s a → M.step s a = some s' → I s')
    {s : σ} (hs : M.ReachVia ok s) : I s := by
  induction hs with
  | start hi => exact hinit _ hi
  | next hr ha hst ih => exact hstep _ _ _ hr ih ha hst

/-- An invariant kept by every effect is kept by a chain of them. -/
theorem invariant_of_chain {E : σ → σ → Prop} {I : σ → Prop}
    (heff : ∀ s s', I s → E s s' → I s') {s s' : σ} (h : Relation.ReflTransGen E s s')
    (hs : I s) : I s' := by
  induction h with
  | refl => exact hs
  | tail _ hstep ih => exact heff _ _ ih hstep

/-- **The invariant rule, by effects**: if every allowed step is a chain of
effects, an invariant only has to be checked on the effects. -/
theorem ReachVia.invariant_of_effects {E : σ → σ → Prop} {I : σ → Prop}
    (hinit : ∀ s, M.init s → I s)
    (hchain : ∀ s a s', M.ReachVia ok s → I s → ok s a → M.step s a = some s' →
      Relation.ReflTransGen E s s')
    (heff : ∀ s s', I s → E s s' → I s') {s : σ} (hs : M.ReachVia ok s) : I s :=
  hs.invariant hinit fun _ _ _ hr hi ha hst =>
    invariant_of_chain heff (hchain _ _ _ hr hi ha hst) hi

/-- **Simulation.** When a map sends initial states to initial states and every
allowed step to one allowed step of another machine or to none at all, it sends
reached states to reached states. -/
theorem ReachVia.simulate {τ β : Type} {N : Machine τ β} {okN : τ → β → Prop} (f : σ → τ)
    (hinit : ∀ s, M.init s → N.init (f s))
    (hstep : ∀ s a s', M.ReachVia ok s → ok s a → M.step s a = some s' →
      f s' = f s ∨ ∃ b, okN (f s) b ∧ N.step (f s) b = some (f s'))
    {s : σ} (hs : M.ReachVia ok s) : N.ReachVia okN (f s) := by
  induction hs with
  | start hi => exact .start (hinit _ hi)
  | next hr ha hst ih =>
    rcases hstep _ _ _ hr ha hst with heq | ⟨b, hb, hstep'⟩
    · rw [heq]
      exact ih
    · exact .next ih hb hstep'

/-- A run carried out by `QubitConcurrent.Machine.exec` reaches its last
state. -/
theorem reachVia_of_exec {okb : σ → α → Bool} (hok : ∀ s a, okb s a = true → ok s a) :
    ∀ (as : List α) {s s' : σ}, M.ReachVia ok s → M.exec okb s as = some s' → M.ReachVia ok s'
  | [], s, s', hs, h => by
    rw [exec, Option.some.injEq] at h
    exact h ▸ hs
  | a :: as, s, s', hs, h => by
    rw [exec] at h
    by_cases ha : okb s a = true
    · rw [if_pos ha] at h
      obtain ⟨t, ht, hrest⟩ := Option.bind_eq_some_iff.mp h
      exact reachVia_of_exec hok as (.next hs (hok _ _ ha) ht) hrest
    · rw [if_neg ha] at h
      exact absurd h (by simp)

/-- A run carried out from an initial state reaches a state in which whatever can
be checked at its end holds. -/
theorem exists_reachVia_of_exec (ok : σ → α → Prop) (okb : σ → α → Bool)
    (hok : ∀ s a, okb s a = true → ok s a) {s : σ} (hs : M.init s) (as : List α)
    (p : σ → Bool) (h : (M.exec okb s as).any p = true) : ∃ t, M.ReachVia ok t ∧ p t = true := by
  cases hrun : M.exec okb s as with
  | none => simp [hrun] at h
  | some t =>
    rw [hrun, Option.any_some] at h
    exact ⟨t, reachVia_of_exec hok as (.start hs) hrun, h⟩

end Machine

end QubitConcurrent
