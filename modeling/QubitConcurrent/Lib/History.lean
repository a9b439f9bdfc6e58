import QubitConcurrent.Lib.Machine
import Mathlib.Tactic.Common
import Mathlib.Algebra.Order.Ring.Nat

/-!
# What a run has seen, and what is still to come

Two things a reachable state does not tell by itself.

* **Later states.** That something *stays* true is a statement about two moments of one
  run. `QubitConcurrent.Machine.Later` relates a state to those the run can still reach from
  it, and what every step keeps is kept from the one to the other
  (`QubitConcurrent.Machine.Later.invariant`).
* **Observers.** That something happened in a certain *order* is a statement about a run and
  not about the state it ends in. An observer stands beside the machine and writes down what
  it sees of every step (`QubitConcurrent.Machine.observe`); it changes nothing, and every
  run has one (`QubitConcurrent.Machine.exists_observe`).

The last section is about chains of effects along which some quantity never falls. If the
quantity is at the end what it was at the beginning, every single effect has kept it
(`QubitConcurrent.Machine.chain_of_measure`): so one learns from the ends of a step which
effects it was not made of.
-/

namespace QubitConcurrent

namespace Machine

variable {σ α β : Type} (M : Machine σ α)

/-! ### Later states -/

/-- The states a run that has come to the one may still come to. -/
def Later : σ → σ → Prop := Relation.ReflTransGen fun s s' => ∃ a, M.step s a = some s'

variable {M}

/-- A step leads to a later state. -/
theorem Later.single {s s' : σ} {a : α} (h : M.step s a = some s') : M.Later s s' :=
  Relation.ReflTransGen.single ⟨a, h⟩

/-- What comes later than a reachable state is reachable. -/
theorem Later.reach {s s' : σ} (h : M.Later s s') (hs : M.Reach s) : M.Reach s' := by
  induction h with
  | refl => exact hs
  | tail _ hstep ih =>
    obtain ⟨a, ha⟩ := hstep
    exact .next ih trivial ha

/-- **The rule for what stays true**: what every step from a reachable state keeps, once it
holds, holds in every later state. -/
theorem Later.invariant {I : σ → Prop} {s s' : σ} (h : M.Later s s') (hs : M.Reach s)
    (hstep : ∀ t a t', M.Reach t → I t → M.step t a = some t' → I t') (hI : I s) : I s' := by
  induction h with
  | refl => exact hI
  | tail hlater hlast ih =>
    obtain ⟨a, ha⟩ := hlast
    exact hstep _ a _ (Later.reach hlater hs) ih ha

/-- **Simulation, for what comes later**: where a map sends every step from a reachable state
to a step of another machine, or to none at all, it sends later states to later states. -/
theorem Later.simulate {τ γ : Type} {N : Machine τ γ} (f : σ → τ)
    (hstep : ∀ s a s', M.Reach s → M.step s a = some s' →
      f s' = f s ∨ ∃ b, N.step (f s) b = some (f s'))
    {s s' : σ} (h : M.Later s s') (hs : M.Reach s) : N.Later (f s) (f s') := by
  induction h with
  | refl => exact .refl
  | @tail t t' hlater hlast ih =>
    obtain ⟨a, ha⟩ := hlast
    rcases hstep _ a _ (Later.reach hlater hs) ha with heq | ⟨b, hb⟩
    · rw [heq]
      exact ih
    · exact ih.tail ⟨b, hb⟩

/-! ### Observers -/

variable (M)

/-- The machine with an observer beside it, who writes down what it sees of every step. -/
def observe (see : σ → α → σ → List β) : Machine (σ × List β) α where
  init t := M.init t.1 ∧ t.2 = []
  step t a := (M.step t.1 a).map fun s' => (s', t.2 ++ see t.1 a s')

variable {M} {see : σ → α → σ → List β}

/-- A step under observation is a step, and what was seen of it is written down. -/
theorem observe_step {t t' : σ × List β} {a : α} (h : (M.observe see).step t a = some t') :
    M.step t.1 a = some t'.1 ∧ t'.2 = t.2 ++ see t.1 a t'.1 := by
  obtain ⟨s', hs', rfl⟩ := Option.map_eq_some_iff.mp h
  exact ⟨hs', rfl⟩

/-- What comes later under observation comes later, and nothing that was written down is
lost. -/
theorem observe_later {t u : σ × List β} (h : (M.observe see).Later t u) :
    M.Later t.1 u.1 ∧ t.2 <+: u.2 := by
  induction h with
  | refl => exact ⟨.refl, List.prefix_rfl⟩
  | tail _ hlast ih =>
    obtain ⟨a, ha⟩ := hlast
    obtain ⟨hstep, hlog⟩ := observe_step ha
    exact ⟨ih.1.tail ⟨a, hstep⟩, ih.2.trans (hlog ▸ List.prefix_append ..)⟩

/-- **The invariant rule, with an observer**: what holds of an initial state and nothing
seen, and of what a step leads to and what was seen with it, holds of every state reached and
what was seen on the way. -/
theorem observe_invariant {p : σ → α → Prop} {I : σ → List β → Prop}
    (hinit : ∀ s, M.init s → I s [])
    (hstep : ∀ s a s' log, M.ReachVia p s → I s log → p s a → M.step s a = some s' →
      I s' (log ++ see s a s'))
    {t : σ × List β} (ht : (M.observe see).ReachVia (fun t a => p t.1 a) t) :
    M.ReachVia p t.1 ∧ I t.1 t.2 := by
  induction ht with
  | start h => exact ⟨.start h.1, h.2 ▸ hinit _ h.1⟩
  | next _ ha hst ih =>
    obtain ⟨hs', hlog⟩ := observe_step hst
    exact ⟨.next ih.1 ha hs', hlog ▸ hstep _ _ _ _ ih.1 ih.2 ha hs'⟩

/-- A run under observation is a run. -/
theorem observe_reach {t : σ × List β} (ht : (M.observe see).Reach t) : M.Reach t.1 :=
  (observe_invariant (p := fun _ _ => True) (I := fun _ _ => True) (fun _ _ => trivial)
    (fun _ _ _ _ _ _ _ _ => trivial) ht).1

/-- Every run can be observed. -/
theorem exists_observe (see : σ → α → σ → List β) {p : σ → α → Prop} {s : σ}
    (hs : M.ReachVia p s) : ∃ log, (M.observe see).ReachVia (fun t a => p t.1 a) (s, log) := by
  induction hs with
  | start h => exact ⟨[], .start ⟨h, rfl⟩⟩
  | next _ ha hst ih =>
    obtain ⟨log, hlog⟩ := ih
    exact ⟨_, .next hlog ha (Option.map_eq_some_iff.mpr ⟨_, hst, rfl⟩)⟩

/-! ### What can be brought about -/

/-- **The rule for what can be brought about**: where every state of a kind is a goal, or some
step from it leads to one of the kind with less to do, a goal of the kind comes later. -/
theorem exists_later_of_measure {I G : σ → Prop} {f : σ → ℕ}
    (hstep : ∀ s, I s → G s ∨ ∃ a s', M.step s a = some s' ∧ I s' ∧ f s' < f s) {s : σ}
    (hs : I s) : ∃ t, M.Later s t ∧ I t ∧ G t := by
  induction hn : f s using Nat.strong_induction_on generalizing s with
  | _ n ih =>
    rcases hstep s hs with hgoal | ⟨a, s', ha, hs', hlt⟩
    · exact ⟨s, .refl, hs, hgoal⟩
    · obtain ⟨t, hlater, ht, hgoal⟩ := ih (f s') (hn ▸ hlt) hs' rfl
      exact ⟨t, .trans (Later.single ha) hlater, ht, hgoal⟩

/-- Actions after others are taken from where those have led. -/
theorem exec_append {okb : σ → α → Bool} :
    ∀ (as bs : List α) (s : σ), M.exec okb s (as ++ bs) = (M.exec okb s as).bind fun t =>
      M.exec okb t bs
  | [], bs, s => rfl
  | a :: as, bs, s => by
    rw [List.cons_append, exec, exec]
    split_ifs
    · rw [Option.bind_assoc]
      exact congrArg _ (funext fun t => exec_append as bs t)
    · rfl

/-- **The potential rule**: a quantity that every step of one kind lowers by one, that every step
of another kind raises by no more than a bound, and that no other step raises, bounds how many
steps of the first kind a run takes. -/
theorem exec_potential {ok : σ → α → Bool} (I : σ → Prop) (f : σ → ℕ) (spends pays : α → Bool)
    (b : ℕ) (hI : ∀ s a s', I s → ok s a = true → M.step s a = some s' → I s')
    (hf : ∀ s a s', I s → ok s a = true → M.step s a = some s' →
      f s' + (spends a).toNat ≤ f s + b * (pays a).toNat) :
    ∀ (as : List α) {s t : σ}, I s → M.exec ok s as = some t →
      I t ∧ as.countP spends + f t ≤ f s + b * as.countP pays
  | [], s, t, hs, h => by
    obtain rfl := Option.some.inj h
    exact ⟨hs, by simp⟩
  | a :: as, s, t, hs, h => by
    rw [exec] at h
    split_ifs at h with ha
    obtain ⟨u, hu, hrest⟩ := Option.bind_eq_some_iff.mp h
    obtain ⟨ht, hle⟩ := exec_potential I f spends pays b hI hf as (hI s a u hs ha hu) hrest
    have hstep := hf s a u hs ha hu
    refine ⟨ht, ?_⟩
    rw [List.countP_cons, List.countP_cons]
    cases hspends : spends a <;> cases hpays : pays a <;>
      simp only [hspends, hpays, Bool.toNat_true, Bool.toNat_false, if_true, if_false,
        Bool.false_eq_true, Nat.mul_add, Nat.mul_one, Nat.mul_zero] at hstep ⊢ <;> omega

/-! ### What a run has left out -/

/-- **The counting rule**: where every action of a kind is counted, and nothing else is, the
count is zero exactly in the states reached by runs without such actions. -/
theorem reachVia_iff_of_count {f : σ → ℕ} {counts : α → Bool} (hinit : ∀ s, M.init s → f s = 0)
    (hstep : ∀ s a s', M.step s a = some s' → f s' = f s + (counts a).toNat) {s : σ}
    (hs : M.Reach s) : f s = 0 ↔ M.ReachVia (fun _ a => counts a = false) s := by
  constructor
  · -- the count only grows, so it was zero on the way as well
    intro hzero
    induction hs with
    | start h => exact .start h
    | @next s a s' _ _ ha ih =>
      have hcount := hstep s a s' ha
      cases hcounts : counts a with
      | true =>
        rw [hcounts, Bool.toNat_true] at hcount
        omega
      | false => exact .next (ih (by omega)) hcounts ha
  · intro hvia
    refine hvia.invariant (I := fun s => f s = 0) hinit fun s a s' _ hzero ha hs' => ?_
    rw [hstep s a s' hs', hzero, ha]
    rfl

/-! ### Chains along which a quantity never falls -/

/-- A quantity no effect lowers is not lowered by a chain of them. -/
theorem measure_le_of_chain {E : σ → σ → Prop} {f : σ → ℕ} (hle : ∀ s s', E s s' → f s ≤ f s')
    {s s' : σ} (h : Relation.ReflTransGen E s s') : f s ≤ f s' := by
  induction h with
  | refl => exact le_rfl
  | tail _ hlast ih => exact ih.trans (hle _ _ hlast)

/-- **A quantity no effect lowers, and that is the same at both ends of a chain, is kept by
every effect of the chain.** -/
theorem chain_of_measure {E : σ → σ → Prop} {f : σ → ℕ} (hle : ∀ s s', E s s' → f s ≤ f s')
    {s s' : σ} (h : Relation.ReflTransGen E s s') (heq : f s' = f s) :
    Relation.ReflTransGen (fun t t' => E t t' ∧ f t' = f t) s s' := by
  induction h with
  | refl => exact .refl
  | @tail t t' hchain hlast ih =>
    have hfirst := measure_le_of_chain hle hchain
    have hsecond := hle _ _ hlast
    exact (ih (by omega)).tail ⟨hlast, by omega⟩

end Machine

end QubitConcurrent
