import QubitConcurrent.Lib.Lists

/-!
# The stories of threads

An observer writes down what happens in a run, and who did it. What is written of one thread is
its story. A property of a thread and its story, which may look at the shared state as well, is
kept along a run where the thread that moves keeps it together with what is written of the move,
and the others are not disturbed (`QubitConcurrent.Storied`).
-/

namespace QubitConcurrent

/-! ### What is written of one thread -/

section Story

variable {κ β : Type} [DecidableEq κ] (k : κ)

/-- What is written of one. -/
def story (log : List (κ × β)) : List β :=
  log.filterMap fun entry => if entry.1 = k then some entry.2 else none

@[simp] theorem story_append (log log' : List (κ × β)) :
    story k (log ++ log') = story k log ++ story k log' := List.filterMap_append ..

@[simp] theorem story_map_self (es : List β) : story k (es.map fun e => (k, e)) = es := by
  simp [story, List.filterMap_map]

variable {k}

theorem story_map_ne {j : κ} (h : j ≠ k) (es : List β) :
    story k (es.map fun e => (j, e)) = [] := by
  simp [story, List.filterMap_map, h]

end Story

/-! ### Properties of a story -/

section Each

variable {β : Type}

/-- Every event of a story, together with what comes before it, has a property. -/
def Each (p : List β → β → Prop) (es : List β) : Prop :=
  ∀ before e after, es = before ++ e :: after → p before e

variable {p : List β → β → Prop} {es es' : List β}

theorem Each.nil : Each p [] := fun before e after h =>
  absurd h.symm (List.append_ne_nil_of_right_ne_nil before (List.cons_ne_nil e after))

theorem Each.cons {e : β} (he : p [] e) (h : Each (fun before => p (e :: before)) es) :
    Each p (e :: es) := by
  intro before e' after heq
  cases before with
  | nil =>
    obtain ⟨rfl, -⟩ := List.cons.inj heq
    exact he
  | cons e₁ before =>
    obtain ⟨rfl, hrest⟩ := List.cons.inj heq
    exact h before e' after hrest

/-- Of a story that goes on, every event has the property if those of the first part have it,
and those of the second part have it behind the first part. -/
theorem Each.append (h : Each p es) (h' : Each (fun before => p (es ++ before)) es') :
    Each p (es ++ es') := by
  induction es generalizing p with
  | nil => exact h'
  | cons e es ih =>
    refine .cons (h [] e es rfl) (ih (fun before e' after heq => ?_) h')
    exact h (e :: before) e' after (congrArg (e :: ·) heq)

end Each

/-! ### Properties of threads and their stories -/

section Storied

variable {σ τ β : Type} {threads : σ → List τ} {P : σ → τ → List β → Prop} {s s' : σ}
  {log : List (Option ℕ × β)}

/-- Something that is true of every thread and its story. What is written of nobody in
particular is written of `none`. -/
structure Storied (threads : σ → List τ) (P : σ → τ → List β → Prop) (s : σ)
    (log : List (Option ℕ × β)) : Prop where
  /-- The stories. -/
  told : ∀ k t, (threads s)[k]? = some t → P s t (story (some k) log)
  /-- Who has not begun has no story. -/
  silent : ∀ k, (threads s)[k]? = none → story (some k) log = []

/-- Before the first thread there is nothing to tell. -/
theorem Storied.start (h : threads s = []) : Storied threads P s [] := by
  refine ⟨fun k t hk => ?_, fun _ _ => rfl⟩
  rw [h] at hk
  cases hk

/-- **A thread moves, and goes on with its story**, or changes beside it. -/
theorem Storied.moves (h : Storied threads P s log) {k : ℕ} {t t' : τ} (es' : List β)
    (hk : (threads s)[k]? = some t) (hthreads : threads s' = (threads s).set k t')
    (hmove : ∀ es, P s t es → P s' t' (es ++ es'))
    (hothers : ∀ (j : ℕ) u, j ≠ k → (threads s)[j]? = some u → ∀ es, P s u es → P s' u es) :
    Storied threads P s' (log ++ es'.map fun e => (some k, e)) := by
  refine ⟨fun j u hj => ?_, fun j hj => ?_⟩
  · rw [hthreads] at hj
    rcases getElem?_set_cases hk hj with ⟨rfl, rfl⟩ | ⟨hkj, hold⟩
    · rw [story_append, story_map_self]
      exact hmove _ (h.told j t hk)
    · rw [story_append, story_map_ne (by simpa using hkj), List.append_nil]
      exact hothers j u hkj.symm hold _ (h.told j u hold)
  · rw [hthreads, List.getElem?_eq_none_iff, List.length_set] at hj
    have hkj : k ≠ j := ((List.getElem?_eq_some_iff.mp hk).1.trans_le hj).ne
    rw [story_append, story_map_ne (by simpa using hkj), List.append_nil]
    exact h.silent j (List.getElem?_eq_none_iff.mpr hj)

/-- **A thread begins.** -/
theorem Storied.begins (h : Storied threads P s log) {t : τ}
    (hthreads : threads s' = threads s ++ [t]) (hnew : P s' t [])
    (hothers : ∀ (j : ℕ) u, (threads s)[j]? = some u → ∀ es, P s u es → P s' u es) :
    Storied threads P s' log := by
  refine ⟨fun j u hj => ?_, fun j hj => ?_⟩
  · rw [hthreads] at hj
    rcases getElem?_concat_cases hj with hold | ⟨rfl, rfl⟩
    · exact hothers j u hold _ (h.told j u hold)
    · rw [h.silent _ (List.getElem?_eq_none (Nat.le_refl _))]
      exact hnew
  · rw [hthreads, List.getElem?_eq_none_iff, List.length_append] at hj
    exact h.silent j (List.getElem?_eq_none_iff.mpr (Nat.le_of_add_right_le hj))

/-- **Something happens beside the threads.** -/
theorem Storied.beside (h : Storied threads P s log) (hthreads : threads s' = threads s)
    (es' : List β)
    (hothers : ∀ (j : ℕ) u, (threads s)[j]? = some u → ∀ es, P s u es → P s' u es) :
    Storied threads P s' (log ++ es'.map fun e => (none, e)) := by
  refine ⟨fun j u hj => ?_, fun j hj => ?_⟩
  · rw [story_append, story_map_ne (by simp), List.append_nil]
    exact hothers j u (hthreads ▸ hj) _ (h.told j u (hthreads ▸ hj))
  · rw [story_append, story_map_ne (by simp), List.append_nil]
    exact h.silent j (hthreads ▸ hj)

/-- **Several threads change beside their stories.** -/
theorem Storied.shifts (h : Storied threads P s log)
    (hlength : (threads s').length = (threads s).length)
    (hkept : ∀ (j : ℕ) u', (threads s')[j]? = some u' →
      ∃ u, (threads s)[j]? = some u ∧ ∀ es, P s u es → P s' u' es) :
    Storied threads P s' log := by
  refine ⟨fun j u' hj => ?_, fun j hj => ?_⟩
  · obtain ⟨u, hu, hstory⟩ := hkept j u' hj
    exact hstory _ (h.told j u hu)
  · rw [List.getElem?_eq_none_iff, hlength] at hj
    exact h.silent j (List.getElem?_eq_none_iff.mpr hj)

end Storied

end QubitConcurrent
