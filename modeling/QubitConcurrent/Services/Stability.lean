import QubitConcurrent.Lib.History
import QubitConcurrent.Services.Core

/-!
# What is said about the end of a service

`is_terminated` loads the flag and then the count, and whoever waits for termination does the
same; in between anything may happen. What they say is true all the same, and stays true,
because of what nobody does: nobody takes the flag back, and nobody raises the count once the
flag is set. So whoever has loaded the flag set, and later loads the count zero, has seen the
service terminated, and every later look finds it terminated again.

What a step may do to the common state is `QubitConcurrent.Services.Core.Advance`, and what
this file proves is proved of every machine whose steps do no more
(`QubitConcurrent.Services.Orderly`), with the task numbers its submissions return.
-/

namespace QubitConcurrent

namespace Services

/-! ### Those who look -/

/-- Who looks at the flag and at the count: whether they have loaded the flag set and are
going to load the count, and whether they have returned because they have found it zero. -/
class Looker (A : Type) [Waiter A] where
  /-- Has loaded the flag set. -/
  hasLoaded : A → Bool
  /-- Has returned. -/
  hasReturned : A → Bool
  /-- A notification does not make anybody load. -/
  hasLoaded_wake : ∀ a : A, hasLoaded (Waiter.wake a) = hasLoaded a
  /-- A notification does not make anybody return. -/
  hasReturned_wake : ∀ a : A, hasReturned (Waiter.wake a) = hasReturned a

namespace Await

/-- The future has loaded the flag set. -/
def hasLoaded : Await → Bool
  | loadActive => true
  | _ => false

/-- The future is ready. -/
def hasReturned : Await → Bool
  | returned => true
  | _ => false

instance : Looker Await where
  hasLoaded := hasLoaded
  hasReturned := hasReturned
  hasLoaded_wake a := by cases a <;> rfl
  hasReturned_wake a := by cases a <;> rfl

end Await

namespace Core

variable {A : Type} [Waiter A] [Looker A] {c c' c'' : Core A} {k : ℕ}

/-- Somebody has loaded the flag set. -/
def Loaded (c : Core A) : Prop :=
  .loadActive ∈ c.queries ∨ ∃ w ∈ c.waiters, Looker.hasLoaded w = true

/-- Somebody was told that the service is terminated. -/
def Reported (c : Core A) : Prop :=
  .answered true ∈ c.queries ∨ ∃ w ∈ c.waiters, Looker.hasReturned w = true

/-- **Nobody was told anything wrong.** -/
structure Honest (c : Core A) : Prop where
  /-- Whoever has loaded the flag set can rely on it. -/
  loaded : c.Loaded → c.shutdown = true
  /-- Whoever was told that the service is terminated can rely on it. -/
  reported : c.Reported → c.isTerminated = true

/-- **What a step may do to the common state.** -/
structure Advance (c c' : Core A) : Prop where
  /-- The flag is not taken back. -/
  shutdown : c.shutdown = true → c'.shutdown = true
  /-- Once the flag is set, the count does not rise. -/
  active : c.shutdown = true → c'.activeTasks ≤ c.activeTasks
  /-- Nobody has loaded the flag set unless it was. -/
  loaded : c'.Loaded → c.Loaded ∨ c.shutdown = true
  /-- Nobody is told that the service is terminated unless somebody has loaded the flag set,
  and the count is zero. -/
  reported : c'.Reported → c.Reported ∨ (c.Loaded ∧ c.activeTasks = 0)
  /-- No call of `is_terminated` answers `false` on a service that is terminated. -/
  denied : ∀ k : ℕ, c'.queries[k]? = some (.answered false) →
    c.queries[k]? = some (.answered false) ∨ c.isTerminated = false

omit [Waiter A] [Looker A] in
/-- A service is terminated if the flag is set and the count is zero. -/
theorem isTerminated_iff {c : Core A} :
    c.isTerminated = true ↔ c.shutdown = true ∧ c.activeTasks = 0 := by
  simp [isTerminated]

namespace Advance

/-- **Termination is not undone.** -/
theorem isTerminated (h : Advance c c') (hterm : c.isTerminated = true) :
    c'.isTerminated = true := by
  obtain ⟨hshutdown, hzero⟩ := isTerminated_iff.mp hterm
  have hle := h.active hshutdown
  exact isTerminated_iff.mpr ⟨h.shutdown hshutdown, by omega⟩

/-- **Nobody is told anything wrong.** -/
theorem honest (h : Advance c c') (hc : c.Honest) : c'.Honest where
  loaded hloaded := h.shutdown ((h.loaded hloaded).elim hc.loaded id)
  reported hreported := by
    refine h.isTerminated ((h.reported hreported).elim hc.reported fun hboth => ?_)
    exact isTerminated_iff.mpr ⟨hc.loaded hboth.1, hboth.2⟩

/-- Who was told anything was told it before, and the count is what it was. -/
theorem of_same (hshutdown : c.shutdown = true → c'.shutdown = true)
    (hactive : c.shutdown = true → c'.activeTasks ≤ c.activeTasks)
    (hqueries : c'.queries = c.queries)
    (hwaiters : ∀ w ∈ c'.waiters, ∃ v ∈ c.waiters,
      Looker.hasLoaded w = Looker.hasLoaded v ∧ Looker.hasReturned w = Looker.hasReturned v) :
    Advance c c' where
  shutdown := hshutdown
  active := hactive
  loaded hloaded := by
    refine Or.inl (hloaded.imp (hqueries ▸ id) ?_)
    rintro ⟨w, hw, htrue⟩
    obtain ⟨v, hv, hsame, -⟩ := hwaiters w hw
    exact ⟨v, hv, hsame ▸ htrue⟩
  reported hreported := by
    refine Or.inl (hreported.imp (hqueries ▸ id) ?_)
    rintro ⟨w, hw, htrue⟩
    obtain ⟨v, hv, -, hsame⟩ := hwaiters w hw
    exact ⟨v, hv, hsame ▸ htrue⟩
  denied k hk := Or.inl (hqueries ▸ hk)

/-- Nothing happens. -/
theorem refl (c : Core A) : Advance c c :=
  of_same id (fun _ => le_rfl) rfl fun w hw => ⟨w, hw, rfl, rfl⟩

/-- `notify_if_terminated` takes a step. -/
theorem announce (c : Core A) (a : Announce) : Advance c (c.announce a).2 := by
  cases a with
  | loadShutdown | loadActive => exact refl c
  | notify =>
    refine of_same id (fun _ => le_rfl) rfl fun w hw => ?_
    obtain ⟨v, hv, rfl⟩ := List.mem_map.mp hw
    exact ⟨v, hv, Looker.hasLoaded_wake v, Looker.hasReturned_wake v⟩

/-- A task leaves. -/
theorem leave (c : Core A) : Advance c c.leave.2 :=
  of_same id (fun _ => Nat.sub_le ..) rfl fun w hw => ⟨w, hw, rfl, rfl⟩

/-- A task enters while the flag is not set. -/
theorem enter (hopen : c.shutdown = false) : Advance c c.enter :=
  of_same id (fun h => absurd (hopen.symm.trans h) Bool.false_ne_true) rfl
    fun w hw => ⟨w, hw, rfl, rfl⟩

/-- The flag is set. -/
theorem close (c : Core A) : Advance c c.close :=
  of_same (fun _ => rfl) (fun _ => le_rfl) rfl fun w hw => ⟨w, hw, rfl, rfl⟩

/-- A new call of `is_terminated` has not loaded anything. -/
theorem query (c : Core A) : Advance c c.query where
  shutdown := id
  active _ := le_rfl
  loaded hloaded := Or.inl (hloaded.imp_left fun h => by simpa [Core.query] using h)
  reported hreported := Or.inl (hreported.imp_left fun h => by simpa [Core.query] using h)
  denied k hk := by
    refine Or.inl ?_
    rw [Core.query] at hk
    rcases getElem?_concat_cases hk with hold | ⟨-, hnew⟩
    · exact hold
    · cases hnew

/-- A call of `is_terminated` moves on. -/
theorem setQuery {q : Query} (hk : c.queries[k]? = some q) {q' : Query}
    (hloaded : q' = .loadActive → c.shutdown = true)
    (hanswered : q' = .answered true → q = .loadActive ∧ c.activeTasks = 0)
    (hdenied : q' = .answered false → c.isTerminated = false) :
    Advance c { c with queries := c.queries.set k q' } where
  shutdown := id
  active _ := le_rfl
  loaded h := by
    rcases h with hmem | hwaiter
    · rcases List.mem_or_eq_of_mem_set hmem with hold | hnew
      · exact Or.inl (Or.inl hold)
      · exact Or.inr (hloaded hnew.symm)
    · exact Or.inl (Or.inr hwaiter)
  reported h := by
    rcases h with hmem | hwaiter
    · rcases List.mem_or_eq_of_mem_set hmem with hold | hnew
      · exact Or.inl (Or.inl hold)
      · obtain ⟨rfl, hzero⟩ := hanswered hnew.symm
        exact Or.inr ⟨Or.inl (List.mem_of_getElem? hk), hzero⟩
    · exact Or.inl (Or.inr hwaiter)
  denied j hj := by
    rcases getElem?_set_cases hk hj with ⟨-, hnew⟩ | ⟨-, hold⟩
    · exact Or.inr (hdenied hnew.symm)
    · exact Or.inl hold

/-- `is_terminated` takes a step. -/
theorem queryNext (h : c.queryNext k = some c') : Advance c c' := by
  rw [Core.queryNext] at h
  split at h
  · next hk =>
    obtain rfl := Option.some.inj h
    split_ifs with hshutdown
    · exact setQuery hk (fun _ => hshutdown) (by simp) (by simp)
    · exact setQuery hk (by simp) (by simp) fun _ => by simp [Core.isTerminated, hshutdown]
  · next hk =>
    obtain rfl := Option.some.inj h
    refine setQuery hk (by simp) (by simp) fun hfalse => ?_
    simp [Core.isTerminated, Query.answered.inj hfalse]
  · exact absurd h (by simp)

/-- Somebody who waits moves on. -/
theorem setWaiter {w : A} (hk : c.waiters[k]? = some w) {w' : A}
    (hloaded : Looker.hasLoaded w' = true → c.shutdown = true)
    (hreturned : Looker.hasReturned w' = true → Looker.hasLoaded w = true ∧ c.activeTasks = 0) :
    Advance c (c.setWaiter k w') where
  shutdown := id
  active _ := le_rfl
  loaded h := by
    rcases h with hquery | ⟨v, hv, htrue⟩
    · exact Or.inl (Or.inl hquery)
    · rcases List.mem_or_eq_of_mem_set hv with hold | rfl
      · exact Or.inl (Or.inr ⟨v, hold, htrue⟩)
      · exact Or.inr (hloaded htrue)
  reported h := by
    rcases h with hquery | ⟨v, hv, htrue⟩
    · exact Or.inl (Or.inl hquery)
    · rcases List.mem_or_eq_of_mem_set hv with hold | rfl
      · exact Or.inl (Or.inr ⟨v, hold, htrue⟩)
      · obtain ⟨hbefore, hzero⟩ := hreturned htrue
        exact Or.inr ⟨Or.inr ⟨w, List.mem_of_getElem? hk, hbefore⟩, hzero⟩
  denied _ hk := Or.inl hk

/-- Somebody who waits and says nothing moves on. -/
theorem setWaiter_quiet {w : A} (hk : c.waiters[k]? = some w) {w' : A}
    (hloaded : Looker.hasLoaded w' = false) (hreturned : Looker.hasReturned w' = false) :
    Advance c (c.setWaiter k w') :=
  setWaiter hk (by simp [hloaded]) (by simp [hreturned])

/-- Somebody comes who waits. -/
theorem addWaiter (c : Core A) {w : A} (hloaded : Looker.hasLoaded w = false)
    (hreturned : Looker.hasReturned w = false) :
    Advance c { c with waiters := c.waiters ++ [w] } where
  shutdown := id
  active _ := le_rfl
  loaded h := by
    rcases h with hquery | ⟨v, hv, htrue⟩
    · exact Or.inl (Or.inl hquery)
    · rcases List.mem_append.mp hv with hold | hnew
      · exact Or.inl (Or.inr ⟨v, hold, htrue⟩)
      · rw [List.mem_singleton.mp hnew, hloaded] at htrue
        exact absurd htrue Bool.false_ne_true
  reported h := by
    rcases h with hquery | ⟨v, hv, htrue⟩
    · exact Or.inl (Or.inl hquery)
    · rcases List.mem_append.mp hv with hold | hnew
      · exact Or.inl (Or.inr ⟨v, hold, htrue⟩)
      · rw [List.mem_singleton.mp hnew, hreturned] at htrue
        exact absurd htrue Bool.false_ne_true
  denied _ hk := Or.inl hk

/-- A future of `await_termination` takes a step. -/
theorem awaitNext {c c' : Core Await} (h : c.awaitNext k = some c') : Advance c c' := by
  rw [Core.awaitNext] at h
  split at h
  · next hk =>
    obtain rfl := Option.some.inj h
    cases hshutdown : c.shutdown with
    | true => exact setWaiter hk (fun _ => hshutdown) fun h => absurd h Bool.false_ne_true
    | false => exact setWaiter_quiet hk rfl rfl
  · next hk =>
    obtain rfl := Option.some.inj h
    split_ifs with hzero
    · exact setWaiter hk (fun h => absurd h Bool.false_ne_true) fun _ => ⟨rfl, hzero⟩
    · exact setWaiter_quiet hk rfl rfl
  · next hk =>
    obtain rfl := Option.some.inj h
    exact setWaiter_quiet hk rfl rfl
  · next hk =>
    obtain rfl := Option.some.inj h
    exact setWaiter_quiet hk rfl rfl
  · next hk =>
    obtain rfl := Option.some.inj h
    exact setWaiter_quiet hk rfl rfl
  · next hk =>
    obtain rfl := Option.some.inj h
    exact setWaiter_quiet hk rfl rfl
  · exact absurd h (by simp)

/-- A future of `await_termination` is dropped. -/
theorem awaitDrop {c c' : Core Await} (h : c.awaitDrop k = some c') : Advance c c' := by
  rw [Core.awaitDrop] at h
  split at h
  · exact absurd h (by simp)
  · exact absurd h (by simp)
  · exact absurd h (by simp)
  · next a _ _ hk =>
    obtain rfl := Option.some.inj h
    exact setWaiter_quiet hk rfl rfl

/-- Somebody waits for termination, or asks for it. -/
theorem turn {c c' : Core Await} (h : c.Turn c') : Advance c c' := by
  cases h with
  | await => exact addWaiter c rfl rfl
  | awaitNext h => exact awaitNext h
  | awaitDrop h => exact awaitDrop h
  | query => exact query c
  | queryNext h => exact queryNext h

end Advance

end Core

/-! ### Services that do no more -/

/-- **A service that ends in order**: its steps do to the common state what they may, it gives
out no task number once the flag is set, and its submissions return the numbers it has given
out. -/
structure Orderly {σ α A : Type} [Waiter A] [Looker A] (M : Machine σ α) (core : σ → Core A)
    (admitted : σ → ℕ) (replies : σ → List Reply) : Prop where
  /-- It starts from the common state of a new service. -/
  init : ∀ s, M.init s → core s = .new
  /-- Its steps do to the common state what they may. -/
  advance : ∀ s a s', M.Reach s → M.step s a = some s' → (core s).Advance (core s')
  /-- Once the flag is set, no task is admitted. -/
  frozen : ∀ s a s', M.Reach s → M.step s a = some s' → (core s).shutdown = true →
    admitted s' = admitted s
  /-- Submissions return the numbers of admitted tasks. -/
  accepted : ∀ s, M.Reach s → ∀ i, .submit (.ok i) ∈ replies s → i < admitted s

namespace Orderly

variable {σ α A : Type} [Waiter A] [Looker A] {M : Machine σ α} {core : σ → Core A}
  {admitted : σ → ℕ} {replies : σ → List Reply} {s t : σ}

/-- Over every run, nobody was told anything wrong. -/
theorem honest (h : Orderly M core admitted replies) (hs : M.Reach s) : (core s).Honest := by
  refine hs.invariant (I := fun s => (core s).Honest) ?_ ?_
  · intro s hinit
    rw [h.init s hinit]
    refine ⟨fun hloaded => ?_, fun hreported => ?_⟩
    · simp [Core.Loaded, Core.new] at hloaded
    · simp [Core.Reported, Core.new] at hreported
  · intro s a s' hr hhonest _ hstep
    exact (h.advance s a s' hr hstep).honest hhonest

/-- A service that is terminated is terminated in every later state, and `is_terminated`
answers `false` to nobody who has not got that answer yet. -/
theorem stays_terminated (h : Orderly M core admitted replies) (hs : M.Reach s)
    (hterm : (core s).isTerminated = true) (hlater : M.Later s t) :
    (core t).isTerminated = true ∧ ∀ k : ℕ, (core t).queries[k]? = some (.answered false) →
      (core s).queries[k]? = some (.answered false) := by
  refine hlater.invariant (I := fun t => (core t).isTerminated = true ∧
    ∀ k : ℕ, (core t).queries[k]? = some (.answered false) →
      (core s).queries[k]? = some (.answered false)) hs ?_ ⟨hterm, fun _ hk => hk⟩
  rintro t a t' hr ⟨hdown, hanswers⟩ hstep
  have hadvance := h.advance t a t' hr hstep
  refine ⟨hadvance.isTerminated hdown, fun k hk => ?_⟩
  rcases hadvance.denied k hk with hold | hup
  · exact hanswers k hold
  · exact absurd (hdown.symm.trans hup) (by simp)

/-- **Once somebody was told that the service is terminated**, it is, and stays so. -/
theorem stays_reported (h : Orderly M core admitted replies) (hs : M.Reach s)
    (hreported : (core s).Reported) (hlater : M.Later s t) :
    (core t).isTerminated = true ∧ ∀ k : ℕ, (core t).queries[k]? = some (.answered false) →
      (core s).queries[k]? = some (.answered false) :=
  h.stays_terminated hs ((h.honest hs).reported hreported) hlater

/-- **Once the flag is set, nothing is accepted**: no task number is given out, and what
submissions return are numbers given out before. -/
theorem stays_closed (h : Orderly M core admitted replies) (hs : M.Reach s)
    (hshutdown : (core s).shutdown = true) (hlater : M.Later s t) :
    (core t).shutdown = true ∧ admitted t = admitted s ∧
      ∀ i, .submit (.ok i) ∈ replies t → i < admitted s := by
  have hboth : (core t).shutdown = true ∧ admitted t = admitted s := by
    refine hlater.invariant (I := fun t => (core t).shutdown = true ∧ admitted t = admitted s)
      hs ?_ ⟨hshutdown, rfl⟩
    rintro t a t' hr ⟨hclosed, hsame⟩ hstep
    exact ⟨(h.advance t a t' hr hstep).shutdown hclosed,
      (h.frozen t a t' hr hstep hclosed).trans hsame⟩
  refine ⟨hboth.1, hboth.2, fun i hi => ?_⟩
  rw [← hboth.2]
  exact h.accepted t (hlater.reach hs) i hi

end Orderly

/-- **The end of a service is stable.** `checks` says which steps are the check of a submission
for the flag. -/
structure StableEnd {σ α A : Type} [Waiter A] [Looker A] (M : Machine σ α) (core : σ → Core A)
    (admitted : σ → ℕ) (replies : σ → List Reply) (checks : σ → α → Prop) : Prop where
  /-- Once `is_terminated` has answered `true`, or a wait for termination is over, the service
  is terminated in every later state, and no call of `is_terminated` answers `false` any
  more. -/
  terminated : ∀ s t, M.Reach s → (core s).Reported → M.Later s t →
    (core t).isTerminated = true ∧ ∀ k : ℕ, (core t).queries[k]? = some (.answered false) →
      (core s).queries[k]? = some (.answered false)
  /-- Once the flag is set, no task is admitted, and submissions return `Ok` for tasks only
  that were admitted before. -/
  closed : ∀ s t, M.Reach s → (core s).shutdown = true → M.Later s t →
    admitted t = admitted s ∧ ∀ i, .submit (.ok i) ∈ replies t → i < admitted s
  /-- Once the flag is set, submissions that come to their check are refused. -/
  refused : ∀ s t a t', M.Reach s → (core s).shutdown = true → M.Later s t → checks t a →
    M.step t a = some t' → replies t' = replies t ++ [.submit (.error .shutdown)]

/-- The end of an orderly service is stable, if the check of a submission is one. -/
theorem Orderly.stableEnd {σ α A : Type} [Waiter A] [Looker A] {M : Machine σ α}
    {core : σ → Core A} {admitted : σ → ℕ} {replies : σ → List Reply} {checks : σ → α → Prop}
    (h : Orderly M core admitted replies)
    (hchecks : ∀ t a t', (core t).shutdown = true → checks t a → M.step t a = some t' →
      replies t' = replies t ++ [.submit (.error .shutdown)]) :
    StableEnd M core admitted replies checks where
  terminated _ _ hs hreported hlater := h.stays_reported hs hreported hlater
  closed _ _ hs hshutdown hlater := (h.stays_closed hs hshutdown hlater).2
  refused _ _ _ _ hs hshutdown hlater hcheck hstep :=
    hchecks _ _ _ (h.stays_closed hs hshutdown hlater).1 hcheck hstep

/-! ### Looking without being asked -/

/-- What a call of `is_terminated` has come to after its next step. -/
def Query.look {A : Type} (c : Core A) : Query → Query
  | .loadShutdown => if c.shutdown then .loadActive else .answered false
  | .loadActive => .answered (c.activeTasks == 0)
  | .answered answer => .answered answer

/-- Nobody who looks at a service that is terminated, and was not told otherwise, is told
otherwise. -/
theorem Query.look_of_isTerminated {A : Type} {c : Core A} (h : c.isTerminated = true) {q : Query}
    (hq : q ≠ .answered false) : q.look c ≠ .answered false := by
  obtain ⟨hshutdown, hzero⟩ := Core.isTerminated_iff.mp h
  cases q with
  | loadShutdown => simp [Query.look, hshutdown]
  | loadActive => simp [Query.look, hzero]
  | answered answer => exact hq

end Services

end QubitConcurrent
